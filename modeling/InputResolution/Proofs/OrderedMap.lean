import InputResolution.OrderedMap
import Mathlib.Data.List.Nodup

/-!
Look-ups in lists of entries, and maps that remember the order of insertion. A new key goes to the end; so a map made
from a list with distinct keys has the entries of the list.
-/

namespace InputResolution

section Entries

variable {κ α : Type} [BEq κ] [LawfulBEq κ] {entries : List (κ × α)} {key : κ} {value : α}

theorem exists_lookup (member : key ∈ entries.map Prod.fst) : ∃ value, entries.lookup key = some value := by
  obtain ⟨entry, there, same⟩ := List.mem_map.mp member
  exact Option.isSome_iff_exists.mp (List.lookup_isSome_iff.mpr ⟨entry, there, by simp [same]⟩)

theorem mem_of_lookup (found : entries.lookup key = some value) : (key, value) ∈ entries := by
  obtain ⟨before, after, split, _⟩ := List.lookup_eq_some_iff.mp found
  rw [split]
  exact List.mem_append_right before List.mem_cons_self

theorem mem_keys_of_lookup (found : entries.lookup key = some value) : key ∈ entries.map Prod.fst :=
  List.mem_map.mpr ⟨(key, value), mem_of_lookup found, rfl⟩

theorem lookup_cons_ne {other : κ} (apart : key ≠ other) (held : α) :
    ((other, held) :: entries).lookup key = entries.lookup key := by
  have different : (key == other) = false := by simpa using apart
  simp only [List.lookup_cons, different]

theorem lookup_cons_cases {other : κ} {held : α} (found : ((other, held) :: entries).lookup key = some value) :
    key = other ∧ value = held ∨ entries.lookup key = some value := by
  by_cases same : key = other
  · subst same
    rw [List.lookup_cons_self] at found
    exact Or.inl ⟨rfl, (Option.some.inj found).symm⟩
  · rw [lookup_cons_ne same] at found
    exact Or.inr found

/-- Under distinct keys every entry is the one that is found. -/
theorem lookup_of_mem (distinct : (entries.map Prod.fst).Nodup) (member : (key, value) ∈ entries) :
    entries.lookup key = some value := by
  obtain ⟨other, found⟩ := exists_lookup (List.mem_map.mpr ⟨(key, value), member, rfl⟩)
  have same := List.inj_on_of_nodup_map distinct (mem_of_lookup found) member rfl
  rw [found, (Prod.mk.inj same).2]

end Entries

namespace OrderedMap

variable {α : Type} {m : OrderedMap α} {key : String}

theorem contains_iff : m.contains key = true ↔ key ∈ m.entries.map Prod.fst := by
  unfold contains get?
  constructor
  · intro held
    obtain ⟨value, found⟩ := Option.isSome_iff_exists.mp held
    exact mem_keys_of_lookup found
  · intro member
    obtain ⟨value, found⟩ := exists_lookup member
    rw [found]
    rfl

theorem get?_of_mem {value : α} (member : (key, value) ∈ m.entries) : m.get? key = some value :=
  lookup_of_mem m.nodup member

theorem get?_eq_some {value : α} : m.get? key = some value ↔ (key, value) ∈ m.entries :=
  ⟨mem_of_lookup, get?_of_mem⟩

theorem get?_eq_none : m.get? key = none ↔ key ∉ m.keys := by
  rw [← Option.not_isSome_iff_eq_none]
  exact not_congr contains_iff

theorem insertEntry_absent {entries : List (String × α)} (absent : key ∉ entries.map Prod.fst) (value : α) :
    insertEntry key value entries = entries ++ [(key, value)] := by
  induction entries with
  | nil => rfl
  | cons entry rest ih =>
      simp only [List.map_cons, List.mem_cons, not_or] at absent
      rw [insertEntry, if_neg (Ne.symm absent.1), ih absent.2, List.cons_append]

theorem entries_insert (absent : m.contains key = false) (value : α) :
    (m.insert key value).entries = m.entries ++ [(key, value)] := by
  apply insertEntry_absent
  rw [← contains_iff, absent]
  exact Bool.false_ne_true

theorem entries_foldl_insert {entries : List (String × α)}
    (distinct : ((m.entries ++ entries).map Prod.fst).Nodup) :
    (entries.foldl (fun m entry => m.insert entry.1 entry.2) m).entries = m.entries ++ entries := by
  induction entries generalizing m with
  | nil => exact (List.append_nil _).symm
  | cons entry rest ih =>
      have absent : entry.1 ∉ m.entries.map Prod.fst := by
        rw [List.map_append, List.nodup_append] at distinct
        intro member
        exact distinct.2.2 entry.1 member entry.1 List.mem_cons_self rfl
      have grown : (m.insert entry.1 entry.2).entries = m.entries ++ [entry] :=
        insertEntry_absent absent entry.2
      rw [List.foldl_cons, ih, grown, List.append_assoc, List.singleton_append]
      rw [grown, List.append_assoc, List.singleton_append]
      exact distinct

theorem entries_ofList {entries : List (String × α)} (distinct : (entries.map Prod.fst).Nodup) :
    (ofList entries).entries = entries :=
  entries_foldl_insert distinct

end OrderedMap

end InputResolution
