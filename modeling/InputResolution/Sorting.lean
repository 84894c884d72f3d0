/-!
Sorted lists and maps. Lists are sorted by insertion: elements with the same key keep their order, and a list of
distinct integers is sorted as it is put together. Records are sorted by lists of integers, which are compared from the
left.

A map from text keys is held in ascending order of the keys, so that equal maps are equal values.
-/

namespace InputResolution

abbrev SortKey := List Int

section

variable {α κ : Type} [LT κ] [DecidableLT κ]

/-- Puts an element in front of the first one whose key is not smaller. -/
def insertBy (key : α → κ) (x : α) : List α → List α
  | [] => [x]
  | y :: rest => if key y < key x then y :: insertBy key x rest else x :: y :: rest

def sortBy (key : α → κ) : List α → List α
  | [] => []
  | x :: rest => insertBy key x (sortBy key rest)

/-- The element with the greatest key, the last of several. -/
def latestBy? (key : α → κ) : List α → Option α
  | [] => none
  | x :: rest =>
      match latestBy? key rest with
      | none => some x
      | some best => if key best < key x then some x else some best

end

def insertDistinct (x : Int) : List Int → List Int
  | [] => [x]
  | y :: rest => if x < y then x :: y :: rest else if x = y then y :: rest else y :: insertDistinct x rest

def distinctAscending : List Int → List Int
  | [] => []
  | x :: rest => insertDistinct x (distinctAscending rest)

structure SortedMap (α : Type) where
  entries : List (String × α)
  ascending : (entries.map Prod.fst).Pairwise (· < ·)

namespace SortedMap

variable {α : Type}

def empty : SortedMap α := ⟨[], List.Pairwise.nil⟩

instance : Inhabited (SortedMap α) := ⟨empty⟩

def insertEntry (key : String) (value : α) : List (String × α) → List (String × α)
  | [] => [(key, value)]
  | (k, v) :: rest =>
      if key < k then (key, value) :: (k, v) :: rest
      else if key = k then (key, value) :: rest
      else (k, v) :: insertEntry key value rest

theorem mem_keys_insertEntry (key : String) (value : α) (entries : List (String × α)) (k : String) :
    k ∈ (insertEntry key value entries).map Prod.fst ↔ k = key ∨ k ∈ entries.map Prod.fst := by
  induction entries with
  | nil => simp [insertEntry]
  | cons entry rest ih =>
      obtain ⟨first, v⟩ := entry
      simp only [insertEntry]
      split
      · simp
      · split
        · rename_i same
          simp [same]
        · simp only [List.map_cons, List.mem_cons, ih]
          constructor
          · rintro (h | h | h) <;> simp [h]
          · rintro (h | h | h) <;> simp [h]

theorem ascending_insertEntry (key : String) (value : α) (entries : List (String × α))
    (sorted : (entries.map Prod.fst).Pairwise (· < ·)) :
    ((insertEntry key value entries).map Prod.fst).Pairwise (· < ·) := by
  induction entries with
  | nil => simp [insertEntry]
  | cons entry rest ih =>
      obtain ⟨first, v⟩ := entry
      simp only [List.map_cons, List.pairwise_cons] at sorted
      simp only [insertEntry]
      split
      · rename_i before
        simp only [List.map_cons, List.pairwise_cons, List.mem_cons]
        refine ⟨?_, sorted⟩
        rintro k (h | h)
        · exact h ▸ before
        · exact String.lt_trans before (sorted.1 k h)
      · split
        · rename_i same
          simp only [List.map_cons, List.pairwise_cons]
          exact ⟨fun k h => same ▸ sorted.1 k h, sorted.2⟩
        · rename_i notBefore different
          simp only [List.map_cons, List.pairwise_cons]
          refine ⟨?_, ih sorted.2⟩
          intro k h
          rcases (mem_keys_insertEntry key value rest k).mp h with h | h
          · exact h ▸ String.not_le.mp fun below =>
              different (String.le_antisymm below (String.not_lt.mp notBefore))
          · exact sorted.1 k h

def get? (m : SortedMap α) (key : String) : Option α :=
  m.entries.lookup key

def insert (m : SortedMap α) (key : String) (value : α) : SortedMap α :=
  ⟨insertEntry key value m.entries, ascending_insertEntry key value m.entries m.ascending⟩

/-- Of two entries with one key the later one counts. -/
def ofList (entries : List (String × α)) : SortedMap α :=
  entries.foldl (fun m entry => m.insert entry.1 entry.2) empty

theorem ext {m n : SortedMap α} (same : m.entries = n.entries) : m = n := by
  cases m
  cases n
  cases same
  rfl

instance [DecidableEq α] : DecidableEq (SortedMap α) := fun m n =>
  if same : m.entries = n.entries then isTrue (ext same)
  else isFalse fun h => same (h ▸ rfl)

end SortedMap

end InputResolution
