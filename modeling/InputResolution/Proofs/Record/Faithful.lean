import InputResolution.Proofs.Json.CanonicalText
import InputResolution.Record.Metadata

/-!
Writing that loses nothing. A way of writing values as JSON is faithful if it keeps them apart in whatever order the
members of objects come. Faithful ways of writing are put together from those of the parts, and the canonical text of a
value that is written faithfully tells the value. So does the text by which a query is remembered: two queries with one
text have the same type, the same state and the same filters in the same order.
-/

namespace InputResolution

namespace Json

variable {α : Type}

def normalMember (m : String × Json) : String × Json :=
  (m.1, m.2.normal)

theorem map_normalMember_cons {name : String} {value other : Json} {ms ns : List (String × Json)} :
    ((name, value) :: ms).map normalMember = ((name, other) :: ns).map normalMember ↔
      value.normal = other.normal ∧ ms.map normalMember = ns.map normalMember := by
  simp [normalMember]

theorem keys_normalMember (ms : List (String × Json)) : (ms.map normalMember).map Prod.fst = ms.map Prod.fst := by
  rw [List.map_map]
  rfl

/-- Objects with one normal form have the same members up to their order. -/
theorem perm_of_normal_eq {ms ns : List (String × Json)} (same : (object ms).normal = (object ns).normal) :
    (ms.map normalMember).Perm (ns.map normalMember) := by
  rw [normal_object, normal_object] at same
  calc
    (ms.map normalMember).Perm ((byName ms).map normalMember) := ((byName_perm ms).map _).symm
    _ = (byName ns).map normalMember := object.inj same
    (List.Perm _ (ns.map normalMember)) := (byName_perm ns).map _

theorem value_eq_of_perm {ms ns : List (String × α)} (perm : ms.Perm ns) (distinct : (ns.map Prod.fst).Nodup)
    (name : String) {value other : α} (first : (name, value) ∈ ms) (second : (name, other) ∈ ns) : value = other :=
  (Prod.mk.inj (List.inj_on_of_nodup_map distinct (perm.mem_iff.mp first) second rfl)).2

theorem value_normal_eq {ms ns : List (String × Json)} (same : (object ms).normal = (object ns).normal)
    (distinct : (ns.map Prod.fst).Nodup) {name : String} {value other : Json} (first : (name, value) ∈ ms)
    (second : (name, other) ∈ ns) : value.normal = other.normal := by
  have keys : ((ns.map normalMember).map Prod.fst).Nodup := by rwa [keys_normalMember]
  exact value_eq_of_perm (perm_of_normal_eq same) keys name (List.mem_map_of_mem first) (List.mem_map_of_mem second)

/-- Only the order of names can be changed. -/
theorem eq_of_perm_of_keys {ms ns : List (String × α)} (perm : ms.Perm ns)
    (keys : ms.map Prod.fst = ns.map Prod.fst) (distinct : (ns.map Prod.fst).Nodup) : ms = ns := by
  apply List.ext_getElem perm.length_eq
  intro place first second
  have key : ms[place].1 = ns[place].1 := by
    have same := congrArg (·[place]?) keys
    simpa [first, second] using same
  refine Prod.ext key (value_eq_of_perm perm distinct ns[place].1 ?_ (List.getElem_mem second))
  rw [← key]
  exact List.getElem_mem first

/-- Objects with one normal form that have the same names in the same order have the same values up to normal form. -/
theorem members_eq_of_normal_eq {ms ns : List (String × Json)} (same : (object ms).normal = (object ns).normal)
    (keys : ms.map Prod.fst = ns.map Prod.fst) (distinct : (ns.map Prod.fst).Nodup) :
    ms.map normalMember = ns.map normalMember := by
  apply eq_of_perm_of_keys (perm_of_normal_eq same)
  · rw [keys_normalMember, keys_normalMember, keys]
  · rwa [keys_normalMember]

end Json

namespace Record

variable {α : Type} {write : α → Json}

/-- Values are kept apart, even by someone who disregards the order of members. -/
def Faithful (write : α → Json) : Prop :=
  Function.Injective fun a => (write a).normal

theorem Faithful.canonicalText_injective (faithful : Faithful write) :
    Function.Injective fun a => (write a).canonicalText :=
  fun _ _ same => faithful (Json.normal_eq_of_canonicalText_eq same)

theorem faithful_int : Faithful Json.int :=
  fun _ _ same => Json.int.inj same

theorem faithful_bool : Faithful Json.bool :=
  fun _ _ same => Json.bool.inj same

theorem faithful_string : Faithful Json.string :=
  fun _ _ same => Json.string.inj same

theorem faithful_ofNat : Faithful ofNat :=
  fun _ _ same => Int.ofNat.inj (Json.int.inj same)

theorem faithful_name {name : α → String} (injective : Function.Injective name) :
    Faithful fun a => .string (name a) :=
  fun _ _ same => injective (Json.string.inj same)

theorem faithful_ofList (faithful : Faithful write) : Faithful (ofList write) := by
  intro xs ys same
  simp only [ofList, Json.normal_array, List.map_map, Json.array.injEq] at same
  exact List.map_injective_iff.mpr faithful same

/-- What is missing is written as `null`, as nothing else may be. -/
theorem faithful_ofOption (faithful : Faithful write) (present : ∀ a, (write a).normal ≠ .null) :
    Faithful (ofOption write) := by
  intro x y same
  cases x with
  | none =>
      cases y with
      | none => rfl
      | some b => exact absurd same.symm (present b)
  | some a =>
      cases y with
      | none => exact absurd same (present a)
      | some b => exact congrArg some (faithful same)

end Record

/-! ## Queries -/

open Record

theorem ArtifactState.name_injective : Function.Injective ArtifactState.name := by
  intro a b same
  cases a <;> cases b <;> first | rfl | exact absurd same (by decide)

theorem Relation.name_injective : Function.Injective Relation.name := by
  intro a b same
  cases a <;> cases b <;> first | rfl | exact absurd same (by decide)

theorem Property.faithful_toJson : Faithful Property.toJson := by
  intro a b same
  cases a <;> cases b <;> cases same <;> rfl

theorem Filter.faithful_toJson : Faithful Filter.toJson := by
  intro f g same
  have values := Json.members_eq_of_normal_eq same rfl (by simp)
  simp only [Json.map_normalMember_cons, List.map_nil, and_true] at values
  obtain ⟨property, relation, value⟩ := values
  cases f
  cases g
  simp only [Filter.mk.injEq]
  exact ⟨faithful_string property, faithful_name Relation.name_injective relation, Property.faithful_toJson value⟩

namespace Query

theorem faithful_state : Faithful (ofOption ArtifactState.toJson) :=
  faithful_ofOption (faithful_name ArtifactState.name_injective) fun _ => nofun

theorem faithful_toJson : Faithful Query.toJson := by
  intro q r same
  have values := Json.members_eq_of_normal_eq same rfl (by simp)
  simp only [Json.map_normalMember_cons, List.map_nil, and_true] at values
  obtain ⟨typeName, filters, state⟩ := values
  cases q
  cases r
  simp only [Query.mk.injEq]
  exact ⟨faithful_string typeName, faithful_ofList Filter.faithful_toJson filters, faithful_state state⟩

theorem key_injective : Function.Injective key :=
  faithful_toJson.canonicalText_injective

end Query

end InputResolution
