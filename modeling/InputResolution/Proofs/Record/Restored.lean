import InputResolution.Proofs.Json.CanonicalText
import InputResolution.Proofs.OrderedMap
import InputResolution.Proofs.Steps
import InputResolution.Record

/-!
Reading what was written. A value is restored if a reader gets it back from the JSON that a writer makes of it. Readers
of records find the fields of an object by their names; so a record whose fields are restored is restored, and a field
that the writer leaves out has to be the one that the reader puts in its place.
-/

namespace InputResolution

/-! ## Values as they are written -/

namespace Json

mutual

/-- No object holds a name twice, at any depth. -/
def hasDistinctNames : Json → Bool
  | array items => itemsHaveDistinctNames items
  | object members => decide (members.map Prod.fst).Nodup && membersHaveDistinctNames members
  | _ => true

def itemsHaveDistinctNames : List Json → Bool
  | [] => true
  | item :: rest => hasDistinctNames item && itemsHaveDistinctNames rest

def membersHaveDistinctNames : List (String × Json) → Bool
  | [] => true
  | (_, value) :: rest => hasDistinctNames value && membersHaveDistinctNames rest

end

end Json

namespace Written

theorem ofJson_array (items : List Json) : ofJson (.array items) = .array (items.map ofJson) := by
  have each : ofItems items = items.map ofJson := by
    induction items with
    | nil => rfl
    | cons item rest ih => rw [ofItems, ih, List.map_cons]
  rw [ofJson, each]

theorem ofJson_object (members : List (String × Json)) :
    ofJson (.object members) = .object (members.map fun m => (m.1, ofJson m.2)) := by
  have each : ofMembers members = members.map fun m => (m.1, ofJson m.2) := by
    induction members with
    | nil => rfl
    | cons m rest ih => rw [ofMembers, ih, List.map_cons]
  rw [ofJson, each]

/-- The value can be read, and it is the value itself if its names are distinct. -/
def Returns (v : Json) : Prop :=
  ∃ w, (ofJson v).value? = some w ∧ (v.hasDistinctNames = true → w = v)

theorem itemValues?_map {items : List Json} (each : ∀ item ∈ items, Returns item) :
    ∃ values, itemValues? (items.map ofJson) = some values ∧
      (Json.itemsHaveDistinctNames items = true → values = items) := by
  induction items with
  | nil => exact ⟨[], rfl, fun _ => rfl⟩
  | cons item rest ih =>
      obtain ⟨⟨w, first, same⟩, later⟩ := List.forall_mem_cons.mp each
      obtain ⟨values, found, kept⟩ := ih later
      refine ⟨w :: values, ?_, fun distinct => ?_⟩
      · rw [List.map_cons, itemValues?, first]
        simp only [found, Option.map_some]
      · rw [Json.itemsHaveDistinctNames, Bool.and_eq_true] at distinct
        rw [same distinct.1, kept distinct.2]

theorem memberValues?_map {members : List (String × Json)} (each : ∀ m ∈ members, Returns m.2)
    (settled : List (String × Json)) :
    ∃ values, memberValues? (members.map fun m => (m.1, ofJson m.2)) settled = some values ∧
      (((settled ++ members).map Prod.fst).Nodup → Json.membersHaveDistinctNames members = true →
        values = settled ++ members) := by
  induction members generalizing settled with
  | nil => exact ⟨settled, rfl, fun _ _ => (List.append_nil settled).symm⟩
  | cons m rest ih =>
      obtain ⟨⟨w, first, same⟩, later⟩ := List.forall_mem_cons.mp each
      obtain ⟨values, found, kept⟩ := ih later (OrderedMap.insertEntry m.1 w settled)
      refine ⟨values, ?_, fun distinct names => ?_⟩
      · rw [List.map_cons, memberValues?, first]
        exact found
      · rw [Json.membersHaveDistinctNames, Bool.and_eq_true] at names
        cases same names.1
        have absent : m.1 ∉ settled.map Prod.fst := by
          rw [List.map_append, List.nodup_append] at distinct
          exact fun member => distinct.2.2 m.1 member m.1 List.mem_cons_self rfl
        rw [OrderedMap.insertEntry_absent absent, List.append_assoc, List.singleton_append] at kept
        exact kept distinct names.2

theorem returns (v : Json) : Returns v := by
  induction v using Json.induction with
  | null => exact ⟨_, rfl, fun _ => rfl⟩
  | bool b => exact ⟨_, rfl, fun _ => rfl⟩
  | int i => exact ⟨_, rfl, fun _ => rfl⟩
  | double x => exact ⟨_, rfl, fun _ => rfl⟩
  | string s => exact ⟨_, rfl, fun _ => rfl⟩
  | array items each =>
      obtain ⟨values, found, kept⟩ := itemValues?_map each
      refine ⟨.array values, ?_, fun distinct => ?_⟩
      · rw [ofJson_array, value?, found]
        rfl
      · rw [Json.hasDistinctNames] at distinct
        rw [kept distinct]
  | object members each =>
      obtain ⟨values, found, kept⟩ := memberValues?_map each []
      refine ⟨.object values, ?_, fun distinct => ?_⟩
      · rw [ofJson_object, value?, found]
        rfl
      · rw [Json.hasDistinctNames, Bool.and_eq_true, decide_eq_true_eq] at distinct
        rw [kept distinct.1 distinct.2, List.nil_append]

theorem isReadable_ofJson (v : Json) : (ofJson v).isReadable = true := by
  obtain ⟨w, read, _⟩ := returns v
  rw [isReadable, read]
  rfl

end Written

/-! ## Readers and writers -/

namespace Record

open Written

variable {α β : Type} {read : Written → Option α} {write : α → Json} {a : α}

def Restores (read : Written → Option α) (write : α → Json) (a : α) : Prop :=
  read (ofJson (write a)) = some a

theorem Restores.required (restores : Restores read write a) : required read (some (ofJson (write a))) = some a :=
  restores

theorem Restores.orElse (restores : Restores read write a) (default : α) :
    orElse default read (some (ofJson (write a))) = some a :=
  restores

theorem Restores.optional (restores : Restores read write a) (present : ofJson (write a) ≠ .null) :
    optional read (some (ofJson (write a))) = some (some a) := by
  have whole : ∀ {written}, written ≠ .null → Record.optional read (some written) = (read written).map some := by
    intro written present
    cases written <;> first | rfl | exact absurd rfl present
  rw [whole present, restores, Option.map_some]

theorem optional_ofOption {x : Option α} (each : ∀ a ∈ x, Restores read write a)
    (present : ∀ a, ofJson (write a) ≠ .null) : optional read (some (ofJson (ofOption write x))) = some x := by
  cases x with
  | none => rfl
  | some a => exact (each a rfl).optional (present a)

theorem restores_json {v : Json} (distinct : v.hasDistinctNames = true) : Restores Written.value? id v := by
  obtain ⟨w, read, same⟩ := returns v
  exact same distinct ▸ read

theorem restores_text (s : String) : Restores text? Json.string s := rfl

theorem restores_bool (b : Bool) : Restores bool? Json.bool b := rfl

theorem restores_int {i : Int} (signed : isSigned i = true) : Restores int? Json.int i :=
  if_pos signed

theorem restores_nat {n : Nat} (unsigned : isUnsigned n = true) : Restores nat? ofNat n :=
  (if_pos unsigned).trans (congrArg some (Int.toNat_natCast n))

theorem mapM_map_eq_some {f : β → Option α} {g : α → β} {xs : List α} (each : ∀ x ∈ xs, f (g x) = some x) :
    (xs.map g).mapM f = some xs := by
  have whole : xs.mapM (f ∘ g) = some (xs.map id) := Steps.mapM_eq_some each
  rw [List.mapM_map, whole, List.map_id]

theorem restores_ofList {xs : List α} (each : ∀ x ∈ xs, Restores read write x) :
    Restores (list? read) (ofList write) xs := by
  rw [Restores, ofList, ofJson_array, list?, List.map_map]
  exact mapM_map_eq_some each

theorem entries?_map {entries : List (String × α)} (each : ∀ entry ∈ entries, Restores read write entry.2) :
    ofJson (.object (entries.map fun entry => (entry.1, write entry.2))) =
        .object (entries.map fun entry => (entry.1, ofJson (write entry.2))) ∧
      entries? read (entries.map fun entry => (entry.1, ofJson (write entry.2))) = some entries := by
  constructor
  · rw [ofJson_object, List.map_map]
    rfl
  · refine mapM_map_eq_some fun entry member => ?_
    change (read (ofJson (write entry.2))).map _ = _
    rw [each entry member]
    rfl

theorem restores_ofMap {m : OrderedMap α} (each : ∀ entry ∈ m.entries, Restores read write entry.2) :
    Restores (map? read) (ofMap write) m := by
  obtain ⟨written, found⟩ := entries?_map each
  rw [Restores, ofMap, written, map?, found]
  exact congrArg some (OrderedMap.ext (OrderedMap.entries_ofList m.nodup))

/-! ## Records -/

theorem valuesOf_absent {name : String} {members : List (String × Written)} (absent : name ∉ members.map Prod.fst) :
    valuesOf name members = [] := by
  induction members with
  | nil => rfl
  | cons m rest ih =>
      rw [List.map_cons, List.mem_cons, not_or] at absent
      rw [valuesOf, if_neg (Ne.symm absent.1), ih absent.2]

theorem valuesOf_of_mem {m : String × Written} {members : List (String × Written)}
    (distinct : (members.map Prod.fst).Nodup) (member : m ∈ members) : valuesOf m.1 members = [m.2] := by
  induction members with
  | nil => cases member
  | cons first rest ih =>
      rw [List.map_cons, List.nodup_cons] at distinct
      rcases List.mem_cons.mp member with rfl | later
      · rw [valuesOf, if_pos rfl, valuesOf_absent distinct.1]
      · have other : first.1 ≠ m.1 := fun same => distinct.1 (same ▸ List.mem_map_of_mem later)
        rw [valuesOf, if_neg other, ih distinct.2 later]

/-- The fields of an object that holds some of them in order, and leaves out the last ones. -/
theorem fields?_ofJson {names : List String} {members : List (String × Json)} (missing : List String)
    (named : names = members.map Prod.fst ++ missing) (distinct : names.Nodup) :
    fields? names (ofJson (.object members)) =
      some (members.map (fun m => some (ofJson m.2)) ++ missing.map fun _ => none) := by
  subst named
  rw [ofJson_object]
  generalize written : members.map (fun m => (m.1, ofJson m.2)) = shown
  have keys : shown.map Prod.fst = members.map Prod.fst := by
    rw [← written, List.map_map]
    rfl
  obtain ⟨held, _, apart⟩ := List.nodup_append.mp (keys ▸ distinct)
  have found : ∀ m ∈ members, valuesOf m.1 shown = [ofJson m.2] := fun m member =>
    valuesOf_of_mem held (written ▸ List.mem_map_of_mem member)
  have absent : ∀ name ∈ missing, valuesOf name shown = [] := fun name member =>
    valuesOf_absent fun key => apart name key name member rfl
  rw [fields?, List.mapM_append, List.mapM_map, Steps.mapM_eq_some (g := fun m => some (ofJson m.2)),
    Steps.mapM_eq_some (g := fun _ => none)]
  · rfl
  · intro name member
    rw [absent name member]
  · intro m member
    rw [Function.comp_apply, found m member]

theorem tagged?_ofJson (spelling : Spelling) (names : List String) {tag name : String}
    {parameters : List (String × Json)} (apart : tag ∉ parameters.map Prod.fst) :
    tagged? spelling tag names (ofJson (.object ((tag, .string name) :: parameters))) =
      some (name, ofJson (.object parameters)) := by
  have readable := isReadable_ofJson (.object ((tag, .string name) :: parameters))
  rw [ofJson_object, List.map_cons] at readable ⊢
  rw [ofJson_object]
  generalize written : parameters.map (fun m => (m.1, ofJson m.2)) = shown at readable ⊢
  have absent : tag ∉ shown.map Prod.fst := by
    rw [← written, List.map_map]
    exact apart
  have others : shown.filter (fun m => m.1 ≠ tag) = shown :=
    List.filter_eq_self.mpr fun m member => decide_eq_true fun same => absent (same ▸ List.mem_map_of_mem member)
  have given : valuesOf tag ((tag, ofJson (.string name)) :: shown) = [.string name] := by
    rw [valuesOf, if_pos rfl, valuesOf_absent absent]
    rfl
  simp only [tagged?, readable, given, tagName?, Option.map_some]
  rw [List.filter_cons_of_neg (by simp), others]
  rfl

end Record

end InputResolution
