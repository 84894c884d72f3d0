import InputResolution.Proofs.Json.CanonicalText
import InputResolution.Proofs.Record.Faithful
import InputResolution.Proofs.Record.Restored

/-!
Values up to the order of members. Two objects are the same value if they have the same names and the same value under
each name; arrays are compared item by item, and what is neither is compared as it is, so that a whole number is never
the same as a double. Where no object names a member twice, the canonical text is a normal form of this: values are the
same exactly if they have one text.
-/

namespace InputResolution.Json

theorem hasDistinctNames_array {items : List Json} :
    (array items).hasDistinctNames = true ↔ ∀ item ∈ items, item.hasDistinctNames = true := by
  have each : itemsHaveDistinctNames items = items.all hasDistinctNames := by
    induction items with
    | nil => rfl
    | cons item rest ih => rw [itemsHaveDistinctNames, ih, List.all_cons]
  rw [hasDistinctNames, each, List.all_eq_true]

theorem hasDistinctNames_object {members : List (String × Json)} :
    (object members).hasDistinctNames = true ↔
      (members.map Prod.fst).Nodup ∧ ∀ m ∈ members, m.2.hasDistinctNames = true := by
  have each : membersHaveDistinctNames members = members.all fun m => m.2.hasDistinctNames := by
    induction members with
    | nil => rfl
    | cons m rest ih => rw [membersHaveDistinctNames, ih, List.all_cons]
  rw [hasDistinctNames, each, Bool.and_eq_true, decide_eq_true_eq, List.all_eq_true]

/-- The values are the same when objects are taken as maps. -/
inductive SameValue : Json → Json → Prop where
  | null : SameValue null null
  | bool (b : Bool) : SameValue (bool b) (bool b)
  | int (i : Int) : SameValue (int i) (int i)
  | double (x : Double) : SameValue (double x) (double x)
  | string (s : String) : SameValue (string s) (string s)
  | array {items others : List Json} (each : List.Forall₂ SameValue items others) :
      SameValue (array items) (array others)
  | object {members others : List (String × Json)}
      (names : ∀ name, name ∈ members.map Prod.fst ↔ name ∈ others.map Prod.fst)
      (values : ∀ name value other, (name, value) ∈ members → (name, other) ∈ others → SameValue value other) :
      SameValue (object members) (object others)

section Items

variable {α β : Type} {related : α → α → Prop} {f : α → β} {xs ys : List α}

theorem forall₂_of_map_eq (same : xs.map f = ys.map f) (each : ∀ x ∈ xs, ∀ y ∈ ys, f x = f y → related x y) :
    List.Forall₂ related xs ys := by
  induction xs generalizing ys with
  | nil =>
      cases ys with
      | nil => exact .nil
      | cons y ys => cases same
  | cons x xs ih =>
      cases ys with
      | nil => cases same
      | cons y ys =>
          obtain ⟨head, tail⟩ := List.cons.inj same
          refine .cons (each x List.mem_cons_self y List.mem_cons_self head) (ih tail fun a first b second => ?_)
          exact each a (List.mem_cons_of_mem x first) b (List.mem_cons_of_mem y second)

theorem map_eq_of_forall₂ (pairs : List.Forall₂ related xs ys)
    (each : ∀ x ∈ xs, ∀ y ∈ ys, related x y → f x = f y) : xs.map f = ys.map f := by
  induction pairs with
  | nil => rfl
  | @cons x y xs ys head tail ih =>
      rw [List.map_cons, List.map_cons, each x List.mem_cons_self y List.mem_cons_self head, ih]
      exact fun a first b second => each a (List.mem_cons_of_mem x first) b (List.mem_cons_of_mem y second)

end Items

/-! ## From the text to the value -/

theorem sameValue_of_normal_eq {v w : Json} (once : v.hasDistinctNames = true)
    (also : w.hasDistinctNames = true) (same : v.normal = w.normal) :
    SameValue v w := by
  induction v using induction generalizing w with
  | null => cases w <;> cases same; exact .null
  | bool b => cases w <;> cases same; exact .bool b
  | int i => cases w <;> cases same; exact .int i
  | double x => cases w <;> cases same; exact .double x
  | string s => cases w <;> cases same; exact .string s
  | array items ih =>
      cases w with
      | array others =>
          rw [hasDistinctNames_array] at once also
          rw [normal_array, normal_array, array.injEq] at same
          refine .array (forall₂_of_map_eq same fun item here other there => ?_)
          exact ih item here (once item here) (also other there)
      | _ => cases same
  | object members ih =>
      cases w with
      | object others =>
          obtain ⟨names, first⟩ := hasDistinctNames_object.mp once
          obtain ⟨otherNames, second⟩ := hasDistinctNames_object.mp also
          have keys := (perm_of_normal_eq same).map Prod.fst
          rw [keys_normalMember, keys_normalMember] at keys
          refine .object (fun name => keys.mem_iff) fun name value other here there => ?_
          exact ih (name, value) here (first _ here) (second _ there) (value_normal_eq same otherNames here there)
      | _ => cases same

/-! ## From the value to the text -/

theorem memberTexts_perm {members others : List (String × Json)} (names : (members.map Prod.fst).Nodup)
    (otherNames : (others.map Prod.fst).Nodup) (same : ∀ name, name ∈ members.map Prod.fst ↔ name ∈ others.map Prod.fst)
    (texts : ∀ name value other, (name, value) ∈ members → (name, other) ∈ others →
      value.canonicalText = other.canonicalText) : (memberTexts members).Perm (memberTexts others) := by
  have keys (ms : List (String × Json)) : (memberTexts ms).map Prod.fst = ms.map Prod.fst := by
    rw [memberTexts_eq_map, List.map_map]
    rfl
  have distinct : (memberTexts members).Nodup := List.Nodup.of_map Prod.fst (by rwa [keys])
  have otherDistinct : (memberTexts others).Nodup := List.Nodup.of_map Prod.fst (by rwa [keys])
  have part {ms ns : List (String × Json)} (covered : ∀ name, name ∈ ms.map Prod.fst → name ∈ ns.map Prod.fst)
      (alike : ∀ name value other, (name, value) ∈ ms → (name, other) ∈ ns →
        value.canonicalText = other.canonicalText) : ∀ m ∈ memberTexts ms, m ∈ memberTexts ns := by
    intro m member
    rw [memberTexts_eq_map] at member ⊢
    obtain ⟨⟨name, value⟩, here, rfl⟩ := List.mem_map.mp member
    obtain ⟨⟨_, other⟩, there, rfl⟩ := List.mem_map.mp (covered name (List.mem_map_of_mem here))
    exact List.mem_map.mpr ⟨_, there, Prod.ext rfl (alike _ value other here there).symm⟩
  rw [List.perm_ext_iff_of_nodup distinct otherDistinct]
  intro m
  constructor
  · exact part (fun name => (same name).mp) texts m
  · exact part (fun name => (same name).mpr) (fun name value other here there => (texts name other value there here).symm)
      m

theorem canonicalText_eq_of_sameValue {v w : Json} (once : v.hasDistinctNames = true)
    (also : w.hasDistinctNames = true) (same : SameValue v w) :
    v.canonicalText = w.canonicalText := by
  induction v using induction generalizing w with
  | array items ih =>
      cases same with | @array _ others each =>
      rw [hasDistinctNames_array] at once also
      rw [canonicalText, canonicalText, itemTexts_eq_map, itemTexts_eq_map]
      rw [map_eq_of_forall₂ each fun item here other there => ih item here (once item here) (also other there)]
  | object members ih =>
      cases same with | @object _ others keys values =>
      obtain ⟨names, first⟩ := hasDistinctNames_object.mp once
      obtain ⟨otherNames, second⟩ := hasDistinctNames_object.mp also
      have texts := memberTexts_perm names otherNames keys fun name value other here there =>
        ih (name, value) here (first _ here) (second _ there) (values name value other here there)
      have distinct : ((memberTexts members).map Prod.fst).Nodup := by
        rw [memberTexts_eq_map, List.map_map]
        exact names
      rw [canonicalText, canonicalText, byName_eq_of_perm texts distinct]
  | _ => cases same; rfl

/-- The canonical text tells a value up to the order of members, and nothing more. -/
theorem canonicalText_eq_iff {v w : Json} (once : v.hasDistinctNames = true)
    (also : w.hasDistinctNames = true) :
    v.canonicalText = w.canonicalText ↔ SameValue v w :=
  ⟨fun same => sameValue_of_normal_eq once also (normal_eq_of_canonicalText_eq same),
    canonicalText_eq_of_sameValue once also⟩

end InputResolution.Json
