import InputResolution.Fingerprint
import InputResolution.Proofs.Json.SameValue
import InputResolution.Proofs.OrderedMap
import InputResolution.Proofs.Record.Faithful

/-!
What an invocation is told apart by. Its fingerprint covers the function, the arguments in their order and the named
parameters as a map, and nothing else of it.
-/

namespace InputResolution

open Record

theorem Argument.faithful_toJson : Faithful Argument.toJson := by
  -- An argument says its kind under one name, so that the kinds are compared first.
  intro a b same
  cases a with
  | input node typeName =>
      cases b with
      | input other otherType =>
          have values := Json.members_eq_of_normal_eq same rfl (by simp)
          simp only [Json.map_normalMember_cons, List.map_nil, and_true] at values
          obtain ⟨-, nodes, types⟩ := values
          rw [faithful_ofNat nodes, faithful_string types]
      | channel other operation =>
          have kinds := faithful_string (Json.value_normal_eq same (by simp) List.mem_cons_self List.mem_cons_self)
          exact absurd kinds (by decide)
  | channel node operation =>
      cases b with
      | input other otherType =>
          have kinds := faithful_string (Json.value_normal_eq same (by simp) List.mem_cons_self List.mem_cons_self)
          exact absurd kinds (by decide)
      | channel other otherOperation =>
          have values := Json.members_eq_of_normal_eq same rfl (by simp)
          simp only [Json.map_normalMember_cons, List.map_nil, and_true] at values
          obtain ⟨-, nodes, operations⟩ := values
          rw [faithful_ofNat nodes, faithful_string operations]

namespace OrderedMap

def SameValues (m n : OrderedMap Json) : Prop :=
  ∀ name, Option.Rel Json.SameValue (m.get? name) (n.get? name)

theorem sameValue_object_iff {m n : OrderedMap Json} :
    Json.SameValue (.object m.entries) (.object n.entries) ↔ m.SameValues n := by
  constructor
  · intro same name
    cases same with | object names values =>
    cases held : m.get? name with
    | none =>
        rw [get?_eq_none.mpr (mt (names name).mpr (get?_eq_none.mp held))]
        exact .none
    | some value =>
        have here := get?_eq_some.mp held
        obtain ⟨⟨_, other⟩, there, rfl⟩ := List.mem_map.mp ((names name).mp (List.mem_map_of_mem here))
        rw [get?_of_mem there]
        exact .some (values _ value other here there)
  · intro same
    refine .object (fun name => ?_) fun name value other here there => ?_
    · have missing : m.get? name = none ↔ n.get? name = none := by
        have both := same name
        generalize m.get? name = first, n.get? name = second at both
        cases both <;> simp
      rwa [get?_eq_none, get?_eq_none, not_iff_not] at missing
    · have both := same name
      rw [get?_of_mem here, get?_of_mem there] at both
      cases both with | some values => exact values

end OrderedMap

namespace Invocation

structure SameCall (a b : Invocation) : Prop where
  function : a.function = b.function
  args : a.args = b.args
  kwargs : a.kwargs.SameValues b.kwargs

/-- No parameter holds an object that holds a name twice. -/
def HasDistinctNames (call : Invocation) : Prop :=
  ∀ entry ∈ call.kwargs.entries, entry.2.hasDistinctNames = true

theorem hasDistinctNames_kwargs {call : Invocation} (distinct : call.HasDistinctNames) :
    (Json.object call.kwargs.entries).hasDistinctNames = true :=
  Json.hasDistinctNames_object.mpr ⟨call.kwargs.nodup, distinct⟩

theorem toJson_eq (call : Invocation) :
    call.toJson = .object [("function", .string call.function), ("args", ofList Argument.toJson call.args),
      ("kwargs", .object call.kwargs.entries)] := by
  rw [toJson, ofMap]
  simp only [id_eq, Prod.mk.eta, List.map_id']

theorem canonicalText_eq_iff {a b : Invocation} (distinct : a.HasDistinctNames) (also : b.HasDistinctNames) :
    a.toJson.canonicalText = b.toJson.canonicalText ↔ a.SameCall b := by
  rw [toJson_eq, toJson_eq]
  constructor
  · intro same
    have values := Json.members_eq_of_normal_eq (Json.normal_eq_of_canonicalText_eq same) rfl (by simp)
    simp only [Json.map_normalMember_cons, List.map_nil, and_true] at values
    obtain ⟨function, args, kwargs⟩ := values
    refine ⟨faithful_string function, faithful_ofList Argument.faithful_toJson args, ?_⟩
    exact OrderedMap.sameValue_object_iff.mp
      (Json.sameValue_of_normal_eq (hasDistinctNames_kwargs distinct) (hasDistinctNames_kwargs also) kwargs)
  · rintro ⟨function, args, kwargs⟩
    have texts := Json.canonicalText_eq_of_sameValue (hasDistinctNames_kwargs distinct) (hasDistinctNames_kwargs also)
      (OrderedMap.sameValue_object_iff.mpr kwargs)
    rw [function, args, Json.canonicalText, Json.canonicalText, Json.memberTexts_eq_map, Json.memberTexts_eq_map]
    simp only [List.map_cons, List.map_nil, texts]

end Invocation

/-! ## One text for one value -/

/-- Values have one canonical text exactly if they are the same with objects taken as maps. So queries are remembered
under one text exactly if they are one query, and what two fingerprints are digests of is one text, whatever the digest,
exactly if the function, the arguments and the parameters as a map are the same. -/
theorem canonicalText_normalForm :
    (∀ v w : Json, v.hasDistinctNames = true → w.hasDistinctNames = true →
      (v.canonicalText = w.canonicalText ↔ Json.SameValue v w)) ∧
    (∀ q r : Query, q.key = r.key ↔ q = r) ∧
    (∀ a b : Invocation, a.HasDistinctNames → b.HasDistinctNames →
      ((∀ hash : String → String, a.fingerprintWith hash = b.fingerprintWith hash) ↔ a.SameCall b)) := by
  refine ⟨fun v w => Json.canonicalText_eq_iff, fun q r => Query.key_injective.eq_iff, fun a b distinct also => ?_⟩
  rw [← Invocation.canonicalText_eq_iff distinct also]
  constructor
  · intro digests
    exact digests id
  · intro text hash
    exact congrArg hash text

namespace Json

def descending : Json :=
  .object [("b", .object [("z", .int 1), ("a\"", .array [.int 2, .string "],\n"])]), ("a", .null)]

def ascending : Json :=
  .object [("a", .null), ("b", .object [("a\"", .array [.int 2, .string "],\n"]), ("z", .int 1)])]

end Json

namespace Invocation

def windowFirst : Invocation :=
  ⟨"rolling_range", [.input 0 "Examples"], OrderedMap.ofList [("window", Json.descending), ("num_spans", .int 2)]⟩

def windowLast : Invocation :=
  ⟨"rolling_range", [.input 0 "Examples"], OrderedMap.ofList [("num_spans", .int 2), ("window", Json.ascending)]⟩

end Invocation

open Json Invocation in
theorem canonicalText_normalForm_reordered :
    (descending.hasDistinctNames = true ∧ ascending.hasDistinctNames = true ∧ SameValue descending ascending) ∧
    (windowFirst.HasDistinctNames ∧ windowLast.HasDistinctNames ∧ windowFirst.SameCall windowLast) := by
  obtain ⟨values, -, calls⟩ := canonicalText_normalForm
  have distinct : windowFirst.HasDistinctNames := by unfold HasDistinctNames; decide
  have also : windowLast.HasDistinctNames := by unfold HasDistinctNames; decide
  have text : descending.canonicalText = ascending.canonicalText := by decide +kernel
  have digests : windowFirst.toJson.canonicalText = windowLast.toJson.canonicalText := by decide +kernel
  refine ⟨⟨by decide, by decide, (values _ _ (by decide) (by decide)).mp text⟩, distinct, also, ?_⟩
  exact (calls _ _ distinct also).mp fun hash => congrArg hash digests

end InputResolution
