import InputResolution.Proofs.Evaluation.Arranged
import InputResolution.Proofs.Lineage.Disorder

/-!
Operations on values in another order. Values from two evaluations go side by side if they hold artifacts of one
snapshot and differ at most in the order of a list. Every operation keeps them so, whatever admitted answers it reads and
however lists are shuffled, and operations that settle an order make the same value on both sides.
-/

namespace InputResolution

namespace Operator

/-- The result does not show in which order the lists of the inputs came. -/
def settlesOrder : Operator → Bool
  | latestPipelineRunOutputs _ _ => true
  | latestCreated _ => true
  | latestVersion _ => true
  | allSpans => true
  | staticRange _ => true
  | rollingRange _ => true
  | sequentialRange _ => true
  | trainingRange _ => true
  | latestTrained => true
  | evaluatorInputs _ => true
  | select _ => true
  | _ => false

/-- The result is the input itself, or a skip. -/
def isGuard : Operator → Bool
  | skipIfInsufficientSpans _ _ => true
  | skipIfEmpty => true
  | _ => false

end Operator

/-! ## Values side by side -/

def NodeValue.artifacts : NodeValue → List Artifact
  | list artifacts => artifacts
  | listOfLists lists => lists.flatten
  | dict entries => entries.values.flatten

def Snapshot.Holds (s : Snapshot) (value : NodeValue) : Prop :=
  ∀ a ∈ value.artifacts, a ∈ s.artifacts

/-- The values are held and differ at most in the order of a list. -/
inductive NodeValue.Rearranged (s : Snapshot) : NodeValue → NodeValue → Prop where
  | list {artifacts expected : List Artifact} (rearranges : s.Rearranges artifacts expected) :
      Rearranged s (.list artifacts) (.list expected)
  | same {value : NodeValue} (held : s.Holds value) : Rearranged s value value

theorem NodeValue.Rearranged.holds {s : Snapshot} {value expected : NodeValue}
    (rearranged : Rearranged s value expected) : s.Holds expected := by
  cases rearranged with
  | list rearranges => exact fun a member => rearranges.held a (rearranges.perm.mem_iff.mpr member)
  | same held => exact held

namespace Node

variable {s : Snapshot} {node : Node} {values expected : List NodeValue} {first second : Arrangement}

theorem input_agree (related : List.Forall₂ (NodeValue.Rearranged s) values expected) (index : Nat) :
    Steps.Agree (NodeValue.Rearranged s) (node.input values index) (node.input expected index) := by
  have found := Steps.rel_getElem? related index
  unfold input
  generalize values[index]? = here, expected[index]? = there at found
  cases found with
  | some rearranged => exact Steps.Agree.ok rearranged
  | none => exact Steps.Agree.error _

theorem listInput_agree (related : List.Forall₂ (NodeValue.Rearranged s) values expected) (index : Nat) :
    Steps.Agree s.Rearranges (node.listInput values index) (node.listInput expected index) := by
  refine (input_agree related index).bind fun value other rearranged => ?_
  cases rearranged with
  | list rearranges => exact Steps.Agree.ok rearranges
  | same held =>
      cases value with
      | list artifacts => exact Steps.Agree.ok ⟨List.Perm.refl artifacts, held⟩
      | listOfLists lists => exact Steps.Agree.error _
      | dict entries => exact Steps.Agree.error _

theorem mem_of_input {index : Nat} {value : NodeValue} (found : node.input values index = .ok value) :
    value ∈ values := by
  unfold input at found
  split at found
  · next known =>
    cases found
    exact List.mem_of_getElem? known
  · cases found

theorem mem_of_listInput {index : Nat} {artifacts : List Artifact}
    (found : node.listInput values index = .ok artifacts) : .list artifacts ∈ values := by
  obtain ⟨value, known, rest⟩ := Steps.bind_eq_ok.mp found
  split at rest
  · cases rest
    exact mem_of_input known
  · cases rest

/-! ## Operations that settle an order -/

theorem settles_fromList {f : List Artifact → NodeValue}
    (steady : ∀ artifacts others, s.Rearranges artifacts others → f artifacts = f others)
    (related : List.Forall₂ (NodeValue.Rearranged s) values expected) :
    s.Settles (node.fromList values f) (node.fromList expected f) :=
  Steps.agree_eq_iff.mp ((listInput_agree related 0).map steady)

theorem settles_proceed {α β : Type} {alike : α → β → Prop} {value : Evaluated α} {other : Evaluated β}
    (agree : Steps.Agree alike value other) {next : α → Reading (Evaluated NodeValue)}
    {after : β → Reading (Evaluated NodeValue)} (rest : ∀ a b, alike a b → s.Settles (next a) (after b)) :
    s.Settles (proceed value next) (proceed other after) := by
  cases agree with
  | ok results => exact rest _ _ results
  | error halt => exact Snapshot.settles_pure _

theorem settles_listOf {reading other : Reading (List Artifact)} (settled : s.Settles reading other) :
    s.Settles (listOf reading) (listOf other) :=
  settled.bind fun _ => Snapshot.settles_pure _

theorem settles_select {key : String} (related : List.Forall₂ (NodeValue.Rearranged s) values expected) :
    (node.input values 0).bind (node.selectKey key) = (node.input expected 0).bind (node.selectKey key) := by
  refine Steps.agree_eq_iff.mp ((input_agree related 0).bind fun value other rearranged => ?_)
  cases rearranged with
  | list _ => exact Steps.Agree.error _
  | same _ => exact Steps.agree_eq_iff.mpr rfl

theorem settles_arranged (distinct : s.Distinct) (settles : node.op.settlesOrder = true)
    (related : List.Forall₂ (NodeValue.Rearranged s) values expected) :
    s.Settles (node.arranged first values) (node.arranged second expected) := by
  obtain ⟨id, op, inputs, shape⟩ := node
  cases op with
  | latestPipelineRunOutputs pipeline outputKey =>
      exact settles_listOf (Lineage.settles_latestPipelineRunOutputs distinct pipeline outputKey)
  | latestCreated n =>
      refine settles_fromList (fun _ _ r => ?_) related
      rw [Window.latestCreated_eq_of_perm (r.apart distinct) r.perm]
  | latestVersion n =>
      refine settles_fromList (fun _ _ r => ?_) related
      rw [Window.latestVersion_eq_of_perm (r.apart distinct) r.perm]
  | allSpans =>
      refine settles_fromList (fun _ _ r => ?_) related
      rw [Window.allSpans, Window.allSpans, Window.latestVersions_eq_of_perm (r.apart distinct) r.perm]
  | staticRange range =>
      refine settles_fromList (fun _ _ r => ?_) related
      rw [Window.staticRange_eq_of_perm (r.apart distinct) r.perm]
  | rollingRange range =>
      refine settles_fromList (fun _ _ r => ?_) related
      rw [Window.rollingRange_eq_of_perm (r.apart distinct) r.perm]
  | sequentialRange range =>
      refine settles_fromList (fun _ _ r => ?_) related
      rw [Window.sequentialRange_eq_of_perm (r.apart distinct) r.perm]
  | trainingRange examplesType =>
      exact settles_proceed (listInput_agree related 0) fun _ _ r =>
        settles_listOf (Lineage.settles_trainingRange distinct r examplesType)
  | latestTrained =>
      exact settles_proceed (listInput_agree related 0) fun _ _ r =>
        settles_listOf (Lineage.settles_latestTrained distinct r)
  | evaluatorInputs params =>
      refine settles_proceed (listInput_agree related 0) fun _ _ examples => ?_
      refine settles_proceed (listInput_agree related 1) fun _ _ models => ?_
      exact (Lineage.settles_evaluatorInputs distinct examples models params).bind fun _ => Snapshot.settles_pure _
  | select key => exact settles_select related
  | _ => cases settles

/-! ## Artifacts of values -/

theorem holds_fromList {f : List Artifact → NodeValue} {value : NodeValue}
    (made : (node.fromList values f).value s.answer = .ok value) (held : ∀ value ∈ values, s.Holds value)
    (kept : ∀ artifacts, ∀ a ∈ (f artifacts).artifacts, a ∈ artifacts) : s.Holds value := by
  change (node.listInput values 0).map f = .ok value at made
  cases found : node.listInput values 0 with
  | error halt =>
      rw [found] at made
      cases made
  | ok artifacts =>
      rw [found] at made
      cases made
      exact fun a member => held _ (mem_of_listInput found) a (kept artifacts a member)

theorem eq_ok_of_proceed {α : Type} {value : Evaluated α} {next : α → Reading (Evaluated NodeValue)}
    {result : NodeValue} (made : (proceed value next).value s.answer = .ok result) :
    ∃ a, value = .ok a ∧ (next a).value s.answer = .ok result := by
  cases value with
  | error halt => cases made
  | ok a => exact ⟨a, rfl, made⟩

theorem holds_listOf {reading : Reading (List Artifact)} {value : NodeValue}
    (made : (listOf reading).value s.answer = .ok value) (held : ∀ a ∈ reading.value s.answer, a ∈ s.artifacts) :
    s.Holds value := by
  rw [listOf, Reading.value_bind] at made
  cases made
  exact held

theorem artifacts_joint (joint : Lineage.EvaluatorInputs) :
    (NodeValue.dict joint.toDict).artifacts = joint.examples ++ joint.model := by
  rw [NodeValue.artifacts, OrderedMap.values, Lineage.EvaluatorInputs.toDict, OrderedMap.entries_ofList (by simp)]
  simp

theorem mem_of_selectKey {key : String} {value result : NodeValue} (selected : node.selectKey key value = .ok result)
    {a : Artifact} (member : a ∈ result.artifacts) : a ∈ value.artifacts := by
  cases value with
  | dict entries =>
      unfold selectKey at selected
      dsimp only at selected
      split at selected
      · next artifacts found =>
        cases selected
        have among := mem_of_lookup found
        exact List.mem_flatten.mpr ⟨artifacts, List.mem_map.mpr ⟨_, among, rfl⟩, member⟩
      · cases selected
  | list artifacts => cases selected
  | listOfLists lists => cases selected

theorem eq_of_guardSpans {minSpans : Nat} {requiredSpan : Option Int} {artifacts : List Artifact} {value : NodeValue}
    (passed : node.guardSpans minSpans requiredSpan artifacts = .ok value) : value = .list artifacts := by
  unfold guardSpans at passed
  split at passed
  · cases passed
  · exact (Except.ok.inj passed).symm

theorem eq_of_guardNotEmpty {given value : NodeValue} (passed : node.guardNotEmpty given = .ok value) :
    value = given := by
  unfold guardNotEmpty at passed
  split at passed
  · cases passed
  · exact (Except.ok.inj passed).symm

/-- Operations on held artifacts make values with held artifacts. -/
theorem holds_arranged (held : ∀ value ∈ values, s.Holds value) {value : NodeValue}
    (made : (node.arranged first values).value s.answer = .ok value) : s.Holds value := by
  obtain ⟨id, op, inputs, shape⟩ := node
  cases op with
  | input query => exact holds_listOf made fun _ member => (List.mem_filter.mp member).1
  | latestPipelineRunOutputs pipeline outputKey =>
      exact holds_listOf made fun _ member => Lineage.mem_of_latestPipelineRunOutputs member
  | latestCreated n => exact holds_fromList made held fun _ _ member => Window.mem_of_latestCreated member
  | latestVersion n => exact holds_fromList made held fun _ _ member => Window.mem_of_latestVersion member
  | allSpans => exact holds_fromList made held fun _ _ member => Window.mem_of_latestVersions member
  | staticRange range => exact holds_fromList made held fun _ _ member => (Window.mem_of_within member).1
  | rollingRange range => exact holds_fromList made held fun _ _ member => Window.mem_of_rollingRange member
  | sequentialRange range =>
      refine holds_fromList made held fun _ a member => ?_
      obtain ⟨window, among, inside⟩ := List.mem_flatten.mp member
      exact Window.mem_of_sequentialRange among inside
  | shuffle seed => exact holds_fromList made held fun _ _ member => (first.perm _ _).mem_iff.mp member
  | trainingRange examplesType =>
      obtain ⟨models, _, found⟩ := eq_ok_of_proceed made
      exact holds_listOf found fun _ member => Lineage.mem_of_trainingRange member
  | latestTrained =>
      obtain ⟨artifacts, given, found⟩ := eq_ok_of_proceed made
      exact holds_listOf found fun a member => held _ (mem_of_listInput given) a (Lineage.mem_of_latestTrained member)
  | evaluatorInputs params =>
      obtain ⟨examples, shown, made⟩ := eq_ok_of_proceed made
      obtain ⟨models, known, made⟩ := eq_ok_of_proceed made
      rw [Reading.value_bind] at made
      cases made
      obtain ⟨window, chosen⟩ := Lineage.mem_of_evaluatorInputs
        (rfl : (Lineage.evaluatorInputs examples models params).value s.answer = _)
      intro a member
      rw [artifacts_joint, List.mem_append] at member
      rcases member with here | there
      · exact held _ (mem_of_listInput shown) a (window a here)
      · exact held _ (mem_of_listInput known) a (chosen a there)
  | select key =>
      obtain ⟨joint, given, selected⟩ := Steps.bind_eq_ok.mp made
      exact fun a member => held _ (mem_of_input given) a (mem_of_selectKey selected member)
  | skipIfInsufficientSpans minSpans requiredSpan =>
      obtain ⟨artifacts, given, passed⟩ := Steps.bind_eq_ok.mp made
      rw [eq_of_guardSpans passed]
      exact held _ (mem_of_listInput given)
  | skipIfEmpty =>
      obtain ⟨given, known, passed⟩ := Steps.bind_eq_ok.mp made
      rw [eq_of_guardNotEmpty passed]
      exact held _ (mem_of_input known)

/-! ## Every operation -/

theorem agree_self {outcome : Evaluated NodeValue} (held : ∀ value, outcome = .ok value → s.Holds value) :
    Steps.Agree (NodeValue.Rearranged s) outcome outcome := by
  cases outcome with
  | error halt => exact Steps.Agree.error halt
  | ok value => exact Steps.Agree.ok (NodeValue.Rearranged.same (held value rfl))

theorem holds_of_related (related : List.Forall₂ (NodeValue.Rearranged s) values expected) :
    ∀ value ∈ expected, s.Holds value := by
  intro value member
  obtain ⟨other, _, rearranged⟩ := Steps.exists_of_mem related.flip member
  exact NodeValue.Rearranged.holds rearranged

theorem agree_guardSpans {artifacts others : List Artifact} (rearranges : s.Rearranges artifacts others)
    (minSpans : Nat) (requiredSpan : Option Int) :
    Steps.Agree (NodeValue.Rearranged s) (node.guardSpans minSpans requiredSpan artifacts)
      (node.guardSpans minSpans requiredSpan others) := by
  unfold guardSpans
  rw [Window.insufficientSpans?_eq_of_perm rearranges.perm]
  split
  · exact Steps.Agree.error _
  · exact Steps.Agree.ok (NodeValue.Rearranged.list rearranges)

theorem agree_guardNotEmpty {value other : NodeValue} (rearranged : NodeValue.Rearranged s value other) :
    Steps.Agree (NodeValue.Rearranged s) (node.guardNotEmpty value) (node.guardNotEmpty other) := by
  have empty : value.isEmpty = other.isEmpty := by
    cases rearranged with
    | list rearranges => exact rearranges.perm.isEmpty_eq
    | same _ => rfl
  unfold guardNotEmpty
  rw [empty]
  split
  · exact Steps.Agree.error _
  · exact Steps.Agree.ok rearranged

/-- Values that go side by side stay so under every operation. -/
theorem arranged_agree (distinct : s.Distinct) (related : List.Forall₂ (NodeValue.Rearranged s) values expected) :
    (node.arranged first values).EnsuresUnder s.Admits fun outcome =>
      Steps.Agree (NodeValue.Rearranged s) outcome ((node.arranged second expected).value s.answer) := by
  cases settles : node.op.settlesOrder with
  | true =>
      have settled : s.Settles (node.arranged first values) (node.arranged second expected) :=
        settles_arranged distinct settles related
      refine Reading.EnsuresUnder.mono settled ?_
      rintro outcome rfl
      exact agree_self fun value made => holds_arranged (holds_of_related related) made
  | false =>
      obtain ⟨id, op, inputs, shape⟩ := node
      cases op with
      | input query =>
          intro found admitted
          refine Steps.Agree.ok (NodeValue.Rearranged.list ⟨admitted, fun a member => ?_⟩)
          exact (List.mem_filter.mp ((List.Perm.mem_iff admitted).mp member)).1
      | shuffle seed =>
          refine (listInput_agree related 0).map fun artifacts others rearranges => NodeValue.Rearranged.list ⟨?_, ?_⟩
          · exact (first.perm _ _).trans (rearranges.perm.trans (second.perm _ _).symm)
          · exact fun a member => rearranges.held a ((first.perm _ _).mem_iff.mp member)
      | skipIfInsufficientSpans minSpans requiredSpan =>
          exact (listInput_agree related 0).bind fun _ _ rearranges => agree_guardSpans rearranges minSpans requiredSpan
      | skipIfEmpty => exact (input_agree related 0).bind fun _ _ rearranged => agree_guardNotEmpty rearranged
      | _ => cases settles

theorem settles_guard (guards : node.op.isGuard = true) (values : List NodeValue) :
    s.Settles (node.arranged first values) (node.arranged second values) := by
  obtain ⟨id, op, inputs, shape⟩ := node
  cases op with
  | skipIfInsufficientSpans minSpans requiredSpan => exact Snapshot.settles_pure _
  | skipIfEmpty => exact Snapshot.settles_pure _
  | _ => cases guards

end Node

end InputResolution
