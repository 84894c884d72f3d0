import InputResolution.Proofs.Builder.Calls
import InputResolution.Proofs.Evaluation.Meaning
import InputResolution.Proofs.Lineage.EvaluatorInputs

/-!
The inputs of an evaluation from the builder to the selections. A joint node finds the examples and the model together,
and each is taken out of it by a node of its own; so in any selection the examples lie ahead of all that the model was
trained on.
-/

namespace InputResolution

/-! ## The joint and its parts -/

namespace Graph

variable {s : Snapshot} {seeding : Seeding} {g : Graph}

def Selects (g : Graph) (joint : Nat) (key : String) (id : Nat) : Prop :=
  g.node? id = some ⟨id, .select key, [joint], .list⟩

theorem Selects.meaning_eq {joint id : Nat} {key : String} (selects : g.Selects joint key id) {value : NodeValue}
    (meant : g.meaning s seeding id = .ok value) :
    ∃ entries artifacts, g.meaning s seeding joint = .ok (.dict entries) ∧ entries.get? key = some artifacts ∧
      value = .list artifacts := by
  obtain ⟨values, inputs, made⟩ := inputsMean_of_meaning meant selects
  cases inputs with
  | @cons _ whole _ _ head tail =>
      cases tail
      change Node.selectKey _ key whole = .ok value at made
      cases whole with
      | dict entries =>
          simp only [Node.selectKey] at made
          split at made
          · next artifacts found =>
            cases made
            exact ⟨entries, artifacts, head, found, rfl⟩
          · cases made
      | list artifacts => cases made
      | listOfLists lists => cases made

/-- A joint means what is evaluated and the model, both found from the same lists. -/
theorem meaning_joint {id examples models : Nat} {params : SpanDriven} {shape : Shape}
    (found : g.node? id = some ⟨id, .evaluatorInputs params, [examples, models], shape⟩) {value : NodeValue}
    (meant : g.meaning s seeding id = .ok value) :
    ∃ among candidates, g.meaning s seeding examples = .ok (.list among) ∧
      value = .dict ((Lineage.evaluatorInputs among candidates params).value s.answer).toDict := by
  obtain ⟨values, inputs, made⟩ := inputsMean_of_meaning meant found
  cases inputs with
  | @cons _ first _ _ head tail =>
      cases tail with
      | @cons _ second _ _ next rest =>
          cases rest
          cases first with
          | list among =>
              cases second with
              | list candidates =>
                  change (Lineage.evaluatorInputs among candidates params >>= _).value s.answer = _ at made
                  rw [Reading.value_bind] at made
                  exact ⟨among, candidates, head, (Except.ok.inj made).symm⟩
              | dict entries => cases made
              | listOfLists lists => cases made
          | dict entries => cases made
          | listOfLists lists => cases made

end Graph

namespace Builder

variable {b issued after bound : Builder}

structure Selects (b : Builder) (joint : Nat) (key : String) (channel : Channel) : Prop where
  node : b.graph.Selects joint key channel.node
  wanting : channel.allowsEmpty = false

theorem Selects.extends {joint : Nat} {key : String} {channel : Channel} (selects : b.Selects joint key channel)
    (grown : b.Extends after) : after.Selects joint key channel :=
  ⟨grown.node?_eq selects.node, selects.wanting⟩

theorem addSelections_cons_eq_ok {joint : Nat} {made : Invocation} {known channels : OrderedMap Channel} {key : String}
    {rest : List String} (done : does (addSelections joint made known (key :: rest)) b = (.ok channels, after)) :
    ∃ channel between, between.Selects joint key channel ∧
      does (addSelections joint made (known.insert key channel) rest) between = (.ok channels, after) := by
  obtain ⟨node, between, added, others⟩ := does_bind_eq_ok.mp done
  obtain ⟨rfl, shape, fits, rfl⟩ := addNode_eq_ok.mp added
  obtain ⟨channel, last, issuedNow, later⟩ := does_bind_eq_ok.mp others
  obtain ⟨rfl, found, here, rfl⟩ := issue_eq_ok.mp issuedNow
  obtain ⟨_, _, rfl⟩ := fits.sources
  refine ⟨_, b.withNode (.select key) [joint] .list, ⟨?_, rfl⟩, later⟩
  exact node?_withNode b (.select key) [joint] .list

theorem addSelections_eq_ok {joint : Nat} {made : Invocation} {known channels : OrderedMap Channel}
    {keys : List String} (offered : ∀ key ∈ keys, (Operator.select key).Offered)
    (distinct : (known.entries.map Prod.fst ++ keys).Nodup)
    (done : does (addSelections joint made known keys) b = (.ok channels, after)) :
    (∀ entry ∈ known.entries, entry ∈ channels.entries) ∧
      ∀ key ∈ keys, ∃ channel, (key, channel) ∈ channels.entries ∧ after.Selects joint key channel := by
  induction keys generalizing b known with
  | nil =>
      cases done
      exact ⟨fun _ member => member, fun _ member => nomatch member⟩
  | cons key rest ih =>
      obtain ⟨channel, between, selects, later⟩ := addSelections_cons_eq_ok done
      obtain ⟨_, others⟩ := List.forall_mem_cons.mp offered
      have absent : known.contains key = false := by
        rw [Bool.eq_false_iff, ne_eq, OrderedMap.contains_iff]
        intro member
        exact (List.nodup_append.mp distinct).2.2 key member key List.mem_cons_self rfl
      have grown := OrderedMap.entries_insert absent channel
      have apart : ((known.insert key channel).entries.map Prod.fst ++ rest).Nodup := by
        rw [grown]
        simpa using distinct
      obtain ⟨kept, each⟩ := ih others apart later
      rw [grown] at kept
      refine ⟨fun entry member => kept entry (List.mem_append_left _ member), List.forall_mem_cons.mpr ⟨?_, each⟩⟩
      exact ⟨channel, kept _ (List.mem_append_right _ List.mem_cons_self),
        selects.extends ((addsNodes_addSelections _ _ _ others).adds.extends later)⟩

/-- The joint of the inputs of an evaluation, and a channel for each part. -/
theorem evaluatorInputs_eq_ok {examples models : Channel} {params : SpanDriven} {channels : OrderedMap Channel}
    (made : does (evaluatorInputs examples models params) b = (.ok channels, issued)) :
    issued.graph.node? b.graph.size =
        some ⟨b.graph.size, .evaluatorInputs params, [examples.node, models.node], .dict⟩ ∧
      ∀ key ∈ ["examples", "model"], ∃ channel, (key, channel) ∈ channels.entries ∧
        issued.Selects b.graph.size key channel := by
  obtain ⟨node, between, pushed, rest⟩ := does_bind_eq_ok.mp made
  obtain ⟨rfl, shape, fits, rfl⟩ := addNode_eq_ok.mp (push_eq_ok.mp pushed).2
  obtain ⟨_, _, rfl⟩ := fits.sources
  have offered : ∀ key ∈ ["examples", "model"], (Operator.select key).Offered := fun _ member => member
  have later := (addsNodes_addSelections _ _ _ offered).adds.extends rest
  refine ⟨later.node?_eq (node?_withNode b _ _ .dict), (addSelections_eq_ok offered ?_ rest).2⟩
  decide

/-! ## Slots -/

theorem bindEntries_eq_ok {entries : List (String × Channel)}
    (done : does (entries.forM fun entry => bind entry.1 entry.2) b = (.ok ⟨⟩, bound)) :
    ∀ slot channel, (slot, channel) ∈ entries → channel.allowsEmpty = false →
      (slot, binding channel 1) ∈ bound.slots.entries := by
  induction entries generalizing b with
  | nil => exact fun _ _ impossible => nomatch impossible
  | cons entry rest ih =>
      rw [List.forM_eq_forM] at ih done
      rw [List.forM_cons] at done
      obtain ⟨_, between, first, others⟩ := does_bind_eq_ok.mp done
      intro slot channel member wanting
      rcases List.mem_cons.mp member with rfl | later
      · obtain ⟨_, free, rfl⟩ := bindWithMinCount_eq_ok.mp first
        have grown := (adds_bindEntries rest).extends others
        apply grown.slots.mem
        rw [OrderedMap.entries_insert free, wanting]
        exact List.mem_append_right _ List.mem_cons_self
      · exact ih others slot channel later wanting

/-- Whatever else is called and bound, and unless the newest example makes a number overflow on the way to the cutoff: what
the model of a selection was trained on lies before every example of it, and the offset away. -/
theorem evaluatorInputs_no_leakage {examples models : Channel} {params : SpanDriven} {channels : OrderedMap Channel}
    (made : does (evaluatorInputs examples models params) b = (.ok channels, issued)) {front back : List Call}
    (done : does (bindAll channels) (issued.after front) = (.ok (), bound)) {context : ResolutionContext}
    (built : (bound.after back).build = .ok context) {s : Snapshot} (distinct : s.DistinctArtifacts) {σ : Type}
    {seeding : Seeding} {state : σ} {outcome : Outcome}
    (fits : ∀ among newest, context.graph.meaning s seeding examples.node = .ok (.list among) →
      params.newest? among = some newest → params.Fits newest)
    (resolved : (context.resolve s.source seeding state).1 = .ok outcome) {selection : Selection}
    (member : selection ∈ outcome.selections) :
    ∃ model shown, selection.artifacts.get? "model" = some [model] ∧ selection.artifacts.get? "examples" = some shown ∧
      shown ≠ [] ∧ ∀ x ∈ (Lineage.trainingRange [model] "Examples").value s.answer, ∀ e ∈ shown,
        ∃ trained evaluated, x.span? = some trained ∧ e.span? = some evaluated ∧
          trained + params.trainingOffset < evaluated := by
  obtain ⟨joint, parts⟩ := evaluatorInputs_eq_ok made
  obtain ⟨valid, kept, slots⟩ := build_after_eq_ok built
  have grown := (extends_after issued front).trans ((adds_bindAll channels).extends done)
  obtain ⟨index, each⟩ := (ResolutionContext.validate_eq_ok.mp valid).mem_selections distinct resolved member
  -- Both slots hold what their keys take out of one and the same dict.
  have holds : ∀ key ∈ ["examples", "model"], ∃ entries artifacts,
      context.graph.meaning s seeding b.graph.size = .ok (.dict entries) ∧ entries.get? key = some artifacts ∧
        selection.artifacts.get? key = some artifacts ∧ artifacts ≠ [] := by
    intro key among
    obtain ⟨channel, issuedUnder, selects⟩ := parts key among
    have entry := slots.mem (bindEntries_eq_ok done key channel issuedUnder selects.wanting)
    obtain ⟨filled, meant, found, enough⟩ := each key _ entry
    have node : context.graph.Selects b.graph.size key channel.node := kept _ _ (selects.extends grown).node
    obtain ⟨entries, artifacts, whole, part, list⟩ := node.meaning_eq meant
    have shown : filled.artifactsAt index = artifacts := by rw [FilledSlot.artifactsAt, list]
    rw [shown] at found enough
    exact ⟨entries, artifacts, whole, part, found, List.ne_nil_of_length_pos enough⟩
  obtain ⟨entries, shown, whole, examplesPart, examplesFound, nonempty⟩ := holds "examples" (by decide)
  obtain ⟨others, chosen, again, modelPart, modelFound, present⟩ := holds "model" (by decide)
  cases whole.symm.trans again
  obtain ⟨among, candidates, shownThere, same⟩ := Graph.meaning_joint (kept _ _ (grown.node?_eq joint)) whole
  cases same
  cases modelPart
  cases examplesPart
  have small := fun newest => fits among newest shownThere
  rcases Lineage.evaluatorInputs_ahead s.answer among candidates small rfl with none | ⟨model, _, single, ahead⟩
  · exact absurd none present
  · refine ⟨model, _, ?_, examplesFound, nonempty, ahead⟩
    rw [modelFound, single]

def trainedOnTwo : Snapshot :=
  let (model, s) := Snapshot.threeSpans.putArtifact "Model" []
  (s.putExecution "Trainer" [("examples", [1, 2])] [("model", [model.id])] []).2

def evaluation : Except ResolveError (OrderedMap Channel) × Builder :=
  does (evaluatorInputs (Channel.ofQuery 1 0 "Examples") (Channel.ofQuery 1 1 "Model") ⟨0, 1, 0, 0⟩)
    ((ofId 1).after [.artifactQuery "Examples", .artifactQuery "Model"])

def evaluationChannels : OrderedMap Channel :=
  evaluation.1.toOption.getD OrderedMap.empty

def evaluationContext : ResolutionContext :=
  let bound := (does (bindAll evaluationChannels) evaluation.2).2
  ⟨bound.graph, bound.slots⟩

theorem evaluatorInputs_no_leakage_trainedOnTwo :
    evaluation = (.ok evaluationChannels, evaluation.2) ∧ trainedOnTwo.DistinctArtifacts ∧
      (∀ among newest, evaluationContext.graph.meaning trainedOnTwo ⟨none, fun _ => 0⟩ 0 = .ok (.list among) →
        SpanDriven.newest? ⟨0, 1, 0, 0⟩ among = some newest → SpanDriven.Fits ⟨0, 1, 0, 0⟩ newest) ∧
      ∃ selection model shown,
        (evaluationContext.resolve trainedOnTwo.source ⟨none, fun _ => 0⟩ 7).1 = .ok (.trigger selection) ∧
        selection.artifacts.get? "model" = some [model] ∧ selection.artifacts.get? "examples" = some shown ∧
        shown ≠ [] ∧ (Lineage.trainingRange [model] "Examples").value trainedOnTwo.answer ≠ [] ∧
        ∀ x ∈ (Lineage.trainingRange [model] "Examples").value trainedOnTwo.answer, ∀ e ∈ shown,
          ∃ trained evaluated, x.span? = some trained ∧ e.span? = some evaluated ∧ trained + 1 < evaluated := by
  have made : evaluation = (.ok evaluationChannels, evaluation.2) := by rfl
  have done : does (bindAll evaluationChannels) (evaluation.2.after []) =
    (.ok (), (does (bindAll evaluationChannels) evaluation.2).2) := by rfl
  have built : ((does (bindAll evaluationChannels) evaluation.2).2.after []).build = .ok evaluationContext := by rfl
  have distinct : trainedOnTwo.DistinctArtifacts := by decide +kernel
  have valid := ResolutionContext.validate_eq_ok.mp (build_eq_ok built).2.2
  have order : evaluationContext.graph.ancestors evaluationContext.roots = .ok [0, 1, 2, 3, 4] := by decide +kernel
  have examples : evaluationContext.graph.meaning trainedOnTwo ⟨none, fun _ => 0⟩ 0 =
      .ok (.list (trainedOnTwo.answer (.artifacts (Query.ofType "Examples")))) := by
    rw [Graph.meaning]
    rfl
  have fits : ∀ among newest, evaluationContext.graph.meaning trainedOnTwo ⟨none, fun _ => 0⟩ 0 = .ok (.list among) →
      SpanDriven.newest? ⟨0, 1, 0, 0⟩ among = some newest → SpanDriven.Fits ⟨0, 1, 0, 0⟩ newest := by
    intro among newest meant latest
    cases examples.symm.trans meant
    have four : SpanDriven.newest? ⟨0, 1, 0, 0⟩ (trainedOnTwo.answer (.artifacts (Query.ofType "Examples"))) = some 4 := by
      decide +kernel
    cases four.symm.trans latest
    decide
  obtain ⟨selection, resolved, seen⟩ : ∃ selection,
      (evaluationContext.resolve trainedOnTwo.source ⟨none, fun _ => 0⟩ 7).1 = .ok (.trigger selection) ∧
        ∀ model, selection.artifacts.get? "model" = some [model] →
          (Lineage.trainingRange [model] "Examples").value trainedOnTwo.answer ≠ [] := by
    rw [ResolutionContext.resolve_eq_finish (ResolutionContext.trace_eq_ok valid order _) (by rfl)]
    refine ⟨_, by rfl, ?_⟩
    intro model chosen
    cases chosen
    decide +kernel
  obtain ⟨model, shown, chosen, among, nonempty, ahead⟩ :=
    evaluatorInputs_no_leakage made done built distinct fits resolved List.mem_cons_self
  exact ⟨made, distinct, fits, selection, model, shown, resolved, chosen, among, nonempty, seen model chosen, ahead⟩

end Builder

end InputResolution
