import InputResolution.Proofs.Evaluation.Guarded
import InputResolution.Proofs.Evaluation.Shapes

/-!
Keys that no dict has. The dicts of an evaluation are joint inputs of an evaluator, so their keys are known before any
read. A parameter that was accepted can still fail an evaluation in one way: a node selects another key. Such a node
cannot be passed, so whatever the source answers, a context that needs it is skipped or fails for it.
-/

namespace InputResolution

def Lineage.EvaluatorInputs.keys : List String :=
  ["examples", "model"]

theorem Lineage.EvaluatorInputs.keys_toDict (inputs : EvaluatorInputs) : inputs.toDict.keys = keys :=
  rfl

/-! ## One operation -/

namespace Node

/-- A dict has the keys of joint inputs, and an error is that of a key which the dict does not have. -/
def Projects (node : Node) (values : List NodeValue) : Evaluated NodeValue → Prop
  | .ok (.dict entries) => entries.keys = Lineage.EvaluatorInputs.keys
  | .error (.error cause) => ∃ key entries, node.op = .select key ∧ values = [.dict entries] ∧
      entries.get? key = none ∧ cause = .unknownKey node.id key
  | _ => True

theorem projects_listOf (node : Node) (values : List NodeValue) (reading : Reading (List Artifact)) :
    (listOf reading).Ensures (node.Projects values) :=
  Reading.Ensures.bind ((Reading.ensures_true reading).mono fun _ _ => trivial)

theorem projects_value (seeding : Seeding) (node : Node) {values : List NodeValue}
    (count : values.length = node.op.arity) (accepted : ∀ value ∈ values, node.op.accepts value.shape = true) :
    (node.value seeding values).Ensures (node.Projects values) := by
  obtain ⟨id, op, inputs, shape⟩ := node
  dsimp only at count accepted ⊢
  cases op with
  | input query => exact projects_listOf _ _ _
  | latestPipelineRunOutputs pipeline outputKey => exact projects_listOf _ _ _
  | evaluatorInputs params =>
      obtain ⟨first, second, rfl⟩ := List.length_eq_two.mp count
      obtain ⟨examples, rfl⟩ := NodeValue.exists_list (by simpa [Operator.accepts] using accepted first (by simp))
      obtain ⟨models, rfl⟩ := NodeValue.exists_list (by simpa [Operator.accepts] using accepted second (by simp))
      refine Reading.Ensures.bind ((Reading.ensures_true _).mono fun joint _ => ?_)
      exact joint.keys_toDict
  | select key =>
      obtain ⟨value, rfl⟩ := exists_single count
      obtain ⟨entries, rfl⟩ := NodeValue.exists_dict (by simpa [Operator.accepts] using accepted value (by simp))
      change Projects _ _ (selectKey _ key (.dict entries))
      cases found : entries.get? key with
      | some artifacts =>
          simp only [selectKey, found]
          trivial
      | none =>
          simp only [selectKey, found]
          exact ⟨key, entries, rfl, rfl, found, rfl⟩
  | skipIfEmpty =>
      obtain ⟨value, rfl⟩ := exists_single count
      change Projects _ _ (guardNotEmpty _ value)
      unfold guardNotEmpty
      split
      · trivial
      · have noDict := accepted value List.mem_cons_self
        cases value with
        | dict entries => cases noDict
        | _ => trivial
  | skipIfInsufficientSpans minSpans requiredSpan =>
      obtain ⟨artifacts, rfl⟩ := exists_onlyList count (by simpa [Operator.accepts] using accepted)
      change Projects _ _ (guardSpans _ minSpans requiredSpan artifacts)
      unfold guardSpans
      split <;> trivial
  | trainingRange examplesType =>
      obtain ⟨artifacts, rfl⟩ := exists_onlyList count (by simpa [Operator.accepts] using accepted)
      exact projects_listOf _ _ _
  | latestTrained =>
      obtain ⟨artifacts, rfl⟩ := exists_onlyList count (by simpa [Operator.accepts] using accepted)
      exact projects_listOf _ _ _
  | _ =>
      obtain ⟨artifacts, rfl⟩ := exists_onlyList count (by simpa [Operator.accepts] using accepted)
      trivial

end Node

/-! ## An evaluation -/

namespace Graph

variable {g : Graph} {seeding : Seeding} {known : List (Nat × NodeValue)} {id : Nat} {key : String}

def SelectsUnknown (g : Graph) (id : Nat) (key : String) : Prop :=
  (∃ node, g.node? id = some node ∧ node.op = .select key) ∧ key ∉ Lineage.EvaluatorInputs.keys

theorem Makes.projects {outcome : Evaluated NodeValue} (makes : g.Makes seeding known id outcome) (valid : g.Valid)
    (shaped : g.Shaped known) : ∃ node values, g.node? id = some node ∧
      List.Forall₂ (fun input value => known.lookup input = some value) node.inputs values ∧
      node.Projects values outcome := by
  obtain ⟨node, values, found, inputs, gives⟩ := makes
  obtain ⟨count, accepted, _⟩ := valid.accepts_values shaped found inputs
  exact ⟨node, values, found, inputs, (node.projects_value seeding count accepted).of_gives gives⟩

/-- Every dict of an evaluation has the keys of joint inputs. -/
theorem Grounded.dict_keys (grounded : g.Grounded seeding known) (valid : g.Valid) (shaped : g.Shaped known)
    {entries : OrderedMap (List Artifact)} (held : known.lookup id = some (.dict entries)) :
    entries.keys = Lineage.EvaluatorInputs.keys := by
  obtain ⟨node, values, _, _, projects⟩ := (grounded.made id _ held).projects valid shaped
  exact projects

/-- An evaluation ends with an error at a node that selects an unknown key, and nowhere else. -/
theorem Makes.selectsUnknown {cause : ResolveError} (makes : g.Makes seeding known id (.error (.error cause)))
    (valid : g.Valid) (shaped : g.Shaped known) (grounded : g.Grounded seeding known) :
    ∃ key, g.SelectsUnknown id key ∧ cause = .unknownKey id key := by
  obtain ⟨node, values, found, inputs, projects⟩ := makes.projects valid shaped
  obtain ⟨key, entries, selects, rfl, absent, rfl⟩ := projects
  obtain ⟨input, _, held⟩ := Steps.exists_of_mem inputs.flip List.mem_cons_self
  rw [OrderedMap.get?_eq_none, grounded.dict_keys valid shaped held] at absent
  exact ⟨key, ⟨⟨node, found, selects⟩, absent⟩, by rw [(valid id node found).1]⟩

theorem SelectsUnknown.stops (unknown : g.SelectsUnknown id key) (valid : g.Valid) (shaped : g.Shaped known)
    (grounded : g.Grounded seeding known) (value : NodeValue) : ¬g.Makes seeding known id (.ok value) := by
  rintro ⟨node, values, found, inputs, gives⟩
  obtain ⟨⟨other, same, selects⟩, absent⟩ := unknown
  cases Option.some.inj (found.symm.trans same)
  obtain ⟨count, accepted, _⟩ := valid.accepts_values shaped found inputs
  rw [selects] at count accepted
  obtain ⟨held, rfl⟩ := Node.exists_single count
  obtain ⟨entries, rfl⟩ := NodeValue.exists_dict (by simpa [Operator.accepts] using accepted held (by simp))
  obtain ⟨input, _, known⟩ := Steps.exists_of_mem inputs.flip List.mem_cons_self
  rw [← grounded.dict_keys valid shaped known, ← OrderedMap.get?_eq_none] at absent
  obtain ⟨id, op, inputs, shape⟩ := node
  cases selects
  have made := gives.eq_of_done
  simp [Node.input, Node.selectKey, absent, Except.bind] at made

end Graph

/-! ## A resolution -/

namespace ResolutionContext

variable {context : ResolutionContext} {σ : Type}

/-- The trace of the resolution against this source: that of its reads through a fresh cache. -/
def Traces (context : ResolutionContext) (source : Source σ) (seeding : Seeding) (state : σ) (trace : Trace) : Prop :=
  ∃ order cache after, context.graph.ancestors context.roots = .ok order ∧
    (context.graph.trace seeding [] order).run (Cache.through source) (Cache.empty, state) =
      (.ok trace, (cache, after))

variable {source : Source σ} {seeding : Seeding} {state : σ}

theorem Valid.exists_traces (valid : context.Valid) (answers : Reading.Answers source) (seeding : Seeding) (state : σ) :
    ∃ trace, context.Traces source seeding state trace := by
  obtain ⟨order, found, _⟩ := valid.scheduled
  obtain ⟨trace, ⟨cache, after⟩, ran⟩ := Reading.run_of_answers _ (Cache.answers_through answers)
    (context.graph.trace seeding [] order) (Cache.empty, state)
  exact ⟨trace, order, cache, after, found, ran⟩

theorem Valid.of_traces (valid : context.Valid) {trace : Trace} (traces : context.Traces source seeding state trace) :
    (context.resolve source seeding state).1 = context.finish trace.result ∧
      trace.Sound context.graph ∧ context.graph.Grounded seeding trace.values ∧
      (trace.halt = none → ∀ id, context.Needs id → id ∈ trace.values.map Prod.fst) ∧
      ∀ halt, trace.halt = some halt →
        ∃ id, context.Needs id ∧ context.graph.Makes seeding trace.values id (.error halt) := by
  obtain ⟨order, cache, after, found, ran⟩ := traces
  have scheduled : context.graph.Scheduled [] order := by
    obtain ⟨other, same, scheduled⟩ := valid.scheduled
    cases found.symm.trans same
    exact scheduled
  obtain ⟨sound, _⟩ := (valid.graph.sound_trace seeding context.graph.shaped_nil context.graph.ordered_nil
    scheduled).of_run ran
  obtain ⟨grounded, covers⟩ := valid.grounded_of_run found ran
  have resolved := resolve_eq_finish (trace_eq_ok valid found seeding) ran
  have needed := (Graph.ancestors_spec found).2
  unfold Trace.Covers at covers
  refine ⟨by rw [resolved], sound, grounded, ?_, ?_⟩
  · intro ended id need
    rw [ended] at covers
    rw [show trace.values.map Prod.fst = order.reverse from covers, List.mem_reverse, needed]
    exact need
  · intro halt ended
    rw [ended] at covers
    obtain ⟨before, id, later, split, _, makes⟩ := covers
    exact ⟨id, (needed id).mp (by simp [split]), makes⟩

/-- Against a source that never fails, a valid context has such a trace. -/
theorem Valid.exists_trace (valid : context.Valid) {source : Source σ} (answers : Reading.Answers source)
    (seeding : Seeding) (state : σ) :
    ∃ trace : Trace, (context.resolve source seeding state).1 = context.finish trace.result ∧
      trace.Sound context.graph ∧ context.graph.Grounded seeding trace.values ∧
      (trace.halt = none → ∀ id, context.Needs id → id ∈ trace.values.map Prod.fst) ∧
      ∀ halt, trace.halt = some halt →
        ∃ id, context.Needs id ∧ context.graph.Makes seeding trace.values id (.error halt) := by
  obtain ⟨trace, traces⟩ := valid.exists_traces answers seeding state
  exact ⟨trace, valid.of_traces traces⟩

/-- Literals are checked before any evaluation, save for one kind: the only invalid argument that a valid context can
fail for against a source that never fails is a key that some needed node selects and that no dict has. If there is such
a node, the context is skipped or fails for one. -/
theorem resolve_invalidArgument (valid : context.validate = .ok ()) {source : Source σ}
    (answers : Reading.Answers source) (seeding : Seeding) (state : σ) :
    (∀ cause, (context.resolve source seeding state).1 = .error cause → cause.kind = .invalidArgument →
      ∃ id key, context.Needs id ∧ context.graph.SelectsUnknown id key ∧ cause = .unknownKey id key) ∧
    ((∃ id key, context.Needs id ∧ context.graph.SelectsUnknown id key) →
      (∃ reason, (context.resolve source seeding state).1 = .ok (.skip reason)) ∨
      ∃ id key, context.Needs id ∧ context.graph.SelectsUnknown id key ∧
        (context.resolve source seeding state).1 = .error (.unknownKey id key)) := by
  have accepted := validate_eq_ok.mp valid
  obtain ⟨trace, resolved, sound, grounded, complete, ends⟩ := accepted.exists_trace answers seeding state
  have unknown_of_error : ∀ cause, trace.halt = some (.error cause) →
      ∃ id key, context.Needs id ∧ context.graph.SelectsUnknown id key ∧ cause = .unknownKey id key := by
    intro cause ended
    obtain ⟨id, need, makes⟩ := ends _ ended
    obtain ⟨key, unknown, same⟩ := makes.selectsUnknown accepted.graph sound.shaped grounded
    exact ⟨id, key, need, unknown, same⟩
  rw [resolved]
  unfold Trace.result
  cases ended : trace.halt with
  | none =>
      refine ⟨?_, ?_⟩
      · intro cause failed kind
        have other := assemble_eq_error (accepted.assembles sound (complete ended)).filled failed
        cases kind.symm.trans other
      · rintro ⟨id, key, need, unknown⟩
        obtain ⟨value, held⟩ := exists_lookup (complete ended id need)
        exact absurd (grounded.made id value held) (unknown.stops accepted.graph sound.shaped grounded value)
  | some halt =>
      cases halt with
      | skip reason => exact ⟨nofun, fun _ => Or.inl ⟨reason, rfl⟩⟩
      | error cause =>
          obtain ⟨id, key, need, unknown, rfl⟩ := unknown_of_error cause ended
          refine ⟨?_, fun _ => Or.inr ⟨id, key, need, unknown, rfl⟩⟩
          intro other failed _
          cases failed
          exact ⟨id, key, need, unknown, rfl⟩

def misspelt : ResolutionContext where
  graph := ⟨[⟨0, .input (Query.ofType "Examples"), [], .list⟩, ⟨1, .input (Query.ofType "Model"), [], .list⟩,
    ⟨2, .evaluatorInputs ⟨0, 0, 0, 0⟩, [0, 1], .dict⟩, ⟨3, .select "models", [2], .list⟩]⟩
  slots := OrderedMap.ofList [("model", SlotBinding.required 3)]

theorem resolve_invalidArgument_misspelt :
    misspelt.validate = .ok () ∧ Reading.Answers (Snapshot.threeSpans.source : Source Nat) ∧
      ((∃ reason, (misspelt.resolve Snapshot.threeSpans.source ⟨none, fun _ => 0⟩ 7).1 = .ok (.skip reason)) ∨
        ∃ id key, misspelt.Needs id ∧ misspelt.graph.SelectsUnknown id key ∧
          (misspelt.resolve Snapshot.threeSpans.source ⟨none, fun _ => 0⟩ 7).1 = .error (.unknownKey id key)) := by
  have valid : misspelt.validate = .ok () := by rfl
  have answers : Reading.Answers (Snapshot.threeSpans.source : Source Nat) := fun _ _ => ⟨_, _, rfl⟩
  have needed : misspelt.Needs 3 := Graph.Reaches.root List.mem_cons_self
  have unknown : misspelt.graph.SelectsUnknown 3 "models" := ⟨⟨_, rfl, rfl⟩, by decide⟩
  exact ⟨valid, answers, (resolve_invalidArgument valid answers _ 7).2 ⟨3, "models", needed, unknown⟩⟩

/-- A context that is accepted fails for a parameter, although there is nothing to read. -/
theorem misspelt_invalidArgument :
    misspelt.validate = .ok () ∧ Reading.Answers (Snapshot.empty.source : Source Nat) ∧
      ∃ cause, (misspelt.resolve (Snapshot.empty.source : Source Nat) ⟨none, fun _ => 0⟩ 7).1 = .error cause ∧
        cause.kind = .invalidArgument :=
  ⟨rfl, fun _ _ => ⟨_, _, rfl⟩, .unknownKey 3 "models", by with_unfolding_all rfl, rfl⟩

end ResolutionContext

end InputResolution
