import InputResolution.Proofs.Evaluation.Shapes

/-!
What nodes mean. The meaning of a node is its operation applied to the meanings of its inputs, with every read answered
by the snapshot itself. A resolution of a valid context finds exactly these meanings: it ends with the first operation
in ascending order of ids that skips or fails on the meanings of its inputs, and if none does, it puts the meanings of
the bound nodes together. Neither the cache nor the sharing of nodes shows in the result.
-/

namespace InputResolution

def Halt.outcome : Halt → Except ResolveError Outcome
  | .skip reason => .ok (.skip reason)
  | .error cause => .error cause

namespace Graph

variable {s : Snapshot} {seeding : Seeding} {g : Graph}

/-- The value of a node by recursion on its inputs; an input that does not come before its node has none. -/
def meaning (s : Snapshot) (seeding : Seeding) (g : Graph) (id : Nat) : Evaluated NodeValue :=
  match g.node? id with
  | none => .error (.error (.unknownNode id))
  | some node => do
      let values ← node.inputs.mapM fun input =>
        if _before : input < id then meaning s seeding g input else .error (.error (.undefinedInput id input))
      (node.value seeding values).value s.answer
termination_by id

def InputsMean (s : Snapshot) (seeding : Seeding) (g : Graph) (node : Node) (values : List NodeValue) : Prop :=
  List.Forall₂ (fun input value => g.meaning s seeding input = .ok value) node.inputs values

/-- The operation of a node ends the evaluation when it is applied to the meanings of its inputs. -/
def Raises (s : Snapshot) (seeding : Seeding) (g : Graph) (id : Nat) (halt : Halt) : Prop :=
  ∃ node values, g.node? id = some node ∧ InputsMean s seeding g node values ∧
    (node.value seeding values).value s.answer = .error halt

theorem Valid.meaning_eq (valid : g.Valid) {id : Nat} {node : Node} (found : g.node? id = some node)
    {values : List NodeValue} (inputs : InputsMean s seeding g node values) :
    g.meaning s seeding id = (node.value seeding values).value s.answer := by
  have evaluated : (node.inputs.mapM fun input =>
      if _before : input < id then g.meaning s seeding input else .error (.error (.undefinedInput id input))) =
        .ok values := by
    rw [Steps.mapM_eq_ok]
    apply List.forall₂_iff_get.mpr
    refine ⟨inputs.length_eq, fun index bound bound' => ?_⟩
    rw [dif_pos (valid.input_lt found (List.get_mem _ _))]
    exact inputs.get bound bound'
  rw [meaning, found]
  simp only [evaluated]
  rfl

theorem inputsMean_of_meaning {id : Nat} {value : NodeValue} (meant : g.meaning s seeding id = .ok value) {node : Node}
    (found : g.node? id = some node) :
    ∃ values, InputsMean s seeding g node values ∧ (node.value seeding values).value s.answer = .ok value := by
  rw [meaning, found] at meant
  obtain ⟨values, inputs, made⟩ := Steps.bind_eq_ok.mp meant
  refine ⟨values, (Steps.mapM_eq_ok.mp inputs).imp ?_, made⟩
  intro input held known
  split at known
  · exact known
  · cases known

/-- A node on whose inputs the operation ends the evaluation has no meaning. -/
theorem Raises.meaning_ne (valid : g.Valid) {id : Nat} {halt : Halt} (raises : g.Raises s seeding id halt)
    (value : NodeValue) : g.meaning s seeding id ≠ .ok value := by
  obtain ⟨node, values, found, inputs, ended⟩ := raises
  rw [valid.meaning_eq found inputs, ended]
  exact fun impossible => nomatch impossible

/-! ## One step -/

def Means (s : Snapshot) (seeding : Seeding) (g : Graph) (known : List (Nat × NodeValue)) : Prop :=
  ∀ id value, known.lookup id = some value → g.meaning s seeding id = .ok value

theorem Means.cons {known : List (Nat × NodeValue)} (means : Means s seeding g known) {id : Nat} {value : NodeValue}
    (meant : g.meaning s seeding id = .ok value) : Means s seeding g ((id, value) :: known) := by
  intro other held found
  rcases lookup_cons_cases found with ⟨rfl, rfl⟩ | before
  · exact meant
  · exact means other held before

theorem Means.value_step {known : List (Nat × NodeValue)} (means : Means s seeding g known) {id : Nat} {node : Node}
    (found : g.node? id = some node) (done : ∀ input ∈ node.inputs, input ∈ known.map Prod.fst) :
    ∃ values, InputsMean s seeding g node values ∧
      (g.step seeding known id).value s.answer = (node.value seeding values).value s.answer := by
  obtain ⟨values, ready⟩ := Node.exists_inputValues done
  have held := Node.inputValues_eq_ok.mp ready
  refine ⟨values, held.imp fun input value known => means input value known, ?_⟩
  rw [step_eq found ready]

/-! ## A whole evaluation -/

/-- How an evaluation ends: no node on its way ends it, or the first that does. -/
def EndsAt (s : Snapshot) (seeding : Seeding) (g : Graph) (order : List Nat) : Option Halt → Prop
  | none => ∀ id ∈ order, ∃ value, g.meaning s seeding id = .ok value
  | some halt => ∃ before id after, order = before ++ id :: after ∧ g.Raises s seeding id halt ∧
      ∀ other ∈ before, ∃ value, g.meaning s seeding other = .ok value

theorem EndsAt.cons {id : Nat} {value : NodeValue} (meant : g.meaning s seeding id = .ok value) {rest : List Nat}
    {halt : Option Halt} (ends : EndsAt s seeding g rest halt) : EndsAt s seeding g (id :: rest) halt := by
  cases halt with
  | none => exact List.forall_mem_cons.mpr ⟨⟨value, meant⟩, ends⟩
  | some halt =>
      obtain ⟨before, other, after, split, raises, earlier⟩ := ends
      refine ⟨id :: before, other, after, ?_, raises, List.forall_mem_cons.mpr ⟨⟨value, meant⟩, earlier⟩⟩
      rw [split, List.cons_append]

theorem Valid.trace_means (valid : g.Valid) {known : List (Nat × NodeValue)} (means : Means s seeding g known)
    {order : List Nat} (scheduled : g.Scheduled (known.map Prod.fst) order) :
    Means s seeding g ((g.trace seeding known order).value s.answer).values ∧
      EndsAt s seeding g order ((g.trace seeding known order).value s.answer).halt := by
  induction order generalizing known with
  | nil => exact ⟨means, fun _ member => nomatch member⟩
  | cons id rest ih =>
      obtain ⟨⟨node, found, done⟩, later⟩ := scheduled
      obtain ⟨values, inputs, stepped⟩ := means.value_step found done
      rw [trace, Reading.value_bind, stepped]
      cases outcome : (node.value seeding values).value s.answer with
      | error halt =>
          refine ⟨means, [], id, rest, rfl, ⟨node, values, found, inputs, outcome⟩, ?_⟩
          exact fun _ member => nomatch member
      | ok value =>
          have meant : g.meaning s seeding id = .ok value := by rw [valid.meaning_eq found inputs, outcome]
          obtain ⟨kept, ends⟩ := ih (means.cons meant) later
          exact ⟨kept, ends.cons meant⟩

theorem means_nil : Means s seeding g [] :=
  fun _ _ impossible => nomatch impossible

/-- Whether and why an evaluation ends early is settled by the least node that ends it. -/
theorem EndsAt.eq_some {order : List Nat} {ended : Option Halt} (ends : EndsAt s seeding g order ended)
    (valid : g.Valid) (ascending : order.Pairwise (· < ·)) {id : Nat} (member : id ∈ order) {halt : Halt}
    (raises : g.Raises s seeding id halt)
    (least : ∀ other < id, other ∈ order → ∀ h, ¬g.Raises s seeding other h) : ended = some halt := by
  cases ended with
  | none =>
      obtain ⟨value, meant⟩ := ends id member
      exact absurd meant (raises.meaning_ne valid value)
  | some first =>
      obtain ⟨before, other, after, rfl, firstRaises, earlier⟩ := ends
      rcases List.mem_append.mp member with early | late
      · obtain ⟨value, meant⟩ := earlier id early
        exact absurd meant (raises.meaning_ne valid value)
      · rcases List.mem_cons.mp late with rfl | later
        · obtain ⟨node, values, found, inputs, value⟩ := firstRaises
          obtain ⟨_, others, again, otherInputs, otherValue⟩ := raises
          have meant := (valid.meaning_eq found inputs).symm.trans (valid.meaning_eq again otherInputs)
          rw [value, otherValue] at meant
          rw [Except.error.inj meant]
        · have above := (List.pairwise_cons.mp (List.pairwise_append.mp ascending).2.1).1 id later
          exact absurd firstRaises (least other above (by simp) first)

end Graph

namespace ResolutionContext

variable {s : Snapshot} {context : ResolutionContext} {σ : Type}

theorem Valid.resolve_means (valid : context.Valid) (distinct : s.DistinctArtifacts) (seeding : Seeding) (state : σ) :
    ∃ (order : List Nat) (trace : Trace), context.graph.ancestors context.roots = .ok order ∧
      Graph.Means s seeding context.graph trace.values ∧ Graph.EndsAt s seeding context.graph order trace.halt ∧
      (trace.halt = none → trace.values.map Prod.fst = order.reverse) ∧
      (context.resolve s.source seeding state).1 = context.finish trace.result := by
  obtain ⟨order, found, scheduled⟩ := valid.scheduled
  obtain ⟨means, ends⟩ := valid.graph.trace_means (s := s) Graph.means_nil scheduled
  obtain ⟨cache, _, ran⟩ := Cache.run_through distinct (Cache.coherent_empty s)
    (context.graph.trace seeding [] order) state
  have resolved := congrArg Prod.fst (resolve_eq_finish (trace_eq_ok valid found seeding) ran)
  have complete := ((valid.graph.sound_trace seeding context.graph.shaped_nil context.graph.ordered_nil
    scheduled).of_run ran).2
  exact ⟨order, _, found, means, ends, fun ended => by simpa using complete ended, resolved⟩

/-- A resolution of a valid context against a snapshot is the naive one. If some needed node ends the evaluation on the
meanings of its inputs, the least such node settles the result; otherwise every needed node has a meaning, and the
meanings of the bound nodes are put together. -/
theorem resolve_eq_meaning (valid : context.validate = .ok ()) (distinct : s.DistinctArtifacts) (seeding : Seeding)
    (state : σ) :
    (∀ id halt, context.Needs id → context.graph.Raises s seeding id halt →
      (∀ other < id, context.Needs other → ∀ h, ¬context.graph.Raises s seeding other h) →
      (context.resolve s.source seeding state).1 = halt.outcome) ∧
    ((∀ id halt, context.Needs id → ¬context.graph.Raises s seeding id halt) →
      (∀ id, context.Needs id → ∃ value, context.graph.meaning s seeding id = .ok value) ∧
      (context.resolve s.source seeding state).1 =
        assemble context.slots fun id => (context.graph.meaning s seeding id).toOption) := by
  have accepted := validate_eq_ok.mp valid
  obtain ⟨order, trace, found, means, ends, complete, resolved⟩ := accepted.resolve_means distinct seeding state
  obtain ⟨ascending, needed⟩ := Graph.ancestors_spec found
  constructor
  · intro id halt needs raises least
    have halted := ends.eq_some accepted.graph ascending ((needed id).mpr needs) raises
      fun other below member => least other below ((needed other).mp member)
    rw [resolved, Trace.result, halted]
    cases halt <;> rfl
  · intro never
    cases ended : trace.halt with
    | some halt =>
        rw [ended] at ends
        obtain ⟨before, id, after, split, raises, _⟩ := ends
        have member : id ∈ order := by simp [split]
        exact absurd raises (never id halt ((needed id).mp member))
    | none =>
        rw [ended] at ends
        refine ⟨fun id needs => ends id ((needed id).mpr needs), ?_⟩
        rw [resolved, Trace.result, ended]
        apply assemble_congr
        intro entry member
        have root : entry.2.node ∈ order :=
          (needed _).mpr (Graph.Reaches.root (mem_roots.mpr ⟨entry, member, rfl⟩))
        have known : entry.2.node ∈ trace.values.map Prod.fst := by simpa [complete ended] using root
        obtain ⟨value, looked⟩ := exists_lookup known
        rw [looked, means _ value looked]
        rfl

/-- Every selection of a resolution holds for each slot what the bound node means, and no less than the slot needs. -/
theorem Valid.mem_selections (valid : context.Valid) (distinct : s.DistinctArtifacts) {seeding : Seeding} {state : σ}
    {outcome : Outcome} (resolved : (context.resolve s.source seeding state).1 = .ok outcome) {selection : Selection}
    (member : selection ∈ outcome.selections) :
    ∃ index, ∀ slot binding, (slot, binding) ∈ context.slots.entries → ∃ filled : FilledSlot,
      context.graph.meaning s seeding binding.node = .ok filled.value ∧
        selection.artifacts.get? slot = some (filled.artifactsAt index) ∧
        binding.minCount ≤ (filled.artifactsAt index).length := by
  obtain ⟨order, trace, _, means, _, _, finished⟩ := valid.resolve_means distinct seeding state
  rw [finished, Trace.result] at resolved
  cases ended : trace.halt with
  | some halt =>
      rw [ended] at resolved
      cases halt with
      | skip reason =>
          cases resolved
          cases member
      | error cause => cases resolved
  | none =>
      rw [ended] at resolved
      obtain ⟨index, each⟩ := assemble_eq_ok resolved member
      refine ⟨index, ?_⟩
      intro slot binding entry
      obtain ⟨filled, known, found, enough⟩ := each slot binding entry
      exact ⟨filled, means binding.node filled.value known, found, enough⟩

def guarded : ResolutionContext where
  graph := ⟨[⟨0, .input (Query.ofType "Examples"), [], .list⟩, ⟨1, .skipIfInsufficientSpans 4 none, [0], .list⟩]⟩
  slots := OrderedMap.ofList [("examples", SlotBinding.required 1)]

theorem resolve_eq_meaning_guarded :
    guarded.validate = .ok () ∧ Snapshot.threeSpans.DistinctArtifacts ∧
      (guarded.resolve Snapshot.threeSpans.source ⟨none, fun _ => 0⟩ 7).1 = .ok (.skip (.insufficientSpans 1 3 4)) := by
  have valid : guarded.validate = .ok () := by rfl
  have distinct : Snapshot.threeSpans.DistinctArtifacts := by decide
  have input : guarded.graph.meaning Snapshot.threeSpans ⟨none, fun _ => 0⟩ 0 =
      .ok (.list Snapshot.threeSpans.artifacts) := by
    rw [Graph.meaning]
    rfl
  have raises : guarded.graph.Raises Snapshot.threeSpans ⟨none, fun _ => 0⟩ 1 (.skip (.insufficientSpans 1 3 4)) :=
    ⟨_, [.list Snapshot.threeSpans.artifacts], rfl, List.Forall₂.cons input List.Forall₂.nil, by rfl⟩
  refine ⟨valid, distinct, ?_⟩
  apply (resolve_eq_meaning valid distinct ⟨none, fun _ => 0⟩ 7).1 1 _ (Graph.Reaches.root (by decide)) raises
  intro other below _ h early
  have first : other = 0 := by omega
  subst first
  exact early.meaning_ne (validate_eq_ok.mp valid).graph _ input

end ResolutionContext

end InputResolution
