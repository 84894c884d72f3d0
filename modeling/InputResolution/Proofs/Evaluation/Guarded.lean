import InputResolution.Proofs.Assembly
import InputResolution.Proofs.Evaluation.Grounded

/-!
A list behind a guard: one node makes a list from the list of its only input without any read, and a guard on spans
takes it. If such a guard is all that is bound, its input settles the whole resolution.
-/

namespace InputResolution

def Node.MakesList (node : Node) (f : List Artifact → List Artifact) : Prop :=
  ∀ seeding artifacts, node.value seeding [.list artifacts] = return .ok (.list (f artifacts))

namespace Graph

structure Guarded (g : Graph) (input filter guard : Nat) (f : List Artifact → List Artifact) (minSpans : Nat)
    (requiredSpan : Option Int) : Prop where
  filtered : ∃ node, g.node? filter = some node ∧ node.inputs = [input] ∧ node.MakesList f
  guarded : ∃ node, g.node? guard = some node ∧ node.inputs = [filter] ∧ node.id = guard ∧
    node.op = .skipIfInsufficientSpans minSpans requiredSpan

variable {g : Graph} {seeding : Seeding} {known : List (Nat × NodeValue)} {input filter guard minSpans : Nat}
  {f : List Artifact → List Artifact} {requiredSpan : Option Int} {artifacts : List Artifact}

theorem Makes.of_single {id source : Nat} {node : Node} {outcome : Evaluated NodeValue}
    (makes : g.Makes seeding known id outcome) (found : g.node? id = some node) (only : node.inputs = [source]) :
    ∃ value, known.lookup source = some value ∧ (node.value seeding [value]).Gives outcome := by
  obtain ⟨other, values, same, inputs, gives⟩ := makes
  cases Option.some.inj (found.symm.trans same)
  rw [only] at inputs
  cases inputs with
  | cons head tail =>
      cases tail
      exact ⟨_, head, gives⟩

theorem Guarded.makes_filter (shape : g.Guarded input filter guard f minSpans requiredSpan)
    (held : known.lookup input = some (.list artifacts)) {outcome : Evaluated NodeValue}
    (makes : g.Makes seeding known filter outcome) : outcome = .ok (.list (f artifacts)) := by
  obtain ⟨node, found, only, lists⟩ := shape.filtered
  obtain ⟨value, looked, gives⟩ := makes.of_single found only
  cases Option.some.inj (held.symm.trans looked)
  rw [lists] at gives
  exact gives.eq_of_done

theorem Guarded.makes_guard (shape : g.Guarded input filter guard f minSpans requiredSpan)
    (grounded : g.Grounded seeding known) (held : known.lookup input = some (.list artifacts))
    {outcome : Evaluated NodeValue} (makes : g.Makes seeding known guard outcome) :
    outcome = match insufficientSpans? guard minSpans requiredSpan (f artifacts) with
      | some reason => .error (.skip reason)
      | none => .ok (.list (f artifacts)) := by
  obtain ⟨node, found, only, named, guards⟩ := shape.guarded
  obtain ⟨value, looked, gives⟩ := makes.of_single found only
  have filtered := shape.makes_filter held (grounded.made filter value looked)
  cases Except.ok.inj filtered
  obtain ⟨id, op, inputs, output⟩ := node
  cases named
  cases guards
  exact gives.eq_of_done

/-- A guard that has a value has let the list through. -/
theorem Guarded.passes (shape : g.Guarded input filter guard f minSpans requiredSpan)
    (grounded : g.Grounded seeding known) (held : known.lookup input = some (.list artifacts)) {value : NodeValue}
    (looked : known.lookup guard = some value) :
    insufficientSpans? guard minSpans requiredSpan (f artifacts) = none ∧ value = .list (f artifacts) := by
  have made := shape.makes_guard grounded held (grounded.made guard value looked)
  cases reason : insufficientSpans? guard minSpans requiredSpan (f artifacts) with
  | some gap =>
      rw [reason] at made
      cases made
  | none =>
      rw [reason] at made
      exact ⟨rfl, Except.ok.inj made⟩

/-- Besides the guard and the node before it, the guard needs the input and nodes before the input only. -/
theorem Guarded.reaches (shape : g.Guarded input filter guard f minSpans requiredSpan) (valid : g.Valid) {id : Nat}
    (reached : g.Reaches [guard] id) : id = guard ∨ id = filter ∨ id ≤ input := by
  induction reached with
  | root member => exact Or.inl (List.mem_singleton.mp member)
  | @input consumer source node _ found member ih =>
      have before := valid.input_lt found member
      rcases ih with rfl | rfl | earlier
      · obtain ⟨node', same, only, _⟩ := shape.guarded
        cases Option.some.inj (found.symm.trans same)
        rw [only] at member
        exact Or.inr (Or.inl (List.mem_singleton.mp member))
      · obtain ⟨node', same, only, _⟩ := shape.filtered
        cases Option.some.inj (found.symm.trans same)
        rw [only] at member
        exact Or.inr (Or.inr (Nat.le_of_eq (List.mem_singleton.mp member)))
      · exact Or.inr (Or.inr (by omega))

/-- Behind its input, only the guard itself can end an evaluation. -/
theorem Guarded.stops (shape : g.Guarded input filter guard f minSpans requiredSpan) (valid : g.Valid)
    (grounded : g.Grounded seeding known) (held : known.lookup input = some (.list artifacts)) {id : Nat}
    (reached : g.Reaches [guard] id) (behind : input < id) {halt : Halt}
    (makes : g.Makes seeding known id (.error halt)) :
    ∃ reason, insufficientSpans? guard minSpans requiredSpan (f artifacts) = some reason ∧ halt = .skip reason := by
  rcases shape.reaches valid reached with rfl | rfl | before
  · have made := shape.makes_guard grounded held makes
    cases reason : insufficientSpans? id minSpans requiredSpan (f artifacts) with
    | some gap =>
        rw [reason] at made
        exact ⟨gap, rfl, Except.error.inj made⟩
    | none =>
        rw [reason] at made
        cases made
  · cases shape.makes_filter held makes
  · omega

end Graph

namespace ResolutionContext

variable {context : ResolutionContext} {σ : Type}

theorem Valid.grounded_of_run (valid : context.Valid) {seeding : Seeding} {order : List Nat}
    (found : context.graph.ancestors context.roots = .ok order) {source : Source σ} {state after : σ} {trace : Trace}
    (ran : (context.graph.trace seeding [] order).run source state = (.ok trace, after)) :
    context.graph.Grounded seeding trace.values ∧ trace.Covers context.graph seeding order := by
  obtain ⟨other, same, scheduled⟩ := valid.scheduled
  cases Except.ok.inj (found.symm.trans same)
  have distinct : ([] ++ order).Nodup := (Graph.ancestors_spec found).1.imp Nat.ne_of_lt
  exact (Graph.grounded_trace (Graph.grounded_nil _ _) rfl distinct scheduled).of_run ran

theorem resolve_guarded (valid : context.Valid) {slot : String} {binding : SlotBinding}
    (only : context.slots.entries = [(slot, binding)]) {input filter minSpans : Nat} {requiredSpan : Option Int}
    {f : List Artifact → List Artifact}
    (shape : context.graph.Guarded input filter binding.node f minSpans requiredSpan) {seeding : Seeding}
    {order : List Nat} (found : context.graph.ancestors context.roots = .ok order) {source : Source σ}
    {state after : σ} {trace : Trace} {cache : Cache}
    (ran : (context.graph.trace seeding [] order).run (Cache.through source) (Cache.empty, state) =
      (.ok trace, (cache, after)))
    {artifacts : List Artifact} (held : trace.values.lookup input = some (.list artifacts)) :
    (context.resolve source seeding state).1 =
      match insufficientSpans? binding.node minSpans requiredSpan (f artifacts) with
      | some reason => .ok (.skip reason)
      | none =>
          if (f artifacts).length < binding.minCount then .ok (.skip (.requiredSlotEmpty slot))
          else .ok (.trigger (Assembly.selectionAt [⟨slot, binding, .list (f artifacts)⟩] 0)) := by
  obtain ⟨grounded, covers⟩ := valid.grounded_of_run found ran
  obtain ⟨ascending, needed⟩ := Graph.ancestors_spec found
  have roots : context.roots = [binding.node] := by simp [roots, OrderedMap.values, only]
  rw [roots] at needed
  rw [resolve_eq_finish (trace_eq_ok valid found seeding) ran]
  unfold Trace.Covers at covers
  unfold Trace.result
  cases ended : trace.halt with
  | none =>
      rw [ended] at covers
      have member : binding.node ∈ trace.values.map Prod.fst := by
        rw [show trace.values.map Prod.fst = order.reverse from covers, List.mem_reverse, needed]
        exact Graph.Reaches.root List.mem_cons_self
      obtain ⟨value, looked⟩ := exists_lookup member
      obtain ⟨passes, rfl⟩ := shape.passes grounded held looked
      rw [passes]
      exact assemble_single only looked
  | some halt =>
      rw [ended] at covers
      obtain ⟨before, id, later, split, keys, makes⟩ := covers
      have inputBefore : input ∈ before := by
        rw [← List.mem_reverse, ← keys]
        exact mem_keys_of_lookup held
      have behind : input < id := by
        rw [split, List.pairwise_append] at ascending
        exact ascending.2.2 input inputBefore id List.mem_cons_self
      have reached : context.graph.Reaches [binding.node] id := (needed id).mp (by simp [split])
      obtain ⟨reason, gap, rfl⟩ := shape.stops valid.graph grounded held reached behind makes
      rw [gap]
      rfl

end ResolutionContext

end InputResolution
