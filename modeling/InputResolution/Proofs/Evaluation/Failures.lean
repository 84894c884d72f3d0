import InputResolution.Proofs.Assembly.Law
import InputResolution.Proofs.Evaluation.UnknownKeys
import InputResolution.Proofs.Lineage.SpanArithmetic

/-!
The failures of a sound context. If no node of a valid context selects an unknown key, nothing can fail against a source
that never fails until the slots are put together; and then it is two slots with sequences of different lengths. But on
the way there spans can overflow. Where words wrap around, this only changes what is found; where arithmetic is checked,
the evaluation stops.
-/

namespace InputResolution

/-! ## Overflow -/

/-- The operation subtracts spans, and the newest of its examples makes a number leave 64 bits. -/
def Node.Overflows (node : Node) (values : List NodeValue) : Prop :=
  match node.op with
  | .evaluatorInputs params => ∃ examples newest, values[0]? = some (.list examples) ∧
      params.newest? examples = some newest ∧ ¬params.Fits newest
  | _ => False

/-- The evaluation meets an overflow. If arithmetic is checked it does not go past the first one. -/
def Trace.Overflows (g : Graph) (trace : Trace) : Prop :=
  ∃ id node values, id ∈ trace.values.map Prod.fst ∧ g.node? id = some node ∧
    List.Forall₂ (fun input value => trace.values.lookup input = some value) node.inputs values ∧ node.Overflows values

/-- An overflow takes an accepted node whose parameters add up to too much. -/
theorem Trace.Overflows.exists_node {g : Graph} (valid : g.Valid) {trace : Trace} (overflows : trace.Overflows g)
    (signed : ∀ id examples, trace.values.lookup id = some (.list examples) → SignedSpans examples) :
    ∃ node ∈ g.nodes, ∃ params, node.op = .evaluatorInputs params ∧
      params.startSpan + 9223372036854775808 < params.waitSpans + params.additionalSpans + params.trainingOffset := by
  obtain ⟨id, node, values, _, found, inputs, fails⟩ := overflows
  have member := List.mem_of_getElem? found
  have accepted := (valid.fits found).parameters
  obtain ⟨own, op, sources, shape⟩ := node
  cases op with
  | evaluatorInputs params =>
      obtain ⟨examples, newest, first, latest, unfit⟩ := fails
      obtain ⟨input, _, held⟩ := Steps.exists_of_mem inputs.flip (List.mem_of_getElem? first)
      obtain ⟨reached, a, shown, placed⟩ := SpanDriven.newest?_eq_some latest
      refine ⟨_, member, params, rfl, ?_⟩
      by_contra small
      exact unfit (SpanDriven.fits_of_le accepted (signed input examples held a shown newest placed) reached (by omega))
  | _ => exact fails.elim

/-! ## Sequences of different lengths -/

namespace ResolutionContext

variable {context : ResolutionContext} {σ : Type} {source : Source σ} {seeding : Seeding} {state : σ} {trace : Trace}

theorem Valid.skip_of_halt (valid : context.Valid) (known : ∀ id key, ¬context.graph.SelectsUnknown id key)
    (traces : context.Traces source seeding state trace) {halt : Halt} (ended : trace.halt = some halt) :
    ∃ reason, halt = .skip reason := by
  obtain ⟨_, sound, grounded, _, ends⟩ := valid.of_traces traces
  cases halt with
  | skip reason => exact ⟨reason, rfl⟩
  | error cause =>
      obtain ⟨id, _, makes⟩ := ends _ ended
      obtain ⟨key, unknown, _⟩ := makes.selectsUnknown valid.graph sound.shaped grounded
      exact absurd unknown (known id key)

/-- A resolution fails exactly if its evaluation is complete and two slots hold sequences of different lengths. -/
theorem Valid.fails_iff_uneven (valid : context.Valid) (known : ∀ id key, ¬context.graph.SelectsUnknown id key)
    (traces : context.Traces source seeding state trace) :
    ((∃ cause, (context.resolve source seeding state).1 = .error cause) ↔
        trace.halt = none ∧ Assembly.Uneven (fun id => trace.values.lookup id) context.slots.entries) ∧
      ∀ cause, (context.resolve source seeding state).1 = .error cause → cause.kind = .inconsistentResultShape := by
  obtain ⟨resolved, sound, _, complete, _⟩ := valid.of_traces traces
  rw [resolved]
  unfold Trace.result
  cases ended : trace.halt with
  | some halt =>
      obtain ⟨reason, rfl⟩ := valid.skip_of_halt known traces ended
      exact ⟨⟨nofun, nofun⟩, nofun⟩
  | none =>
      have filled := (valid.assembles sound (complete ended)).filled
      refine ⟨?_, fun cause failed => assemble_eq_error filled failed⟩
      change (∃ cause, assemble context.slots _ = .error cause) ↔ _
      rw [assemble_fails_iff filled]
      exact (and_iff_right rfl).symm

end ResolutionContext

end InputResolution
