import InputResolution.Proofs.Builder.Calls
import InputResolution.Proofs.Evaluation.Guarded

/-!
Channels behind a guard. Some functions of a builder add a node that chooses from the list of their input, and a guard
on spans behind it. Such a channel needs an artifact; bound as the only slot, the list of its input settles the whole
resolution.
-/

namespace InputResolution.Builder

variable {b issued : Builder} {input channel : Channel} {op : Operator} {minSpans : Nat} {requiredSpan : Option Int}

structure AddsGuarded (b issued : Builder) (input channel : Channel) (op : Operator) (minSpans : Nat)
    (requiredSpan : Option Int) : Prop where
  filter : issued.graph.node? b.graph.size = some ⟨b.graph.size, op, [input.node], .list⟩
  guard : issued.graph.node? channel.node =
    some ⟨channel.node, .skipIfInsufficientSpans minSpans requiredSpan, [b.graph.size], .list⟩
  wanting : channel.allowsEmpty = false

theorem AddsGuarded.of_eq_ok (input : Channel) {made : Invocation}
    (done : does (addNode (.skipIfInsufficientSpans minSpans requiredSpan) [b.graph.size] >>= fun guard =>
      issue guard made) (b.withNode op [input.node] .list) = (.ok channel, issued)) :
    AddsGuarded b issued input channel op minSpans requiredSpan := by
  obtain ⟨guard, last, added, issuedNow⟩ := does_bind_eq_ok.mp done
  obtain ⟨rfl, shape, fits, rfl⟩ := addNode_eq_ok.mp added
  obtain ⟨rfl, node, _, rfl⟩ := issue_eq_ok.mp issuedNow
  obtain ⟨_, _, rfl⟩ := fits.sources
  exact ⟨node?_withNode_before (node?_withNode _ _ _ _), node?_withNode _ _ _ _, rfl⟩

theorem AddsGuarded.guarded (adds : AddsGuarded b issued input channel op minSpans requiredSpan)
    {f : List Artifact → List Artifact} (lists : ∀ id inputs shape, (Node.mk id op inputs shape).MakesList f)
    {g : Graph} (kept : ∀ id node, issued.graph.node? id = some node → g.node? id = some node) :
    g.Guarded input.node b.graph.size channel.node f minSpans requiredSpan where
  filtered := ⟨_, kept _ _ adds.filter, rfl, lists _ _ _⟩
  guarded := ⟨_, kept _ _ adds.guard, rfl, rfl, rfl⟩

/-- Bound as the only slot, a channel that must not be empty needs one artifact. -/
theorem only_slot {slot : String} {bound : Builder} {calls : List Call} {context : ResolutionContext}
    (wanting : channel.allowsEmpty = false) (done : does (bind slot channel) b = (.ok (), bound))
    (built : (bound.after calls).build = .ok context) (single : context.slots.size = 1) :
    context.slots.entries = [(slot, binding channel 1)] := by
  obtain ⟨_, free, rfl⟩ := bindWithMinCount_eq_ok.mp done
  obtain ⟨others, same⟩ := (build_after_eq_ok built).2.2
  rw [wanting] at same
  change (b.slots.insert slot (binding channel 1)).entries ++ others = _ at same
  rw [OrderedMap.entries_insert free] at same
  have count := congrArg List.length same
  rw [OrderedMap.size] at single
  simp only [List.length_append, List.length_singleton, single] at count
  have before : b.slots.entries = [] := List.eq_nil_of_length_eq_zero (by omega)
  have behind : others = [] := List.eq_nil_of_length_eq_zero (by omega)
  rw [before, behind] at same
  exact same.symm

/-- With the guarded channel as the only slot, the list of its input settles the outcome. -/
theorem AddsGuarded.resolve_eq (adds : AddsGuarded b issued input channel op minSpans requiredSpan)
    {f : List Artifact → List Artifact} (lists : ∀ id inputs shape, (Node.mk id op inputs shape).MakesList f)
    {front back : List Call} {slot : String} {bound : Builder}
    (done : does (bind slot channel) (issued.after front) = (.ok (), bound)) {context : ResolutionContext}
    (built : (bound.after back).build = .ok context) (single : context.slots.size = 1) {σ : Type} {source : Source σ}
    {seeding : Seeding} {state after : σ} {order : List Nat} {trace : Trace} {cache : Cache}
    (found : context.graph.ancestors context.roots = .ok order)
    (ran : (context.graph.trace seeding [] order).run (Cache.through source) (Cache.empty, state) =
      (.ok trace, (cache, after))) {artifacts : List Artifact}
    (held : trace.values.lookup input.node = some (.list artifacts)) :
    (context.resolve source seeding state).1 =
      match insufficientSpans? channel.node minSpans requiredSpan (f artifacts) with
      | some reason => .ok (.skip reason)
      | none =>
          if (f artifacts).length < 1 then .ok (.skip (.requiredSlotEmpty slot))
          else .ok (.trigger (Assembly.selectionAt [⟨slot, binding channel 1, .list (f artifacts)⟩] 0)) := by
  obtain ⟨valid, kept, _⟩ := build_after_eq_ok built
  have later := (extends_after issued front).trans ((adds_bindWithMinCount _ _ _).extends done)
  have shape := adds.guarded lists fun id node here => kept id node (later.node?_eq here)
  exact ResolutionContext.resolve_guarded (ResolutionContext.validate_eq_ok.mp valid)
    (only_slot adds.wanting done built single) shape found ran held

end InputResolution.Builder
