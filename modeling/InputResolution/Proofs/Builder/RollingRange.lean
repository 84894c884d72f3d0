import InputResolution.Proofs.Builder.Guarded
import InputResolution.Proofs.Evaluation.Shapes
import InputResolution.Proofs.Window.RollingRange

/-!
The rolling range of a builder: a range and a guard that wants as many spans as the range does. Whether it triggers is a
matter of how many spans there are from its start on, since the range chooses nothing at all if these are too few.
-/

namespace InputResolution.Builder

variable {b issued : Builder} {input channel : Channel} {range : RollingRange}

theorem rollingRange_eq_ok (made : does (rollingRange input range) b = (.ok channel, issued)) :
    0 < range.numSpans ∧ AddsGuarded b issued input channel (.rollingRange range) range.numSpans none := by
  obtain ⟨node, between, pushed, rest⟩ := does_bind_eq_ok.mp made
  obtain ⟨rfl, shape, fits, rfl⟩ := addNode_eq_ok.mp (push_eq_ok.mp pushed).2
  obtain ⟨_, _, rfl⟩ := fits.sources
  refine ⟨?_, AddsGuarded.of_eq_ok input rest⟩
  obtain ⟨_, _, counted⟩ := Steps.bind_eq_ok.mp fits.parameters
  unfold Operator.checkPositive at counted
  split at counted
  · cases counted
  · omega

/-- A rolling range that is bound as the only slot triggers exactly if its input has as many spans from the start on as
the range wants and skips. It then chooses the first of them, in all their versions or in the latest ones; otherwise the
step is skipped as if there were no span at all. -/
theorem rollingRange_triggers_iff (made : does (rollingRange input range) b = (.ok channel, issued))
    {front back : List Call} {slot : String} {bound : Builder}
    (done : does (bind slot channel) (issued.after front) = (.ok (), bound)) {context : ResolutionContext}
    (built : (bound.after back).build = .ok context) (single : context.slots.size = 1) {σ : Type} (source : Source σ)
    (seeding : Seeding) {state after : σ} {order : List Nat} {trace : Trace} {cache : Cache}
    (found : context.graph.ancestors context.roots = .ok order)
    (ran : (context.graph.trace seeding [] order).run (Cache.through source) (Cache.empty, state) =
      (.ok trace, (cache, after))) {artifacts : List Artifact}
    (held : trace.values.lookup input.node = some (.list artifacts)) :
    ((∃ selection, (context.resolve source seeding state).1 = .ok (.trigger selection)) ↔
      range.numSpans + range.skippedRecentSpans ≤ (range.reached artifacts).card) ∧
    (∀ selection, (context.resolve source seeding state).1 = .ok (.trigger selection) →
      ∃ chosen, selection.artifacts.entries = [(slot, chosen)] ∧ range.Chooses artifacts chosen) ∧
    (¬range.numSpans + range.skippedRecentSpans ≤ (range.reached artifacts).card →
      (context.resolve source seeding state).1 =
        .ok (.skip (.insufficientSpans channel.node 0 range.numSpans))) := by
  obtain ⟨positive, adds⟩ := rollingRange_eq_ok made
  have outcome := adds.resolve_eq (f := Window.rollingRange range) (fun _ _ _ _ _ => rfl) done built single found ran held
  rw [← RollingRange.missing] at outcome
  by_cases enough : range.Enough artifacts
  · have chooses := enough.chooses
    have nonempty : Window.rollingRange range artifacts ≠ [] := by
      intro empty
      have count := chooses.takes.count
      rw [empty] at count
      exact absurd count (Nat.ne_of_lt positive)
    have long := List.length_pos_of_ne_nil nonempty
    rw [enough.missing_eq_none] at outcome
    dsimp only at outcome
    rw [if_neg (by omega)] at outcome
    refine ⟨⟨fun _ => enough, fun _ => ⟨_, outcome⟩⟩, ?_, fun few => absurd enough few⟩
    intro selection triggered
    rw [outcome] at triggered
    cases triggered
    exact ⟨_, rfl, chooses⟩
  · rw [RollingRange.missing_eq_some enough positive] at outcome
    refine ⟨⟨?_, fun many => absurd many enough⟩, ?_, fun _ => outcome⟩
    · rintro ⟨selection, triggered⟩
      rw [outcome] at triggered
      cases triggered
    · intro selection triggered
      rw [outcome] at triggered
      cases triggered

def firstTwo : RollingRange :=
  ⟨1, 2, 1, false⟩

def rolled : Except ResolveError Channel × Builder :=
  does (rollingRange (Channel.ofQuery 1 0 "Examples") firstTwo) (does (artifactQuery "Examples") (ofId 1)).2

def rolledChannel : Channel :=
  rolled.1.toOption.getD (Channel.ofQuery 1 0 "Examples")

def rolledContext : ResolutionContext :=
  let bound := (does (bind "examples" rolledChannel) rolled.2).2
  ⟨bound.graph, bound.slots⟩

theorem rollingRange_triggers_iff_firstTwo :
    rolled = (.ok rolledChannel, rolled.2) ∧ rolledContext.slots.size = 1 ∧
      ∃ selection chosen,
        (rolledContext.resolve Snapshot.threeSpans.source ⟨none, fun _ => 0⟩ 7).1 = .ok (.trigger selection) ∧
        selection.artifacts.entries = [("examples", chosen)] ∧
        firstTwo.Chooses Snapshot.threeSpans.artifacts chosen := by
  have made : rolled = (.ok rolledChannel, rolled.2) := by rfl
  have order : rolledContext.graph.ancestors rolledContext.roots = .ok [0, 1, 2] := by decide +kernel
  have enough : firstTwo.numSpans + firstTwo.skippedRecentSpans ≤
      (firstTwo.reached Snapshot.threeSpans.artifacts).card := by
    rw [← RollingRange.length_candidates]
    decide +kernel
  have done : does (bind "examples" rolledChannel) (rolled.2.after []) =
      (.ok (), (does (bind "examples" rolledChannel) rolled.2).2) := by rfl
  have built : ((does (bind "examples" rolledChannel) rolled.2).2.after []).build = .ok rolledContext := by rfl
  obtain ⟨triggers, chooses, _⟩ := rollingRange_triggers_iff made done built (by rfl) Snapshot.threeSpans.source
    ⟨none, fun _ => 0⟩ order (rfl : ((rolledContext.graph.trace _ [] _).run _ (Cache.empty, 7)) = (.ok _, _, _)) (by rfl)
  obtain ⟨selection, triggered⟩ := triggers.mpr enough
  obtain ⟨chosen, entries, choice⟩ := chooses selection triggered
  exact ⟨made, by rfl, selection, chosen, triggered, entries, choice⟩

end InputResolution.Builder
