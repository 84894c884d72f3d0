import InputResolution.Proofs.Builder.Guarded
import InputResolution.Proofs.Evaluation.Shapes
import InputResolution.Proofs.Window.StaticRange

/-!
The fixed range of a builder. With a start it is a range behind a guard whose count is made when the nodes are added,
and this guard stops exactly the lists in which some wanted span is missing.
-/

namespace InputResolution.Builder

variable {b issued : Builder} {input channel : Channel} {range : StaticRange} {start : Int}

theorem start_le_of_validate (valid : (Operator.staticRange range).validate = .ok ())
    (starts : range.startSpan = some start) : start ≤ range.endSpan := by
  obtain ⟨_, _, checked⟩ := Steps.bind_eq_ok.mp valid
  rw [starts] at checked
  obtain ⟨_, _, ordered⟩ := Steps.bind_eq_ok.mp checked
  split at ordered
  · cases ordered
  · omega

def guardNode (node filter : Nat) (range : StaticRange) (start : Int) : Node :=
  ⟨node, .skipIfInsufficientSpans (spansWanted start range.endSpan range.excludedSpans) (range.requiredSpan start),
    [filter], .list⟩

/-- The nodes of a fixed range with a start and their places. -/
structure AddsRange (b issued : Builder) (input channel : Channel) (range : StaticRange) (start : Int) : Prop where
  ordered : start ≤ range.endSpan
  filter : issued.graph.node? b.graph.size = some ⟨b.graph.size, .staticRange range, [input.node], .list⟩
  guard : issued.graph.node? channel.node = some (guardNode channel.node b.graph.size range start)
  wanting : channel.allowsEmpty = false

theorem staticRange_eq_ok (starts : range.startSpan = some start)
    (made : does (staticRange input range) b = (.ok channel, issued)) :
    AddsRange b issued input channel range start := by
  obtain ⟨node, between, pushed, rest⟩ := does_bind_eq_ok.mp made
  obtain ⟨rfl, shape, fits, rfl⟩ := addNode_eq_ok.mp (push_eq_ok.mp pushed).2
  obtain ⟨_, _, rfl⟩ := fits.sources
  rw [starts] at rest
  dsimp only at rest
  split at rest
  · cases rest
  · obtain ⟨filter, guard, wanting⟩ := AddsGuarded.of_eq_ok input rest
    exact ⟨start_le_of_validate fits.parameters starts, filter, guard, wanting⟩

/-! ## The guard -/

variable {node filter : Nat} {artifacts : List Artifact}

theorem value_guardNode (node filter : Nat) (range : StaticRange) (start : Int) (seeding : Seeding)
    (artifacts : List Artifact) :
    (guardNode node filter range start).value seeding [.list (Window.staticRange range artifacts)] =
      .done (match range.missing start node artifacts with
        | some reason => .error (.skip reason)
        | none => .ok (.list (Window.staticRange range artifacts))) := rfl

theorem value_guardNode_complete (starts : range.startSpan = some start) (ordered : start ≤ range.endSpan)
    (complete : range.CompleteIn start artifacts) (seeding : Seeding) :
    (guardNode node filter range start).value seeding [.list (Window.staticRange range artifacts)] =
      .done (.ok (.list (Window.staticRange range artifacts))) := by
  have passes := (StaticRange.missing_eq_none starts ordered node).mpr complete
  rw [value_guardNode, passes]

theorem value_guardNode_incomplete (starts : range.startSpan = some start) (ordered : start ≤ range.endSpan)
    (incomplete : ¬range.CompleteIn start artifacts) (seeding : Seeding) :
    (guardNode node filter range start).value seeding [.list (Window.staticRange range artifacts)] =
      .done (.error (.skip (range.gap start node artifacts))) := by
  have stops := StaticRange.missing_eq_some starts ordered node incomplete
  rw [value_guardNode, stops]

/-! ## A resolution -/

/-- With the range as the only slot, the list of its input settles the outcome. -/
theorem AddsRange.resolve_eq (adds : AddsRange b issued input channel range start) {front back : List Call}
    {slot : String} {bound : Builder} (done : does (bind slot channel) (issued.after front) = (.ok (), bound))
    {context : ResolutionContext} (built : (bound.after back).build = .ok context) (single : context.slots.size = 1)
    {σ : Type} {source : Source σ} {seeding : Seeding} {state after : σ} {order : List Nat} {trace : Trace}
    {cache : Cache} (found : context.graph.ancestors context.roots = .ok order)
    (ran : (context.graph.trace seeding [] order).run (Cache.through source) (Cache.empty, state) =
      (.ok trace, (cache, after)))
    (held : trace.values.lookup input.node = some (.list artifacts)) :
    (context.resolve source seeding state).1 =
      match range.missing start channel.node artifacts with
      | some reason => .ok (.skip reason)
      | none =>
          if (Window.staticRange range artifacts).length < 1 then .ok (.skip (.requiredSlotEmpty slot))
          else .ok (.trigger (Assembly.selectionAt
            [⟨slot, binding channel 1, .list (Window.staticRange range artifacts)⟩] 0)) := by
  have guarded : AddsGuarded b issued input channel (.staticRange range)
      (spansWanted start range.endSpan range.excludedSpans) (range.requiredSpan start) :=
    ⟨adds.filter, adds.guard, adds.wanting⟩
  exact guarded.resolve_eq (fun _ _ _ _ _ => rfl) done built single found ran held

/-- The guard of a fixed range lets through exactly what has every wanted span, and then all that the range chooses;
otherwise it names the gap. Bound as the only slot, the range triggers if it is complete and wants any span at all, and
skips if not. -/
theorem staticRange_complete (starts : range.startSpan = some start)
    (made : does (staticRange input range) b = (.ok channel, issued)) :
    (∃ filter guard, issued.graph.node? channel.node = some guard ∧ guard.inputs = [filter.id] ∧
      issued.graph.node? filter.id = some filter ∧ filter.inputs = [input.node] ∧
      ∀ seeding artifacts,
        filter.value seeding [.list artifacts] = .done (.ok (.list (Window.staticRange range artifacts))) ∧
        (range.CompleteIn start artifacts →
          guard.value seeding [.list (Window.staticRange range artifacts)] =
            .done (.ok (.list (Window.staticRange range artifacts)))) ∧
        (¬range.CompleteIn start artifacts →
          guard.value seeding [.list (Window.staticRange range artifacts)] =
            .done (.error (.skip (range.gap start channel.node artifacts))))) ∧
    ∀ (front back : List Call) (slot : String) (bound : Builder) (context : ResolutionContext),
      does (bind slot channel) (issued.after front) = (.ok (), bound) → (bound.after back).build = .ok context →
      context.slots.size = 1 →
      ∀ {σ : Type} (source : Source σ) (seeding : Seeding) (state after : σ) order trace cache artifacts,
        context.graph.ancestors context.roots = .ok order →
        (context.graph.trace seeding [] order).run (Cache.through source) (Cache.empty, state) =
          (.ok trace, (cache, after)) →
        trace.values.lookup input.node = some (.list artifacts) →
        ((∃ selection, (context.resolve source seeding state).1 = .ok (.trigger selection)) ↔
          range.CompleteIn start artifacts ∧
            ∃ span, start ≤ span ∧ span ≤ range.endSpan ∧ span ∉ range.excludedSpans) ∧
        (∀ selection, (context.resolve source seeding state).1 = .ok (.trigger selection) →
          selection.artifacts.entries = [(slot, Window.staticRange range artifacts)]) ∧
        (¬range.CompleteIn start artifacts →
          (context.resolve source seeding state).1 = .ok (.skip (range.gap start channel.node artifacts))) := by
  have adds := staticRange_eq_ok starts made
  constructor
  · refine ⟨⟨b.graph.size, .staticRange range, [input.node], .list⟩, _, adds.guard, rfl, adds.filter, rfl, ?_⟩
    intro seeding artifacts
    exact ⟨rfl, fun complete => value_guardNode_complete starts adds.ordered complete seeding,
      fun incomplete => value_guardNode_incomplete starts adds.ordered incomplete seeding⟩
  · intro front back slot bound context done built single σ source seeding state after order trace cache artifacts found
      ran held
    have outcome := adds.resolve_eq done built single found ran held
    by_cases complete : range.CompleteIn start artifacts
    · rw [(StaticRange.missing_eq_none starts adds.ordered channel.node).mpr complete] at outcome
      dsimp only at outcome
      have wants := complete.staticRange_ne_nil_iff starts
      by_cases empty : Window.staticRange range artifacts = []
      · have wantsNone := (not_congr wants).mp (not_not.mpr empty)
        rw [if_pos (by simp [empty])] at outcome
        simp [outcome, wantsNone, complete]
      · have long := List.length_pos_of_ne_nil empty
        rw [if_neg (by omega)] at outcome
        refine ⟨⟨fun _ => ⟨complete, wants.mp empty⟩, fun _ => ⟨_, outcome⟩⟩, ?_, fun gap => absurd complete gap⟩
        intro selection triggered
        rw [outcome] at triggered
        cases triggered
        rfl
    · rw [StaticRange.missing_eq_some starts adds.ordered channel.node complete] at outcome
      dsimp only at outcome
      simp [outcome, complete]

/-- The range wants 1, 2 and 4; what is excluded twice or outside of it does not matter. -/
def oneToFour : StaticRange :=
  ⟨some 1, 4, false, [3, 9, 9]⟩

def ranged : Except ResolveError Channel × Builder :=
  does (staticRange (Channel.ofQuery 1 0 "Examples") oneToFour) (does (artifactQuery "Examples") (ofId 1)).2

def rangedChannel : Channel :=
  ranged.1.toOption.getD (Channel.ofQuery 1 0 "Examples")

def rangedContext : ResolutionContext :=
  let bound := (does (bind "examples" rangedChannel) ranged.2).2
  ⟨bound.graph, bound.slots⟩

theorem staticRange_complete_oneToFour :
    ranged = (.ok rangedChannel, ranged.2) ∧ oneToFour.startSpan = some 1 ∧
      ∃ selection,
        (rangedContext.resolve Snapshot.threeSpans.source ⟨none, fun _ => 0⟩ 7).1 = .ok (.trigger selection) ∧
        selection.artifacts.entries = [("examples", Window.staticRange oneToFour Snapshot.threeSpans.artifacts)] := by
  have made : ranged = (.ok rangedChannel, ranged.2) := by rfl
  have complete : oneToFour.CompleteIn 1 Snapshot.threeSpans.artifacts := by
    intro span above below included
    have few : span = 1 ∨ span = 2 ∨ span = 4 := by
      simp only [oneToFour, List.mem_cons, List.not_mem_nil, or_false] at below included
      omega
    rw [← Window.mem_distinctSpans]
    rcases few with rfl | rfl | rfl <;> decide +kernel
  have order : rangedContext.graph.ancestors rangedContext.roots = .ok [0, 1, 2] := by decide +kernel
  obtain ⟨triggers, entries, _⟩ := (staticRange_complete rfl made).2 [] [] "examples" _ rangedContext (by rfl)
    (by rfl) (by rfl) Snapshot.threeSpans.source ⟨none, fun _ => 0⟩ 7 _ _ _ _ _ order (by rfl) (by rfl)
  obtain ⟨selection, triggered⟩ := triggers.mpr ⟨complete, 1, by decide⟩
  exact ⟨made, rfl, selection, triggered, entries selection triggered⟩

end InputResolution.Builder
