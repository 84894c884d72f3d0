import InputResolution.Proofs.Window.SequentialRange

/-!
Windows while newer spans arrive. Artifacts whose spans come after all spans so far lengthen the list of candidate
spans at its end, and they belong to no window on earlier spans. So a sequential range keeps the windows that it has
shown and only adds others behind them, and a rolling range keeps what it has once chosen.
-/

namespace InputResolution.Window

open SequentialRange (newestSkipped)

def Precede (older newer : List Artifact) : Prop :=
  ∀ a ∈ older, ∀ b ∈ newer, ∀ span ∈ a.span?, ∀ other ∈ b.span?, span < other

instance (older newer : List Artifact) : Decidable (Precede older newer) :=
  inferInstanceAs (Decidable (∀ a ∈ older, ∀ b ∈ newer, ∀ span ∈ a.span?, ∀ other ∈ b.span?, span < other))

variable {older newer : List Artifact}

/-! ## Spans -/

theorem Precede.distinctSpans_append (precede : Precede older newer) :
    distinctSpans (older ++ newer) = distinctSpans older ++ distinctSpans newer := by
  have apart : ∀ span ∈ distinctSpans older, ∀ other ∈ distinctSpans newer, span < other := by
    intro span early other late
    obtain ⟨a, first, placed⟩ := mem_distinctSpans.mp early
    obtain ⟨b, second, there⟩ := mem_distinctSpans.mp late
    exact precede a first b second span placed other there
  have joined := List.pairwise_append.mpr
    ⟨pairwise_distinctAscending (older.filterMap Artifact.span?),
      pairwise_distinctAscending (newer.filterMap Artifact.span?), apart⟩
  apply (pairwise_distinctAscending _).eq_of_mem_iff joined
  intro span
  rw [mem_distinctAscending, List.filterMap_append, List.mem_append, List.mem_append, mem_distinctAscending,
    mem_distinctAscending]

/-- Newer spans may take the place of those that are skipped, and nothing else. -/
theorem Precede.candidateSpans_grows (precede : Precede older newer) (startSpan : Int) (skipped : Nat) :
    candidateSpans startSpan skipped older <+: candidateSpans startSpan skipped (older ++ newer) := by
  unfold candidateSpans
  rw [precede.distinctSpans_append, List.filter_append]
  dsimp only
  generalize (distinctSpans older).filter (fun span => decide (startSpan ≤ span)) = early
  generalize (distinctSpans newer).filter (fun span => decide (startSpan ≤ span)) = late
  have kept : early.take (early.length - skipped) = (early ++ late).take (early.length - skipped) := by
    rw [List.take_append_of_le_length (Nat.sub_le _ _)]
  -- The list is longer, so the skip ends no earlier than before.
  rw [kept]
  apply List.take_prefix_take_left
  rw [List.length_append]
  omega

theorem Precede.pool_grows (precede : Precede older newer) (range : SequentialRange) :
    range.pool older <+: range.pool (older ++ newer) := by
  rw [← SequentialRange.filter_candidateSpans_eq_pool, ← SequentialRange.filter_candidateSpans_eq_pool]
  exact (precede.candidateSpans_grows range.startSpan range.skippedRecentSpans).filter _

/-! ## Windows -/

/-- A window on spans of the older artifacts does not see the newer ones. -/
theorem Precede.within_append (precede : Precede older newer) {spans : List Int}
    (held : ∀ span ∈ spans, span ∈ distinctSpans older) (keepAllVersions : Bool) :
    within keepAllVersions (fun span => spans.contains span) (older ++ newer) =
      within keepAllVersions (fun span => spans.contains span) older := by
  have none : newer.filter (fun b => b.span?.any fun span => spans.contains span) = [] := by
    apply List.filter_eq_nil_iff.mpr
    intro b member passed
    obtain ⟨span, there, among⟩ := (Option.any_eq_true _ _).mp passed
    obtain ⟨a, first, placed⟩ := mem_distinctSpans.mp (held span (List.contains_iff_mem.mp among))
    exact lt_irrefl span (precede a first b member span placed span there)
  rw [within, List.filter_append, none, List.append_nil, within]

theorem runs_grows {α : Type} {xs ys : List α} (first : xs <+: ys) (n : Nat) : runs n xs <+: runs n ys := by
  obtain ⟨rest, rfl⟩ := first
  by_cases zero : n = 0
  · simp [runs, zero]
  · rw [List.prefix_iff_getElem?]
    intro place bound
    have positive : 0 < n := Nat.pos_of_ne_zero zero
    have longer : place < (runs n (xs ++ rest)).length := by
      rw [length_runs positive] at bound ⊢
      rw [List.length_append]
      omega
    rw [length_runs positive] at bound
    rw [List.getElem?_eq_getElem longer, getElem_runs, getElem_runs, List.drop_append_of_le_length (by omega),
      List.take_append_of_le_length]
    rw [List.length_drop]
    omega

theorem Precede.sequentialRange_grows (precede : Precede older newer) (range : SequentialRange) :
    sequentialRange range older <+: sequentialRange range (older ++ newer) := by
  have same : ∀ run ∈ runs range.numSpans (range.pool older),
      within range.keepAllVersions (fun span => run.contains span) older =
        within range.keepAllVersions (fun span => run.contains span) (older ++ newer) := by
    intro run member
    apply Eq.symm
    apply precede.within_append
    exact fun span among => SequentialRange.mem_distinctSpans_of_mem_pool ((infix_of_mem_runs member).subset among)
  rw [range.sequentialRange_eq, range.sequentialRange_eq, List.map_congr_left same]
  exact (runs_grows (precede.pool_grows range) range.numSpans).map _

theorem Precede.rollingRange_stays (precede : Precede older newer) {range : RollingRange}
    (chosen : rollingRange range older ≠ []) : rollingRange range (older ++ newer) = rollingRange range older := by
  have candidates := precede.candidateSpans_grows range.startSpan range.skippedRecentSpans
  have long := candidates.length_le
  unfold rollingRange at chosen ⊢
  dsimp only at chosen ⊢
  by_cases few : (candidateSpans range.startSpan range.skippedRecentSpans older).length < range.numSpans
  · rw [if_pos few] at chosen
    exact absurd rfl chosen
  · obtain ⟨rest, joined⟩ := candidates
    have first : (candidateSpans range.startSpan range.skippedRecentSpans (older ++ newer)).take range.numSpans =
        (candidateSpans range.startSpan range.skippedRecentSpans older).take range.numSpans := by
      rw [← joined, List.take_append_of_le_length (by omega)]
    rw [if_neg few, if_neg (by omega), first]
    apply precede.within_append
    exact fun span among => mem_distinctSpans_of_candidateSpans (List.mem_of_mem_take among)

/-- Newer spans only add to what windows show: the windows of a sequential range stay as they are and where they are,
and a rolling range that has chosen anything does not choose again. -/
theorem windows_of_precede (precede : Precede older newer) :
    (∀ range, sequentialRange range older <+: sequentialRange range (older ++ newer)) ∧
      ∀ range, rollingRange range older ≠ [] → rollingRange range (older ++ newer) = rollingRange range older :=
  ⟨precede.sequentialRange_grows, fun _ => precede.rollingRange_stays⟩

def laterSpans : List Artifact :=
  [[("span", .int 8)], [("span", .int 7)], []].map fun properties =>
    ⟨9, "Examples", "", .live, SortedMap.ofList properties, Instant.ofSeconds 9⟩

def firstPair : RollingRange :=
  newestSkipped.rolling

theorem windows_of_precede_laterSpans :
    Precede fourSpans laterSpans ∧ (sequentialRange newestSkipped fourSpans).length = 2 ∧
      (sequentialRange newestSkipped (fourSpans ++ laterSpans)).length = 3 ∧
      sequentialRange newestSkipped fourSpans <+: sequentialRange newestSkipped (fourSpans ++ laterSpans) ∧
      rollingRange firstPair fourSpans ≠ [] ∧
      rollingRange firstPair (fourSpans ++ laterSpans) = rollingRange firstPair fourSpans := by
  have precede : Precede fourSpans laterSpans := by decide +kernel
  have chosen : rollingRange firstPair fourSpans ≠ [] := by decide +kernel
  exact ⟨precede, by decide +kernel, by decide +kernel, (windows_of_precede precede).1 _, chosen,
    (windows_of_precede precede).2 firstPair chosen⟩

end InputResolution.Window
