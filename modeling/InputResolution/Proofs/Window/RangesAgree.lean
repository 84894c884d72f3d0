import InputResolution.Proofs.Window.SequentialRange

/-!
The ranges agree. A window of a sequential range is what a static range between its smallest and its greatest span
shows, with the same spans excluded; without exclusions it is also what a rolling range shows that starts at the
candidate span of the same place. So the three ways of choosing, by bounds, by the first candidates and by runs of
candidates, never drift apart.
-/

namespace InputResolution

/-! ## Ascending lists -/

/-- A run of neighbours holds all that lies between its least and its greatest element. -/
theorem mem_infix_ascending {xs run : List Int} (ascending : xs.Pairwise (· < ·)) (part : run <:+: xs)
    {first last : Int} (least : IsLeast {x | x ∈ run} first) (greatest : IsGreatest {x | x ∈ run} last) (x : Int) :
    x ∈ run ↔ x ∈ xs ∧ first ≤ x ∧ x ≤ last := by
  obtain ⟨before, after, rfl⟩ := part
  obtain ⟨front, _, late⟩ := List.pairwise_append.mp ascending
  obtain ⟨_, _, early⟩ := List.pairwise_append.mp front
  constructor
  · intro member
    exact ⟨List.mem_append_left after (List.mem_append_right before member), least.2 member, greatest.2 member⟩
  · rintro ⟨member, low, high⟩
    rcases List.mem_append.mp member with sooner | later
    · rcases List.mem_append.mp sooner with below | within
      · have less := early x below first least.1
        omega
      · exact within
    · have more := late last (List.mem_append_right before greatest.1) x later
      omega

theorem filter_le_ascending {xs : List Int} (ascending : xs.Pairwise (· < ·)) {place : Nat} {x : Int}
    (found : xs[place]? = some x) : xs.filter (fun y => decide (x ≤ y)) = xs.drop place := by
  obtain ⟨bound, here⟩ := List.getElem?_eq_some_iff.mp found
  have split := List.take_append_drop place xs
  have parts := split.symm ▸ ascending
  obtain ⟨_, back, apart⟩ := List.pairwise_append.mp parts
  rw [List.drop_eq_getElem_cons bound, here] at split back apart ⊢
  have none : (xs.take place).filter (fun y => decide (x ≤ y)) = [] := by
    apply List.filter_eq_nil_iff.mpr
    intro y early
    have below := apart y early x List.mem_cons_self
    simp only [decide_eq_true_eq]
    omega
  have all : (x :: xs.drop (place + 1)).filter (fun y => decide (x ≤ y)) = x :: xs.drop (place + 1) := by
    apply List.filter_eq_self.mpr
    intro y late
    rcases List.mem_cons.mp late with rfl | later
    · simp
    · exact decide_eq_true (le_of_lt ((List.pairwise_cons.mp back).1 y later))
  conv_lhs => rw [← split]
  rw [List.filter_append, none, all, List.nil_append]

namespace Window

variable {artifacts : List Artifact}

theorem within_congr {test other : Int → Bool} (same : ∀ span ∈ distinctSpans artifacts, test span = other span)
    (keepAllVersions : Bool) : within keepAllVersions test artifacts = within keepAllVersions other artifacts := by
  rw [within, within]
  congr 1
  apply List.filter_congr
  intro a member
  cases placed : a.span? with
  | none => rfl
  | some span => exact same span (mem_distinctSpans.mpr ⟨a, member, placed⟩)

theorem candidateSpans_from {startSpan : Int} {skipped place : Nat} {span : Int}
    (found : (candidateSpans startSpan skipped artifacts)[place]? = some span) :
    candidateSpans span skipped artifacts = (candidateSpans startSpan skipped artifacts).drop place := by
  have ascending : ((distinctSpans artifacts).filter fun other => decide (startSpan ≤ other)).Pairwise (· < ·) :=
    (pairwise_distinctAscending _).filter _
  have above : startSpan ≤ span := by
    have member := List.mem_of_mem_take (List.mem_of_getElem? found)
    exact of_decide_eq_true (List.mem_filter.mp member).2
  have fewer : (distinctSpans artifacts).filter (fun other => decide (span ≤ other)) =
      ((distinctSpans artifacts).filter fun other => decide (startSpan ≤ other)).filter
        fun other => decide (span ≤ other) := by
    rw [List.filter_filter]
    apply List.filter_congr
    intro other _
    rw [Bool.eq_iff_iff, Bool.and_eq_true, decide_eq_true_iff, decide_eq_true_iff]
    omega
  unfold candidateSpans at found ⊢
  dsimp only at found ⊢
  rw [fewer]
  generalize (distinctSpans artifacts).filter (fun other => decide (startSpan ≤ other)) = spans at ascending found ⊢
  rw [List.getElem?_take] at found
  split at found
  · rw [filter_le_ascending ascending found, List.length_drop, List.drop_take]
    congr 1
    omega
  · cases found

theorem rollingRange_of_candidates {range : RollingRange} {spans : List Int}
    (candidates : candidateSpans range.startSpan range.skippedRecentSpans artifacts = spans) :
    rollingRange range artifacts =
      if spans.length < range.numSpans then []
      else within range.keepAllVersions (fun span => (spans.take range.numSpans).contains span) artifacts := by
  rw [← candidates, rollingRange]

def spansOf (artifacts : List Artifact) : Set Int :=
  {span | ∃ a ∈ artifacts, a.span? = some span}

theorem spansOf_within {spans : List Int} (held : ∀ span ∈ spans, span ∈ distinctSpans artifacts)
    (keepAllVersions : Bool) :
    spansOf (within keepAllVersions (fun span => spans.contains span) artifacts) = {span | span ∈ spans} := by
  ext span
  have shown : span ∈ distinctSpans (within keepAllVersions (fun span => spans.contains span) artifacts) ↔ _ :=
    distinctSpans_within
  rw [mem_distinctSpans, List.contains_iff_mem] at shown
  exact shown.trans (and_iff_left_of_imp (held span))

end Window

namespace SequentialRange

open Window

variable {range : SequentialRange} {artifacts : List Artifact}

/-- The pool has no gaps except for excluded spans. -/
theorem mem_pool_of_between {first last span : Int} (low : first ∈ range.pool artifacts)
    (high : last ∈ range.pool artifacts) (held : span ∈ distinctSpans artifacts) (above : first ≤ span)
    (below : span ≤ last) (included : span ∉ range.excludedSpans) : span ∈ range.pool artifacts := by
  have started : range.startSpan ≤ first := (Finset.mem_filter.mp (mem_pool.mp low).1).2
  have late := (mem_pool.mp high).2.1
  refine mem_pool.mpr ⟨?_, ?_, included⟩
  · rw [distinctSpans, mem_distinctAscending] at held
    exact Finset.mem_filter.mpr ⟨List.mem_toFinset.mpr held, started.trans above⟩
  · -- What lies above the last one lies above the span, too.
    apply late.trans
    apply Finset.card_le_card
    intro other later
    obtain ⟨reached, more⟩ := Finset.mem_filter.mp later
    exact Finset.mem_filter.mpr ⟨reached, lt_of_le_of_lt below more⟩

def between (range : SequentialRange) (first last : Int) : StaticRange :=
  ⟨some first, last, range.keepAllVersions, range.excludedSpans⟩

theorem staticRange_between (range : SequentialRange) (first last : Int) (artifacts : List Artifact) :
    staticRange (range.between first last) artifacts = within range.keepAllVersions
      (fun span => decide (first ≤ span) && decide (span ≤ last) && !range.excludedSpans.contains span) artifacts :=
  rfl

theorem within_run_eq {run : List Int} (part : run <:+: range.pool artifacts) {first last : Int}
    (least : IsLeast {span | span ∈ run} first) (greatest : IsGreatest {span | span ∈ run} last) :
    within range.keepAllVersions (fun span => run.contains span) artifacts =
      staticRange (range.between first last) artifacts := by
  rw [staticRange_between]
  apply within_congr
  intro span held
  rw [Bool.eq_iff_iff, List.contains_iff_mem, mem_infix_ascending pairwise_pool part least greatest]
  simp only [Bool.and_eq_true, decide_eq_true_eq, Bool.not_eq_true', List.contains_eq_mem, decide_eq_false_iff_not]
  constructor
  · rintro ⟨there, above, below⟩
    exact ⟨⟨above, below⟩, (mem_pool.mp there).2.2⟩
  · rintro ⟨⟨above, below⟩, included⟩
    have low := part.subset least.1
    have high := part.subset greatest.1
    exact ⟨mem_pool_of_between low high held above below included, above, below⟩

/-- A window is the static range between its least and its greatest span. -/
theorem window_eq_staticRange (positive : 0 < range.numSpans) {window : List Artifact}
    (member : window ∈ sequentialRange range artifacts) :
    ∃ first last, IsLeast (spansOf window) first ∧ IsGreatest (spansOf window) last ∧
      window = staticRange (range.between first last) artifacts := by
  rw [sequentialRange_eq] at member
  obtain ⟨run, among, rfl⟩ := List.mem_map.mp member
  have part := infix_of_mem_runs among
  have nonempty : run.toFinset.Nonempty := by
    rw [List.toFinset_nonempty_iff, ← List.length_pos_iff, length_of_mem_runs positive among]
    exact positive
  have least := run.toFinset.isLeast_min' nonempty
  have greatest := run.toFinset.isGreatest_max' nonempty
  rw [List.coe_toFinset] at least greatest
  rw [spansOf_within fun span there => mem_distinctSpans_of_mem_pool (part.subset there)]
  exact ⟨_, _, least, greatest, within_run_eq part least greatest⟩

/-! ## Without exclusions -/

variable (included : range.excludedSpans = [])

include included

theorem filter_candidateSpans_eq_self :
    ((candidateSpans range.startSpan range.skippedRecentSpans artifacts).filter fun span =>
      !range.excludedSpans.contains span) = candidateSpans range.startSpan range.skippedRecentSpans artifacts := by
  rw [included]
  exact List.filter_eq_self.mpr fun _ _ => rfl

theorem window_eq_rollingRange (positive : 0 < range.numSpans) {place : Nat} {window : List Artifact}
    (found : (sequentialRange range artifacts)[place]? = some window) :
    ∃ span, (candidateSpans range.startSpan range.skippedRecentSpans artifacts)[place]? = some span ∧
      window = rollingRange { range.rolling with startSpan := span } artifacts := by
  rw [sequentialRange, filter_candidateSpans_eq_self included, List.getElem?_map] at found
  obtain ⟨run, here, rfl⟩ := Option.map_eq_some_iff.mp found
  obtain ⟨bound, rfl⟩ := List.getElem?_eq_some_iff.mp here
  rw [getElem_runs]
  rw [length_runs positive] at bound
  have inside : place < (candidateSpans range.startSpan range.skippedRecentSpans artifacts).length := by omega
  have first := List.getElem?_eq_getElem inside
  refine ⟨_, first, ?_⟩
  have enough : ¬((candidateSpans range.startSpan range.skippedRecentSpans artifacts).drop place).length <
      range.numSpans := by
    rw [List.length_drop]
    omega
  exact ((rollingRange_of_candidates (candidateSpans_from first)).trans (if_neg enough)).symm

/-- A rolling range shows the first window, or nothing if there is none. -/
theorem rollingRange_eq_head (positive : 0 < range.numSpans) :
    rollingRange range.rolling artifacts = (sequentialRange range artifacts).head?.getD [] := by
  rw [List.head?_eq_getElem?, sequentialRange, filter_candidateSpans_eq_self included, List.getElem?_map]
  have count := length_runs positive (candidateSpans range.startSpan range.skippedRecentSpans artifacts)
  by_cases few : (candidateSpans range.startSpan range.skippedRecentSpans artifacts).length < range.numSpans
  · rw [List.getElem?_eq_none (by omega)]
    exact if_pos few
  · rw [List.getElem?_eq_getElem (by omega), getElem_runs]
    exact if_neg few

omit included

/-- A window is the static range between its ends with the same exclusions. Without exclusions it is the rolling range
from the candidate span of its place on, and the rolling range of the same parameters is the first window, if there is
one. -/
theorem ranges_agree (positive : 0 < range.numSpans) (artifacts : List Artifact) :
    (∀ window ∈ sequentialRange range artifacts, ∃ first last,
      IsLeast (spansOf window) first ∧ IsGreatest (spansOf window) last ∧
        window = staticRange (range.between first last) artifacts) ∧
    (range.excludedSpans = [] →
      (∀ (place : Nat) window, (sequentialRange range artifacts)[place]? = some window →
        ∃ span, (candidateSpans range.startSpan range.skippedRecentSpans artifacts)[place]? = some span ∧
          window = rollingRange { range.rolling with startSpan := span } artifacts) ∧
      rollingRange range.rolling artifacts = (sequentialRange range artifacts).head?.getD []) := by
  refine ⟨fun window member => window_eq_staticRange positive member, fun included => ⟨?_, ?_⟩⟩
  · exact fun place window found => window_eq_rollingRange included positive found
  · exact rollingRange_eq_head included positive

def pairsWithout (excludedSpans : List Int) : SequentialRange :=
  ⟨1, 2, 0, false, excludedSpans⟩

theorem ranges_agree_pairs :
    0 < (pairsWithout [2]).numSpans ∧
    (∃ window, (sequentialRange (pairsWithout [2]) fourSpans)[0]? = some window ∧
      window.map Artifact.span? = [some 1, some 4] ∧
      ∃ first last, IsLeast (spansOf window) first ∧ IsGreatest (spansOf window) last ∧
        window = staticRange ⟨some first, last, false, [2]⟩ fourSpans) ∧
    (pairsWithout []).excludedSpans = [] ∧
    (∃ window, (sequentialRange (pairsWithout []) fourSpans)[1]? = some window ∧
      window.map Artifact.span? = [some 2, some 4] ∧ window = rollingRange ⟨2, 2, 0, false⟩ fourSpans) ∧
    rollingRange ⟨1, 2, 0, false⟩ fourSpans = (sequentialRange (pairsWithout []) fourSpans).head?.getD [] := by
  obtain ⟨statics, _⟩ := ranges_agree (by decide : 0 < (pairsWithout [2]).numSpans) fourSpans
  obtain ⟨rolling, first⟩ := (ranges_agree (by decide : 0 < (pairsWithout []).numSpans) fourSpans).2 rfl
  obtain ⟨span, place, same⟩ := rolling 1 _ rfl
  have second : (candidateSpans 1 0 fourSpans)[1]? = some 2 := by decide +kernel
  cases second.symm.trans place
  refine ⟨by decide, ⟨_, rfl, by decide +kernel, statics _ ?_⟩, rfl, ⟨_, rfl, by decide +kernel, same⟩, first⟩
  exact List.mem_of_getElem? (rfl : (sequentialRange (pairsWithout [2]) fourSpans)[0]? = some _)

end SequentialRange

end InputResolution
