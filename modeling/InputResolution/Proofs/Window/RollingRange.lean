import InputResolution.Evaluation
import InputResolution.Proofs.Window.Deduplication

/-!
What a rolling range chooses. With enough spans from its start on, it takes as many of them as it wants, the smallest
first, and so leaves at least the recent ones that it is to skip. With fewer it chooses nothing at all, which the guard
behind it counts as no span.
-/

namespace InputResolution

namespace RollingRange

variable (range : RollingRange) (artifacts : List Artifact)

noncomputable def reached : Finset Int :=
  (artifacts.filterMap Artifact.span?).toFinset.filter fun span => range.startSpan ≤ span

/-- There are spans for the range besides the recent ones that it skips. -/
def Enough : Prop :=
  range.numSpans + range.skippedRecentSpans ≤ (range.reached artifacts).card

/-- These are as many of the spans from the start on as the range wants, and the smallest of them; each has at least the
skipped number of spans above it. -/
structure Takes (spans : Finset Int) : Prop where
  reached : spans ⊆ range.reached artifacts
  count : spans.card = range.numSpans
  smallest : ∀ span ∈ spans, ∀ other ∈ range.reached artifacts, other ∉ spans → span < other
  notRecent : ∀ span ∈ spans,
    range.skippedRecentSpans ≤ ((range.reached artifacts).filter fun other => span < other).card

/-- The range chooses, for the spans that it takes, either all versions in order or the latest one of each. -/
structure Chooses (chosen : List Artifact) : Prop where
  placed : ∀ a ∈ chosen, a.span?.isSome
  takes : range.Takes artifacts (chosen.filterMap Artifact.span?).toFinset
  allVersions : range.keepAllVersions = true →
    chosen.Perm (artifacts.filter fun a => a.span?.any fun span => span ∈ chosen.filterMap Artifact.span?) ∧
      chosen.Pairwise fun a b => a.spanKey ≤ b.spanKey
  latestVersions : range.keepAllVersions = false →
    (∀ a ∈ chosen, a ∈ artifacts ∧ ∀ b ∈ artifacts, b.span? = a.span? → b.spanKey ≤ a.spanKey) ∧
      chosen.Pairwise fun a b => ∃ span other, a.span? = some span ∧ b.span? = some other ∧ span < other

/-! ## Spans -/

def candidates : List Int :=
  (Window.distinctSpans artifacts).filter fun span => decide (range.startSpan ≤ span)

variable {range artifacts}

theorem pairwise_candidates : (range.candidates artifacts).Pairwise (· < ·) :=
  (pairwise_distinctAscending _).filter _

theorem toFinset_candidates : (range.candidates artifacts).toFinset = range.reached artifacts := by
  rw [candidates, List.toFinset_filter, Window.distinctSpans, toFinset_distinctAscending]
  simp [reached]

theorem length_candidates : (range.candidates artifacts).length = (range.reached artifacts).card := by
  rw [← toFinset_candidates, List.toFinset_card_of_nodup (pairwise_candidates.imp ne_of_lt)]

theorem Enough.takes (enough : range.Enough artifacts) :
    range.Takes artifacts ((range.candidates artifacts).take range.numSpans).toFinset := by
  have ascending : (range.candidates artifacts).Pairwise (· < ·) := pairwise_candidates
  have length : (range.candidates artifacts).length = (range.reached artifacts).card := length_candidates
  have members : (range.candidates artifacts).toFinset = range.reached artifacts := toFinset_candidates
  unfold Enough at enough
  generalize range.candidates artifacts = spans at ascending length members
  have split := List.take_append_drop range.numSpans spans
  have parts := split.symm ▸ ascending
  obtain ⟨front, back, apart⟩ := List.pairwise_append.mp parts
  refine ⟨?_, ?_, ?_, ?_⟩
  · rw [← members]
    exact fun span member => List.mem_toFinset.mpr (List.mem_of_mem_take (List.mem_toFinset.mp member))
  · rw [List.toFinset_card_of_nodup (front.imp ne_of_lt), List.length_take]
    omega
  · intro span member other there outside
    rw [List.mem_toFinset] at member outside
    rw [← members, List.mem_toFinset, ← split, List.mem_append] at there
    exact apart span member other (there.resolve_left outside)
  · intro span member
    rw [List.mem_toFinset] at member
    have above : (spans.drop range.numSpans).toFinset ⊆ (range.reached artifacts).filter fun other => span < other := by
      intro other later
      rw [List.mem_toFinset] at later
      rw [Finset.mem_filter, ← members, List.mem_toFinset]
      exact ⟨List.mem_of_mem_drop later, apart span member other later⟩
    have count := Finset.card_le_card above
    rw [List.toFinset_card_of_nodup (back.imp ne_of_lt), List.length_drop] at count
    omega

/-! ## Artifacts -/

variable (range artifacts) in
/-- Of the spans from the start on, the recent ones are skipped. -/
theorem length_candidateSpans :
    (Window.candidateSpans range.startSpan range.skippedRecentSpans artifacts).length =
      (range.reached artifacts).card - range.skippedRecentSpans := by
  change ((range.candidates artifacts).take ((range.candidates artifacts).length - _)).length = _
  rw [List.length_take, length_candidates, Nat.min_eq_left (Nat.sub_le _ _)]

theorem Enough.rollingRange_eq (enough : range.Enough artifacts) :
    Window.rollingRange range artifacts = Window.within range.keepAllVersions
      (fun span => ((range.candidates artifacts).take range.numSpans).contains span) artifacts := by
  have length := length_candidateSpans range artifacts
  unfold Enough at enough
  have first : (Window.candidateSpans range.startSpan range.skippedRecentSpans artifacts).take range.numSpans =
      (range.candidates artifacts).take range.numSpans := by
    change ((range.candidates artifacts).take ((range.candidates artifacts).length - _)).take _ = _
    rw [List.take_take, length_candidates, Nat.min_eq_left (by omega)]
  unfold Window.rollingRange
  dsimp only
  rw [if_neg (by omega), first]

theorem rollingRange_eq_nil (few : ¬range.Enough artifacts) (positive : 0 < range.numSpans) :
    Window.rollingRange range artifacts = [] := by
  have length := length_candidateSpans range artifacts
  unfold Enough at few
  exact if_pos (by omega)

theorem Enough.spans_rollingRange (enough : range.Enough artifacts) :
    ((Window.rollingRange range artifacts).filterMap Artifact.span?).toFinset =
      ((range.candidates artifacts).take range.numSpans).toFinset := by
  ext span
  have within : span ∈ Window.distinctSpans (Window.rollingRange range artifacts) ↔ _ :=
    enough.rollingRange_eq ▸ Window.distinctSpans_within
  rw [List.mem_toFinset, List.mem_toFinset, ← mem_distinctAscending]
  refine within.trans ?_
  rw [List.contains_iff_mem, and_iff_left_iff_imp]
  intro member
  exact (List.mem_filter.mp (List.mem_of_mem_take member)).1

theorem Enough.chooses (enough : range.Enough artifacts) :
    range.Chooses artifacts (Window.rollingRange range artifacts) where
  placed a member := by
    rw [enough.rollingRange_eq] at member
    obtain ⟨_, span, here, _⟩ := Window.mem_of_within member
    rw [here]
    rfl
  takes := enough.spans_rollingRange ▸ enough.takes
  allVersions all := by
    have spans := enough.spans_rollingRange
    have same : ∀ span, span ∈ (Window.rollingRange range artifacts).filterMap Artifact.span? ↔
        span ∈ (range.candidates artifacts).take range.numSpans := by
      intro span
      rw [← List.mem_toFinset, spans, List.mem_toFinset]
    have test : (fun a : Artifact => a.span?.any fun span =>
        decide (span ∈ (Window.rollingRange range artifacts).filterMap Artifact.span?)) =
          fun a => a.span?.any fun span => ((range.candidates artifacts).take range.numSpans).contains span := by
      funext a
      congr 1
      funext span
      rw [Bool.eq_iff_iff, decide_eq_true_iff, same, List.contains_iff_mem]
    rw [test, enough.rollingRange_eq, Window.within, Window.finalize, if_pos all]
    exact ⟨sortBy_perm _ _, pairwise_sortBy _ _⟩
  latestVersions latest := by
    rw [enough.rollingRange_eq, Window.within, Window.finalize, latest, if_neg Bool.false_ne_true]
    refine ⟨fun a member => ?_, Window.pairwise_latestVersions _⟩
    obtain ⟨held, passed⟩ := List.mem_filter.mp (Window.mem_of_latestVersions member)
    refine ⟨held, fun b other same => Window.spanKey_le_of_mem_latestVersions member ?_ same⟩
    exact List.mem_filter.mpr ⟨other, by rwa [same]⟩

/-! ## The guard -/

def missing (range : RollingRange) (node : Nat) (artifacts : List Artifact) : Option SkipReason :=
  insufficientSpans? node range.numSpans none (Window.rollingRange range artifacts)

theorem Enough.length_distinctSpans (enough : range.Enough artifacts) :
    (Window.distinctSpans (Window.rollingRange range artifacts)).length = range.numSpans := by
  rw [Window.distinctSpans, length_distinctAscending, enough.chooses.takes.count]

/-- The guard lets through what has enough spans. -/
theorem Enough.missing_eq_none (enough : range.Enough artifacts) (node : Nat) :
    range.missing node artifacts = none := by
  rw [missing, insufficientSpans?, enough.length_distinctSpans]
  exact if_neg (Nat.lt_irrefl _)

/-- The guard finds no span at all in what has not enough of them. -/
theorem missing_eq_some (few : ¬range.Enough artifacts) (positive : 0 < range.numSpans) (node : Nat) :
    range.missing node artifacts = some (.insufficientSpans node 0 range.numSpans) := by
  rw [missing, insufficientSpans?, rollingRange_eq_nil few positive]
  exact if_pos positive

end RollingRange

end InputResolution
