import InputResolution.Proofs.Window.Deduplication

/-!
Deduplication and ranges may change places. A range leaves whole spans out and deduplication chooses within a span, so
it is all one whether versions are deduplicated before the range, by the range or after it. Sorting in between does not
matter, since it keeps the order of records with one key, of which deduplication takes the first.
-/

namespace InputResolution.Window

variable {artifacts kept : List Artifact}

/-! ## What is kept -/

theorem KeepsLatest.pairwise_spanKey (keeps : KeepsLatest artifacts kept) :
    kept.Pairwise fun a b => a.spanKey ≤ b.spanKey := by
  apply keeps.ascending.imp
  rintro a b ⟨span, other, here, there, less⟩
  rw [Artifact.spanKey_eq here, Artifact.spanKey_eq there]
  exact le_of_lt (List.cons_lt_cons_iff.mpr (Or.inl less))

/-- Deduplication finds nothing to drop where every artifact has a span of its own. -/
theorem keepsLatest_self
    (ascending : kept.Pairwise fun a b => ∃ span other, a.span? = some span ∧ b.span? = some other ∧ span < other)
    (placed : ∀ a ∈ kept, a.span?.isSome) : KeepsLatest kept kept := by
  have single : ∀ a ∈ kept, ∀ b ∈ kept, b.span? = a.span? → b = a := fun a member b other =>
    List.inj_on_of_nodup_map (nodup_span_of_ascending ascending) other member
  constructor
  · exact ascending
  · exact placed
  · exact fun a member _ => ⟨a, member, rfl⟩
  · intro a member b other same
    rw [single a member b other same]
  · intro a member
    cases found : kept.find? (fun b => b.span? = a.span? ∧ b.revisionKey = a.revisionKey) with
    | none => exact absurd (List.find?_eq_none.mp found a member) (by simp)
    | some b =>
        have alike := List.find?_some found
        rw [single a member b (List.mem_of_find?_eq_some found) (of_decide_eq_true alike).1]

/-- Deduplication finds nothing to drop in what it has kept. -/
theorem KeepsLatest.again (keeps : KeepsLatest artifacts kept) : KeepsLatest kept kept :=
  keepsLatest_self keeps.ascending keeps.placed

/-- The order of the artifacts counts only among those with one key. -/
theorem KeepsLatest.sortBySpan (keeps : KeepsLatest artifacts kept) : KeepsLatest (sortBySpan artifacts) kept where
  ascending := keeps.ascending
  placed := keeps.placed
  covers a member := keeps.covers a ((sortBy_perm _ _).mem_iff.mp member)
  latest a member b held := keeps.latest a member b ((sortBy_perm _ _).mem_iff.mp held)
  first a member := by
    rw [← keeps.first a member]
    apply find?_sortBy
    intro x y first second
    have placed := keeps.placed a member
    rw [(Artifact.spanKey_eq_iff placed).mpr (of_decide_eq_true first),
      (Artifact.spanKey_eq_iff placed).mpr (of_decide_eq_true second)]

/-- Whole spans are left out before and after alike. -/
theorem KeepsLatest.filter (keeps : KeepsLatest artifacts kept) (test : Int → Bool) :
    KeepsLatest (artifacts.filter fun a => a.span?.any test) (kept.filter fun a => a.span?.any test) where
  ascending := keeps.ascending.filter _
  placed a member := keeps.placed a (List.mem_filter.mp member).1
  covers a member placed := by
    obtain ⟨held, passes⟩ := List.mem_filter.mp member
    obtain ⟨b, there, same⟩ := keeps.covers a held placed
    exact ⟨b, List.mem_filter.mpr ⟨there, by rwa [same]⟩, same⟩
  latest a member b held := keeps.latest a (List.mem_filter.mp member).1 b (List.mem_filter.mp held).1
  first a member := by
    obtain ⟨there, passes⟩ := List.mem_filter.mp member
    rw [← keeps.first a there, List.find?_filter]
    congr 1
    funext b
    -- What is searched for has the span of an artifact that passes.
    rw [Bool.eq_iff_iff, decide_eq_true_iff, and_iff_right_of_imp]
    intro alike
    rwa [(of_decide_eq_true alike).1]

theorem latestVersions_sortBySpan (artifacts : List Artifact) :
    latestVersions (sortBySpan artifacts) = latestVersions artifacts :=
  (keepsLatest_latestVersions _).unique (keepsLatest_latestVersions artifacts).sortBySpan

theorem latestVersions_filter (test : Int → Bool) (artifacts : List Artifact) :
    latestVersions (artifacts.filter fun a => a.span?.any test) =
      (latestVersions artifacts).filter fun a => a.span?.any test :=
  (keepsLatest_latestVersions _).unique ((keepsLatest_latestVersions artifacts).filter test)

/-- What is deduplicated has no other versions to show. -/
theorem finalize_latestVersions (keepAllVersions : Bool) (artifacts : List Artifact) :
    finalize keepAllVersions (latestVersions artifacts) = latestVersions artifacts := by
  have keeps := keepsLatest_latestVersions artifacts
  cases keepAllVersions with
  | false => exact (keepsLatest_latestVersions _).unique keeps.again
  | true => exact sortBy_eq_self keeps.pairwise_spanKey

/-! ## Windows -/

theorem latestVersions_within (test : Int → Bool) (artifacts : List Artifact) :
    latestVersions (within true test artifacts) = within false test artifacts :=
  latestVersions_sortBySpan _

theorem within_latestVersions (keepAllVersions : Bool) (test : Int → Bool) (artifacts : List Artifact) :
    within keepAllVersions test (latestVersions artifacts) = within false test artifacts := by
  rw [within, ← latestVersions_filter, finalize_latestVersions]
  rfl

theorem candidateSpans_latestVersions (startSpan : Int) (skipped : Nat) (artifacts : List Artifact) :
    candidateSpans startSpan skipped (latestVersions artifacts) = candidateSpans startSpan skipped artifacts := by
  have same : distinctSpans (latestVersions artifacts) = distinctSpans artifacts :=
    (pairwise_distinctAscending _).eq_of_mem_iff (pairwise_distinctAscending _) fun _ => distinctSpans_latestVersions
  rw [candidateSpans, candidateSpans, same]

/-- A range in its latest versions is the range in all versions deduplicated, and the range, in all versions or not, of
what is deduplicated. -/
theorem ranges_deduplicated (artifacts : List Artifact) :
    (∀ range : StaticRange,
      latestVersions (staticRange { range with keepAllVersions := true } artifacts) =
          staticRange { range with keepAllVersions := false } artifacts ∧
        staticRange range (allSpans artifacts) = staticRange { range with keepAllVersions := false } artifacts) ∧
    (∀ range : RollingRange,
      latestVersions (rollingRange { range with keepAllVersions := true } artifacts) =
          rollingRange { range with keepAllVersions := false } artifacts ∧
        rollingRange range (allSpans artifacts) = rollingRange { range with keepAllVersions := false } artifacts) ∧
    ∀ range : SequentialRange,
      (sequentialRange { range with keepAllVersions := true } artifacts).map latestVersions =
          sequentialRange { range with keepAllVersions := false } artifacts ∧
        sequentialRange range (allSpans artifacts) =
          sequentialRange { range with keepAllVersions := false } artifacts := by
  refine ⟨fun range => ⟨?_, ?_⟩, fun range => ⟨?_, ?_⟩, fun range => ⟨?_, ?_⟩⟩
  · exact latestVersions_within _ _
  · exact within_latestVersions _ _ _
  · simp only [rollingRange]
    split
    · rfl
    · exact latestVersions_within _ _
  · simp only [rollingRange, allSpans, candidateSpans_latestVersions, within_latestVersions]
  · simp only [sequentialRange, List.map_map]
    exact List.map_congr_left fun run _ => latestVersions_within _ _
  · simp only [sequentialRange, allSpans, candidateSpans_latestVersions, within_latestVersions]

end InputResolution.Window
