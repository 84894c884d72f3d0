import InputResolution.Proofs.Window.RollingRange

/-!
The windows of a sequential range. Of the spans from its start on, the most recent ones are skipped, and only then are
the excluded ones left out. What remains is the pool, and there is one window for each run of neighbours in it: a gap
in the spans does not break a run, and an excluded span does not count as recent in place of another.
-/

namespace InputResolution

/-- Without its last elements, an ascending list keeps those that have enough others above them. -/
theorem mem_take_ascending {xs : List Int} (ascending : xs.Pairwise (· < ·)) {count : Nat} {x : Int} :
    x ∈ xs.take (xs.length - count) ↔ x ∈ xs ∧ count ≤ (xs.filter fun y => x < y).length := by
  have split := List.take_append_drop (xs.length - count) xs
  have back : (xs.drop (xs.length - count)).length = xs.length - (xs.length - count) := List.length_drop
  have parts := split.symm ▸ ascending
  obtain ⟨_, _, apart⟩ := List.pairwise_append.mp parts
  have above : (xs.filter fun y => x < y).length =
      ((xs.take (xs.length - count)).filter fun y => x < y).length +
        ((xs.drop (xs.length - count)).filter fun y => x < y).length := by
    conv_lhs => rw [← split]
    rw [List.filter_append, List.length_append]
  constructor
  · intro member
    have all : (xs.drop (xs.length - count)).filter (fun y => x < y) = xs.drop (xs.length - count) :=
      List.filter_eq_self.mpr fun y later => decide_eq_true (apart x member y later)
    have kept := List.length_pos_of_mem member
    rw [List.length_take] at kept
    refine ⟨List.mem_of_mem_take member, ?_⟩
    rw [above, all, back]
    omega
  · rintro ⟨held, enough⟩
    -- An element at the back has only others at the back above it, and not all of them, since it is one itself.
    by_contra outside
    rw [← split, List.mem_append] at held
    have late := held.resolve_left outside
    have none : (xs.take (xs.length - count)).filter (fun y => x < y) = [] := by
      apply List.filter_eq_nil_iff.mpr
      intro y early
      have below := apart y early x late
      simp only [decide_eq_true_eq]
      omega
    have fewer : ((xs.drop (xs.length - count)).filter fun y => x < y).length < (xs.drop (xs.length - count)).length :=
      List.length_filter_lt_length_iff_exists.mpr ⟨x, late, by simp⟩
    rw [none, List.length_nil] at above
    omega

namespace Window

variable {artifacts : List Artifact} {a : Artifact}

theorem map_span_latestVersions (artifacts : List Artifact) :
    (latestVersions artifacts).map Artifact.span? = (distinctSpans artifacts).map some := by
  have each : ∀ span ∈ distinctSpans artifacts,
      ∃ best, firstGreatest? Artifact.spanKey (ofSpan span artifacts) = some best ∧ best.span? = some span := by
    intro span member
    obtain ⟨a, held, placed⟩ := mem_distinctSpans.mp member
    obtain ⟨best, greatest⟩ := exists_firstGreatest? Artifact.spanKey (List.ne_nil_of_mem (mem_ofSpan.mpr ⟨held, placed⟩))
    exact ⟨best, greatest, (mem_ofSpan.mp (mem_of_firstGreatest? greatest)).2⟩
  unfold latestVersions
  generalize distinctSpans artifacts = spans at each ⊢
  induction spans with
  | nil => rfl
  | cons span rest ih =>
      obtain ⟨here, later⟩ := List.forall_mem_cons.mp each
      obtain ⟨best, greatest, placed⟩ := here
      simp only [List.filterMap_cons, greatest, List.map_cons, placed, ih later]

/-- A window on some spans: all artifacts that have one of them, in order, or for each of the spans in turn an artifact
that has no later version. -/
structure Shows (keepAllVersions : Bool) (spans : List Int) (artifacts window : List Artifact) : Prop where
  allVersions : keepAllVersions = true →
    window.Perm (artifacts.filter fun a => a.span?.any fun span => span ∈ spans) ∧
      window.Pairwise fun a b => a.spanKey ≤ b.spanKey
  latestVersions : keepAllVersions = false →
    window.map Artifact.span? = spans.map some ∧
      ∀ a ∈ window, a ∈ artifacts ∧ ∀ b ∈ artifacts, b.span? = a.span? → b.spanKey ≤ a.spanKey

theorem shows_within {spans : List Int} (ascending : spans.Pairwise (· < ·))
    (held : ∀ span ∈ spans, span ∈ distinctSpans artifacts) (keepAllVersions : Bool) :
    Shows keepAllVersions spans artifacts (within keepAllVersions (fun span => spans.contains span) artifacts) where
  allVersions all := by
    simp only [within, finalize, if_pos all, List.contains_eq_mem]
    exact ⟨sortBy_perm _ _, pairwise_sortBy _ _⟩
  latestVersions latest := by
    simp only [within, finalize, latest, Bool.false_eq_true, if_false]
    constructor
    · rw [map_span_latestVersions]
      apply congrArg
      apply (pairwise_distinctAscending _).eq_of_mem_iff ascending
      intro span
      have shown : span ∈ distinctSpans (within false (fun span => spans.contains span) artifacts) ↔ _ :=
        distinctSpans_within
      rw [within, finalize, if_neg Bool.false_ne_true, distinctSpans_latestVersions, List.contains_iff_mem] at shown
      exact shown.trans (and_iff_left_of_imp (held span))
    · intro a member
      obtain ⟨there, passed⟩ := List.mem_filter.mp (mem_of_latestVersions member)
      refine ⟨there, fun b other same => spanKey_le_of_mem_latestVersions member ?_ same⟩
      exact List.mem_filter.mpr ⟨other, by rwa [same]⟩

theorem mem_distinctSpans_of_candidateSpans {startSpan : Int} {skipped : Nat} {span : Int}
    (member : span ∈ candidateSpans startSpan skipped artifacts) : span ∈ distinctSpans artifacts :=
  (List.mem_filter.mp (List.mem_of_mem_take member)).1

/-! ## Runs -/

theorem length_runs {α : Type} {n : Nat} (positive : 0 < n) (xs : List α) :
    (runs n xs).length = xs.length + 1 - n := by
  rw [runs, if_neg (by omega), List.length_map, List.length_range]

theorem getElem_runs {α : Type} {n place : Nat} {xs : List α} (bound : place < (runs n xs).length) :
    (runs n xs)[place] = (xs.drop place).take n := by
  by_cases zero : n = 0
  · simp [runs, zero] at bound
  · simp [runs, zero]

theorem infix_of_mem_runs {α : Type} {n : Nat} {xs run : List α} (member : run ∈ runs n xs) : run <:+: xs := by
  obtain ⟨place, bound, rfl⟩ := List.getElem_of_mem member
  rw [getElem_runs]
  exact (List.take_prefix n _).isInfix.trans (List.drop_suffix place xs).isInfix

theorem length_of_mem_runs {α : Type} {n : Nat} (positive : 0 < n) {xs run : List α} (member : run ∈ runs n xs) :
    run.length = n := by
  obtain ⟨place, bound, rfl⟩ := List.getElem_of_mem member
  rw [getElem_runs, List.length_take, List.length_drop]
  rw [length_runs positive] at bound
  omega

def fourSpans : List Artifact :=
  [(1, 4, 0), (2, 1, 0), (3, 2, 5), (4, 6, 0), (5, 2, 0)].map fun (id, span, version) =>
    ⟨id, "Examples", "", .live, SortedMap.ofList [("span", .int span), ("version", .int version)],
      Instant.ofSeconds id⟩

end Window

namespace RollingRange

variable (range : RollingRange) (artifacts : List Artifact)

theorem pairwise_candidateSpans :
    (Window.candidateSpans range.startSpan range.skippedRecentSpans artifacts).Pairwise (· < ·) := by
  have ascending : (range.candidates artifacts).Pairwise (· < ·) := pairwise_candidates
  exact ascending.sublist (List.take_sublist _ _)

theorem mem_candidateSpans {span : Int} :
    span ∈ Window.candidateSpans range.startSpan range.skippedRecentSpans artifacts ↔
      span ∈ range.reached artifacts ∧
        range.skippedRecentSpans ≤ ((range.reached artifacts).filter fun other => span < other).card := by
  have ascending : (range.candidates artifacts).Pairwise (· < ·) := pairwise_candidates
  have above : ((range.candidates artifacts).filter fun other => span < other).length =
      ((range.reached artifacts).filter fun other => span < other).card := by
    rw [← List.toFinset_card_of_nodup ((ascending.imp ne_of_lt).filter _), List.toFinset_filter, toFinset_candidates]
    simp
  rw [← toFinset_candidates, List.mem_toFinset, toFinset_candidates, ← above]
  exact mem_take_ascending ascending

end RollingRange

namespace SequentialRange

def rolling (range : SequentialRange) : RollingRange :=
  ⟨range.startSpan, range.numSpans, range.skippedRecentSpans, range.keepAllVersions⟩

/-- The spans that windows are made of, in ascending order. Of the spans from the start on, those that have not at least
the skipped number of others above them are recent and do not belong to it; nor do those that are excluded. -/
noncomputable def pool (range : SequentialRange) (artifacts : List Artifact) : List Int :=
  ((range.rolling.reached artifacts).filter fun span =>
    range.skippedRecentSpans ≤ ((range.rolling.reached artifacts).filter fun other => span < other).card ∧
      span ∉ range.excludedSpans).sort (· ≤ ·)

variable {range : SequentialRange} {artifacts : List Artifact}

theorem pairwise_pool : (range.pool artifacts).Pairwise (· < ·) :=
  (Finset.sortedLT_sort _).pairwise

theorem mem_pool {span : Int} :
    span ∈ range.pool artifacts ↔ span ∈ range.rolling.reached artifacts ∧
      range.skippedRecentSpans ≤ ((range.rolling.reached artifacts).filter fun other => span < other).card ∧
        span ∉ range.excludedSpans := by
  rw [pool, Finset.mem_sort, Finset.mem_filter]

theorem filter_candidateSpans_eq_pool (range : SequentialRange) (artifacts : List Artifact) :
    ((Window.candidateSpans range.startSpan range.skippedRecentSpans artifacts).filter fun span =>
      !range.excludedSpans.contains span) = range.pool artifacts := by
  have ascending := range.rolling.pairwise_candidateSpans artifacts
  apply (ascending.filter _).eq_of_mem_iff pairwise_pool
  intro span
  rw [List.mem_filter, range.rolling.mem_candidateSpans artifacts, mem_pool]
  simp [and_assoc, rolling]

theorem mem_distinctSpans_of_mem_pool {span : Int} (member : span ∈ range.pool artifacts) :
    span ∈ Window.distinctSpans artifacts := by
  rw [← filter_candidateSpans_eq_pool] at member
  exact Window.mem_distinctSpans_of_candidateSpans (List.mem_filter.mp member).1

theorem sequentialRange_eq (range : SequentialRange) (artifacts : List Artifact) :
    Window.sequentialRange range artifacts = (Window.runs range.numSpans (range.pool artifacts)).map fun run =>
      Window.within range.keepAllVersions (fun span => run.contains span) artifacts := by
  rw [Window.sequentialRange, filter_candidateSpans_eq_pool]

/-- A sequential range has a window for each place of its pool at which enough spans follow, and the window shows these
spans. -/
theorem sequentialRange_windows (positive : 0 < range.numSpans) (artifacts : List Artifact) :
    (Window.sequentialRange range artifacts).length = (range.pool artifacts).length + 1 - range.numSpans ∧
    ∀ place window, (Window.sequentialRange range artifacts)[place]? = some window →
      Window.Shows range.keepAllVersions (((range.pool artifacts).drop place).take range.numSpans) artifacts window := by
  rw [sequentialRange_eq]
  constructor
  · rw [List.length_map, Window.length_runs positive]
  · intro place window found
    rw [List.getElem?_map] at found
    obtain ⟨run, here, rfl⟩ := Option.map_eq_some_iff.mp found
    obtain ⟨bound, rfl⟩ := List.getElem?_eq_some_iff.mp here
    rw [Window.getElem_runs bound]
    have sublist := (List.take_sublist range.numSpans _).trans (List.drop_sublist place (range.pool artifacts))
    apply Window.shows_within (pairwise_pool.sublist sublist)
    intro span member
    exact mem_distinctSpans_of_mem_pool (sublist.subset member)

def newestSkipped : SequentialRange :=
  ⟨1, 2, 1, true, [6]⟩

theorem sequentialRange_windows_newestSkipped :
    0 < newestSkipped.numSpans ∧ newestSkipped.pool Window.fourSpans = [1, 2, 4] ∧
      (Window.sequentialRange newestSkipped Window.fourSpans).length = 2 ∧
      ∃ window, (Window.sequentialRange newestSkipped Window.fourSpans)[1]? = some window ∧
        window.map Artifact.id = [5, 3, 1] ∧ Window.Shows true [2, 4] Window.fourSpans window := by
  have pool : newestSkipped.pool Window.fourSpans = [1, 2, 4] := by
    rw [← filter_candidateSpans_eq_pool]
    decide +kernel
  obtain ⟨count, shows⟩ := sequentialRange_windows (by decide : 0 < newestSkipped.numSpans) Window.fourSpans
  rw [pool] at count shows
  exact ⟨by decide, pool, count, _, rfl, by decide +kernel, shows 1 _ rfl⟩

end SequentialRange

end InputResolution
