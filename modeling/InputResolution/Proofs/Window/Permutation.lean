import InputResolution.Evaluation
import InputResolution.Proofs.Window.Keys

/-!
Windows do not depend on the order of the artifacts that they are made from. This needs that artifacts which were
created at one time under one id are the same; an artifact may well occur several times.
-/

namespace InputResolution

theorem distinctAscending_eq_of_mem_iff {xs ys : List Int} (same : ∀ x, x ∈ xs ↔ x ∈ ys) :
    distinctAscending xs = distinctAscending ys := by
  have rearranged : (distinctAscending xs).Perm (distinctAscending ys) := by
    rw [List.perm_ext_iff_of_nodup (nodup_distinctAscending xs) (nodup_distinctAscending ys)]
    intro x
    rw [mem_distinctAscending, mem_distinctAscending, same]
  apply rearranged.eq_of_pairwise _ (pairwise_distinctAscending xs) (pairwise_distinctAscending ys)
  intro x y _ _ below above
  omega

namespace Window

variable {xs ys : List Artifact}

theorem creationKey_eq_of_spanKey_eq {a b : Artifact} (placed : a.span?.isSome) (same : a.spanKey = b.spanKey) :
    a.creationKey = b.creationKey := by
  obtain ⟨span, here⟩ := Option.isSome_iff_exists.mp placed
  unfold Artifact.spanKey at same
  rw [here] at same
  cases there : b.span? with
  | none =>
      rw [there] at same
      cases same
  | some other =>
      rw [there] at same
      exact (List.cons.inj (List.cons.inj same).2).2

/-- Artifacts with spans that are told apart by their creation are told apart by their spans, too. -/
theorem distinguishes_spanKey (apart : Distinguishes Artifact.creationKey xs) (placed : ∀ a ∈ xs, a.span?.isSome) :
    Distinguishes Artifact.spanKey xs :=
  fun a first b second same => apart a first b second (creationKey_eq_of_spanKey_eq (placed a first) same)

theorem distinguishes_filter (apart : Distinguishes Artifact.creationKey xs) (test : Artifact → Bool) :
    Distinguishes Artifact.creationKey (xs.filter test) :=
  apart.subset fun _ member => (List.mem_filter.mp member).1

theorem distinctSpans_eq_of_perm (perm : xs.Perm ys) : distinctSpans xs = distinctSpans ys :=
  distinctAscending_eq_of_mem_iff fun _ => (perm.filterMap Artifact.span?).mem_iff

theorem sortBySpan_eq_of_perm (apart : Distinguishes Artifact.creationKey xs) (placed : ∀ a ∈ xs, a.span?.isSome)
    (perm : xs.Perm ys) : sortBySpan xs = sortBySpan ys :=
  sortBy_eq_of_perm (distinguishes_spanKey apart placed) perm

theorem latestVersions_eq_of_perm (apart : Distinguishes Artifact.creationKey xs) (perm : xs.Perm ys) :
    latestVersions xs = latestVersions ys := by
  unfold latestVersions
  rw [distinctSpans_eq_of_perm perm]
  apply List.filterMap_congr
  intro span _
  have placed : ∀ a ∈ ofSpan span xs, a.span?.isSome := by
    intro a member
    rw [(mem_ofSpan.mp member).2]
    rfl
  have told := distinguishes_spanKey (distinguishes_filter apart _) placed
  exact (isGreatest?_firstGreatest? _ _).unique (isGreatest?_firstGreatest? _ _) told
    fun _ => (perm.filter _).mem_iff

theorem spanSorted_eq_of_perm (apart : Distinguishes Artifact.creationKey xs) (perm : xs.Perm ys) :
    spanSorted xs = spanSorted ys :=
  sortBySpan_eq_of_perm (distinguishes_filter apart _) (fun _ member => (List.mem_filter.mp member).2) (perm.filter _)

theorem insufficientSpans?_eq_of_perm (perm : xs.Perm ys) (node minSpans : Nat) (requiredSpan : Option Int) :
    insufficientSpans? node minSpans requiredSpan xs = insufficientSpans? node minSpans requiredSpan ys := by
  unfold insufficientSpans?
  rw [distinctSpans_eq_of_perm perm]

/-! ## Windows -/

theorem within_eq_of_perm (apart : Distinguishes Artifact.creationKey xs) (perm : xs.Perm ys) (keepAllVersions : Bool)
    (test : Int → Bool) : within keepAllVersions test xs = within keepAllVersions test ys := by
  unfold within finalize
  have kept := perm.filter fun a => a.span?.any test
  have told := distinguishes_filter apart fun a => a.span?.any test
  cases keepAllVersions with
  | false => exact latestVersions_eq_of_perm told kept
  | true =>
      refine sortBySpan_eq_of_perm told ?_ kept
      intro a member
      obtain ⟨span, placed, _⟩ := (Option.any_eq_true _ _).mp (List.mem_filter.mp member).2
      rw [placed]
      rfl

theorem latestCreated_eq_of_perm (apart : Distinguishes Artifact.creationKey xs) (perm : xs.Perm ys) (n : Nat) :
    latestCreated n xs = latestCreated n ys := by
  rw [latestCreated, latestCreated, sortBy_eq_of_perm apart perm]

theorem latestVersion_eq_of_perm (apart : Distinguishes Artifact.creationKey xs) (perm : xs.Perm ys) (n : Nat) :
    latestVersion n xs = latestVersion n ys := by
  rw [latestVersion, latestVersion, latestVersions_eq_of_perm apart perm]

theorem staticRange_eq_of_perm (apart : Distinguishes Artifact.creationKey xs) (perm : xs.Perm ys)
    (range : StaticRange) : staticRange range xs = staticRange range ys :=
  within_eq_of_perm apart perm _ _

theorem candidateSpans_eq_of_perm (perm : xs.Perm ys) (startSpan : Int) (skipped : Nat) :
    candidateSpans startSpan skipped xs = candidateSpans startSpan skipped ys := by
  rw [candidateSpans, candidateSpans, distinctSpans_eq_of_perm perm]

theorem rollingRange_eq_of_perm (apart : Distinguishes Artifact.creationKey xs) (perm : xs.Perm ys)
    (range : RollingRange) : rollingRange range xs = rollingRange range ys := by
  rw [rollingRange, rollingRange, candidateSpans_eq_of_perm perm, within_eq_of_perm apart perm]

theorem sequentialRange_eq_of_perm (apart : Distinguishes Artifact.creationKey xs) (perm : xs.Perm ys)
    (range : SequentialRange) : sequentialRange range xs = sequentialRange range ys := by
  rw [sequentialRange, sequentialRange, candidateSpans_eq_of_perm perm]
  apply List.map_congr_left
  intro run _
  exact within_eq_of_perm apart perm _ _

/-- No window, no sorting by spans and no check for missing spans depends on the order of the artifacts. -/
theorem windows_eq_of_perm (apart : Distinguishes Artifact.creationKey xs) (perm : xs.Perm ys) :
    (∀ n, latestCreated n xs = latestCreated n ys) ∧
    (∀ n, latestVersion n xs = latestVersion n ys) ∧
    allSpans xs = allSpans ys ∧
    (∀ range, staticRange range xs = staticRange range ys) ∧
    (∀ range, rollingRange range xs = rollingRange range ys) ∧
    (∀ range, sequentialRange range xs = sequentialRange range ys) ∧
    spanSorted xs = spanSorted ys ∧
    ∀ node minSpans requiredSpan,
      insufficientSpans? node minSpans requiredSpan xs = insufficientSpans? node minSpans requiredSpan ys :=
  ⟨latestCreated_eq_of_perm apart perm, latestVersion_eq_of_perm apart perm, latestVersions_eq_of_perm apart perm,
    staticRange_eq_of_perm apart perm, rollingRange_eq_of_perm apart perm, sequentialRange_eq_of_perm apart perm,
    spanSorted_eq_of_perm apart perm, insufficientSpans?_eq_of_perm perm⟩

def repeatedRecord : List Artifact :=
  [(7, 30, [("span", .int 2)]), (4, 20, [("span", .int 1)]), (5, 10, []), (6, 30, [("span", .int 2)]),
    (7, 30, [("span", .int 2)])].map fun (id, time, properties) =>
      ⟨id, "Examples", "", .live, SortedMap.ofList properties, Instant.ofSeconds time⟩

theorem windows_eq_of_perm_repeatedRecord :
    Distinguishes Artifact.creationKey repeatedRecord ∧
    repeatedRecord.Perm repeatedRecord.reverse ∧ repeatedRecord ≠ repeatedRecord.reverse ∧
    latestCreated 2 repeatedRecord = latestCreated 2 repeatedRecord.reverse ∧
    latestVersion 1 repeatedRecord = latestVersion 1 repeatedRecord.reverse ∧
    allSpans repeatedRecord = allSpans repeatedRecord.reverse ∧
    staticRange ⟨none, 2, true, [1]⟩ repeatedRecord = staticRange ⟨none, 2, true, [1]⟩ repeatedRecord.reverse ∧
    rollingRange ⟨1, 2, 0, true⟩ repeatedRecord = rollingRange ⟨1, 2, 0, true⟩ repeatedRecord.reverse ∧
    sequentialRange ⟨1, 1, 0, true, []⟩ repeatedRecord = sequentialRange ⟨1, 1, 0, true, []⟩ repeatedRecord.reverse ∧
    spanSorted repeatedRecord = spanSorted repeatedRecord.reverse ∧
    insufficientSpans? 3 3 (some 2) repeatedRecord = insufficientSpans? 3 3 (some 2) repeatedRecord.reverse := by
  have apart : Distinguishes Artifact.creationKey repeatedRecord := by
    unfold Distinguishes
    decide +kernel
  have perm : repeatedRecord.Perm repeatedRecord.reverse := (List.reverse_perm _).symm
  obtain ⟨created, version, spans, static, rolling, sequential, sorted, insufficient⟩ := windows_eq_of_perm apart perm
  exact ⟨apart, perm, by decide +kernel, created 2, version 1, spans, static _, rolling _, sequential _, sorted,
    insufficient 3 3 (some 2)⟩

/-! ## Members -/

variable {a : Artifact}

theorem mem_of_latestCreated {n : Nat} (member : a ∈ latestCreated n xs) : a ∈ xs :=
  (sortBy_perm _ _).mem_iff.mp (List.mem_of_mem_drop member)

theorem mem_of_latestVersion {n : Nat} (member : a ∈ latestVersion n xs) : a ∈ xs :=
  mem_of_latestVersions (List.mem_of_mem_drop member)

theorem mem_of_rollingRange {range : RollingRange} (member : a ∈ rollingRange range xs) : a ∈ xs := by
  unfold rollingRange at member
  dsimp only at member
  split at member
  · cases member
  · exact (mem_of_within member).1

theorem mem_of_sequentialRange {range : SequentialRange} {window : List Artifact}
    (among : window ∈ sequentialRange range xs) (member : a ∈ window) : a ∈ xs := by
  obtain ⟨run, _, rfl⟩ := List.mem_map.mp among
  exact (mem_of_within member).1

end Window

end InputResolution
