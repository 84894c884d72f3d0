import InputResolution.Proofs.Sorting
import InputResolution.Window

/-!
Sorting and deduplication. Both only choose among the artifacts that they get, and neither loses a span.
-/

namespace InputResolution

namespace Window

variable {α : Type} {artifacts : List Artifact} {a : Artifact} {span : Int}

theorem mem_distinctSpans {span : Int} {artifacts : List Artifact} :
    span ∈ distinctSpans artifacts ↔ ∃ a ∈ artifacts, a.span? = some span := by
  simp [distinctSpans, List.mem_filterMap]

theorem mem_of_firstGreatest? {key : α → SortKey} {xs : List α} {x : α} (found : firstGreatest? key xs = some x) :
    x ∈ xs := by
  induction xs generalizing x with
  | nil => cases found
  | cons y rest ih =>
      rw [firstGreatest?] at found
      split at found
      · cases found
        exact List.mem_cons_self
      · next best greatest =>
        split at found
        · cases found
          exact List.mem_cons_of_mem y (ih greatest)
        · cases found
          exact List.mem_cons_self

theorem exists_firstGreatest? (key : α → SortKey) {xs : List α} (nonempty : xs ≠ []) :
    ∃ x, firstGreatest? key xs = some x := by
  cases xs with
  | nil => exact absurd rfl nonempty
  | cons y rest =>
      rw [firstGreatest?]
      split
      · exact ⟨y, rfl⟩
      · split
        · exact ⟨_, rfl⟩
        · exact ⟨y, rfl⟩

theorem mem_ofSpan : a ∈ ofSpan span artifacts ↔ a ∈ artifacts ∧ a.span? = some span := by
  simp [ofSpan]

theorem mem_spanSorted : a ∈ spanSorted artifacts ↔ a ∈ artifacts ∧ a.span?.isSome := by
  unfold spanSorted sortBySpan
  rw [(sortBy_perm _ _).mem_iff]
  simp [spanned]

/-- Every artifact that deduplication keeps stands for its span. -/
theorem mem_latestVersions (member : a ∈ latestVersions artifacts) :
    ∃ span, a.span? = some span ∧ firstGreatest? Artifact.spanKey (ofSpan span artifacts) = some a := by
  obtain ⟨span, _, greatest⟩ := List.mem_filterMap.mp member
  exact ⟨span, (mem_ofSpan.mp (mem_of_firstGreatest? greatest)).2, greatest⟩

theorem mem_of_latestVersions (member : a ∈ latestVersions artifacts) : a ∈ artifacts := by
  obtain ⟨span, _, greatest⟩ := mem_latestVersions member
  exact (mem_ofSpan.mp (mem_of_firstGreatest? greatest)).1

theorem distinctSpans_latestVersions :
    span ∈ distinctSpans (latestVersions artifacts) ↔ span ∈ distinctSpans artifacts := by
  constructor
  · intro member
    obtain ⟨a, kept, placed⟩ := mem_distinctSpans.mp member
    exact mem_distinctSpans.mpr ⟨a, mem_of_latestVersions kept, placed⟩
  · intro member
    obtain ⟨a, held, placed⟩ := mem_distinctSpans.mp member
    have nonempty : ofSpan span artifacts ≠ [] := List.ne_nil_of_mem (mem_ofSpan.mpr ⟨held, placed⟩)
    obtain ⟨best, greatest⟩ := exists_firstGreatest? Artifact.spanKey nonempty
    have kept : best ∈ latestVersions artifacts := List.mem_filterMap.mpr ⟨span, member, greatest⟩
    exact mem_distinctSpans.mpr ⟨best, kept, (mem_ofSpan.mp (mem_of_firstGreatest? greatest)).2⟩

/-- Showing all versions or the latest ones makes no difference to the spans. -/
theorem distinctSpans_finalize (keepAllVersions : Bool) :
    span ∈ distinctSpans (finalize keepAllVersions artifacts) ↔ span ∈ distinctSpans artifacts := by
  cases keepAllVersions with
  | false => exact distinctSpans_latestVersions
  | true =>
      simp only [mem_distinctSpans, finalize, if_true, sortBySpan, (sortBy_perm _ _).mem_iff]

theorem mem_of_finalize {keepAllVersions : Bool} (member : a ∈ finalize keepAllVersions artifacts) : a ∈ artifacts := by
  cases keepAllVersions with
  | false => exact mem_of_latestVersions member
  | true => exact (sortBy_perm _ _).mem_iff.mp member

theorem mem_of_within {keepAllVersions : Bool} {test : Int → Bool}
    (member : a ∈ within keepAllVersions test artifacts) :
    a ∈ artifacts ∧ ∃ span, a.span? = some span ∧ test span = true := by
  obtain ⟨held, passed⟩ := List.mem_filter.mp (mem_of_finalize member)
  exact ⟨held, (Option.any_eq_true _ _).mp passed⟩

theorem distinctSpans_within {keepAllVersions : Bool} {test : Int → Bool} :
    span ∈ distinctSpans (within keepAllVersions test artifacts) ↔
      test span = true ∧ span ∈ distinctSpans artifacts := by
  rw [within, distinctSpans_finalize, mem_distinctSpans, mem_distinctSpans]
  constructor
  · rintro ⟨a, member, placed⟩
    obtain ⟨held, passed⟩ := List.mem_filter.mp member
    rw [placed] at passed
    exact ⟨passed, a, held, placed⟩
  · rintro ⟨passed, a, held, placed⟩
    refine ⟨a, List.mem_filter.mpr ⟨held, ?_⟩, placed⟩
    rw [placed]
    exact passed

end Window

end InputResolution
