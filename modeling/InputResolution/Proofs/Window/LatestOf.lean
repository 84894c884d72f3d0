import InputResolution.Proofs.Window.DeduplicatedRanges

/-!
The last few. What was created last, and the latest versions of the greatest spans, are the end of a list that is sorted
first. So no more are kept than wanted and no fewer than there are, nothing that is left out comes after anything that
is kept, and to keep fewer of those that were kept is to keep as many from the start.
-/

namespace InputResolution.Window

variable {α : Type} {before : α → α → Prop} {xs ys : List α}

/-- The list keeps `n` of the elements, or all if there are fewer, in their order. The elements are those that are kept
and those that are left out, counted with repetitions, and the latter come before the former. -/
structure KeepsLast (before : α → α → Prop) (n : Nat) (xs kept : List α) : Prop where
  length : kept.length = min n xs.length
  ordered : kept.Pairwise before
  leftOut : ∃ left : List α, xs.Perm (left ++ kept) ∧ ∀ x ∈ left, ∀ y ∈ kept, before x y

theorem length_lastOf (n : Nat) (xs : List α) : (lastOf n xs).length = min n xs.length := by
  rw [lastOf, List.length_drop]
  omega

theorem lastOf_lastOf (m n : Nat) (xs : List α) : lastOf m (lastOf n xs) = lastOf (min m n) xs := by
  have skipped : xs.length - n + (min n xs.length - m) = xs.length - min m n := by omega
  rw [lastOf, length_lastOf, lastOf, List.drop_drop, skipped, lastOf]

theorem lastOf_sublist (n : Nat) (xs : List α) : (lastOf n xs).Sublist xs :=
  List.drop_sublist _ xs

/-- The end of a sorted list keeps the last of whatever was sorted. -/
theorem keepsLast_lastOf (ordered : ys.Pairwise before) (sorted : xs.Perm ys) (n : Nat) :
    KeepsLast before n xs (lastOf n ys) where
  length := by rw [length_lastOf, sorted.length_eq]
  ordered := ordered.sublist (lastOf_sublist n ys)
  leftOut := by
    have split : ys.take (ys.length - n) ++ lastOf n ys = ys := List.take_append_drop _ ys
    rw [← split] at ordered
    exact ⟨ys.take (ys.length - n), sorted.trans (List.Perm.of_eq split.symm), (List.pairwise_append.mp ordered).2.2⟩

def SpanBefore (a b : Artifact) : Prop :=
  ∃ span other, a.span? = some span ∧ b.span? = some other ∧ span < other

theorem latestCreated_latestCreated (m n : Nat) (artifacts : List Artifact) :
    latestCreated m (latestCreated n artifacts) = latestCreated (min m n) artifacts := by
  have ascending := (pairwise_sortBy Artifact.creationKey artifacts).sublist (lastOf_sublist n _)
  calc
    latestCreated m (latestCreated n artifacts) = lastOf m (latestCreated n artifacts) :=
      congrArg (lastOf m) (sortBy_eq_self ascending)
    _ = latestCreated (min m n) artifacts := lastOf_lastOf m n _

/-- The latest versions of some spans are not deduplicated any further. -/
theorem latestVersions_lastOf (n : Nat) (artifacts : List Artifact) :
    latestVersions (lastOf n (latestVersions artifacts)) = lastOf n (latestVersions artifacts) := by
  have keeps := keepsLatest_latestVersions artifacts
  have fewer := lastOf_sublist n (latestVersions artifacts)
  apply (keepsLatest_latestVersions _).unique
  exact keepsLatest_self (keeps.ascending.sublist fewer) fun a member => keeps.placed a (fewer.subset member)

theorem latestVersion_latestVersion (m n : Nat) (artifacts : List Artifact) :
    latestVersion m (latestVersion n artifacts) = latestVersion (min m n) artifacts :=
  calc
    latestVersion m (latestVersion n artifacts) = lastOf m (latestVersion n artifacts) :=
      congrArg (lastOf m) (latestVersions_lastOf n artifacts)
    _ = latestVersion (min m n) artifacts := lastOf_lastOf m n _

/-- The artifacts that were created last are kept in creation order, and the latest versions of the greatest spans in the
order of the spans; these are the last of what deduplication keeps. Fewer of them are found among more of them. -/
theorem keepsLast_latest (artifacts : List Artifact) :
    (∀ n, KeepsLast (fun a b => a.creationKey ≤ b.creationKey) n artifacts (latestCreated n artifacts)) ∧
      (KeepsLatest artifacts (allSpans artifacts) ∧
        ∀ n, KeepsLast SpanBefore n (allSpans artifacts) (latestVersion n artifacts)) ∧
      (∀ m n, latestCreated m (latestCreated n artifacts) = latestCreated (min m n) artifacts) ∧
      ∀ m n, latestVersion m (latestVersion n artifacts) = latestVersion (min m n) artifacts := by
  have created := pairwise_sortBy Artifact.creationKey artifacts
  have sorted := (sortBy_perm Artifact.creationKey artifacts).symm
  have keeps := keepsLatest_latestVersions artifacts
  refine ⟨fun n => keepsLast_lastOf created sorted n, ⟨keeps, fun n => ?_⟩, ?_, ?_⟩
  · exact keepsLast_lastOf keeps.ascending (List.Perm.refl _) n
  · exact fun m n => latestCreated_latestCreated m n artifacts
  · exact fun m n => latestVersion_latestVersion m n artifacts

end InputResolution.Window
