import InputResolution.Sorting
import Mathlib.Data.String.Basic
import Mathlib.Tactic

/-!
Sorted lists. Where the keys tell the elements of a list apart, sorting gives one result for all their arrangements. A
list of distinct integers in ascending order is determined by its members, so its length is the size of the set of
these.
-/

namespace InputResolution

variable {α β κ : Type}

/-- Elements with the same key are the same. -/
def Distinguishes (key : α → κ) (xs : List α) : Prop :=
  ∀ x ∈ xs, ∀ y ∈ xs, key x = key y → x = y

theorem Distinguishes.subset {key : α → κ} {xs ys : List α} (apart : Distinguishes key ys)
    (subset : ∀ x ∈ xs, x ∈ ys) : Distinguishes key xs :=
  fun x first y second => apart x (subset x first) y (subset y second)

section

variable [LT κ] [DecidableLT κ]

theorem insertBy_eq_orderedInsert (key : α → κ) (x : α) (xs : List α) :
    insertBy key x xs = xs.orderedInsert (fun x y => ¬key y < key x) x := by
  induction xs with
  | nil => rfl
  | cons y rest ih => rw [insertBy, List.orderedInsert, ih, ite_not]

theorem sortBy_eq_insertionSort (key : α → κ) (xs : List α) :
    sortBy key xs = xs.insertionSort fun x y => ¬key y < key x := by
  induction xs with
  | nil => rfl
  | cons x rest ih => rw [sortBy, List.insertionSort_cons, insertBy_eq_orderedInsert, ih]

theorem sortBy_perm (key : α → κ) (xs : List α) : (sortBy key xs).Perm xs :=
  sortBy_eq_insertionSort key xs ▸ List.perm_insertionSort _ xs

theorem sortBy_map (key : β → κ) (f : α → β) (xs : List α) :
    sortBy key (xs.map f) = (sortBy (fun x => key (f x)) xs).map f := by
  rw [sortBy_eq_insertionSort, sortBy_eq_insertionSort]
  exact (List.map_insertionSort _ _ f xs fun _ _ _ _ => Iff.rfl).symm

end

/-! ## Ordered keys -/

section

variable [LinearOrder κ] {key : α → κ} {xs ys : List α}

theorem total_of_key (key : α → κ) : Std.Total fun x y => key x ≤ key y :=
  ⟨fun x y => le_total (key x) (key y)⟩

theorem isTrans_of_key (key : α → κ) : IsTrans α fun x y => key x ≤ key y :=
  ⟨fun _ _ _ => le_trans⟩

variable [DecidableLT κ]

theorem sortBy_eq_insertionSort_le (key : α → κ) (xs : List α) :
    sortBy key xs = xs.insertionSort fun x y => key x ≤ key y := by
  simp only [sortBy_eq_insertionSort, not_lt]

theorem pairwise_sortBy (key : α → κ) (xs : List α) : (sortBy key xs).Pairwise fun x y => key x ≤ key y := by
  have total := total_of_key key
  have trans := isTrans_of_key key
  exact sortBy_eq_insertionSort_le key xs ▸ List.pairwise_insertionSort _ xs

theorem sortBy_eq_of_perm (apart : Distinguishes key xs) (perm : xs.Perm ys) : sortBy key xs = sortBy key ys := by
  have rearranged := (sortBy_perm key xs).trans (perm.trans (sortBy_perm key ys).symm)
  apply rearranged.eq_of_pairwise _ (pairwise_sortBy key xs) (pairwise_sortBy key ys)
  intro x y first second below above
  have here : x ∈ xs := (sortBy_perm key xs).mem_iff.mp first
  have there : y ∈ xs := perm.mem_iff.mpr ((sortBy_perm key ys).mem_iff.mp second)
  exact apart x here y there (le_antisymm below above)

theorem sortBy_eq_self (ascending : xs.Pairwise fun x y => key x ≤ key y) : sortBy key xs = xs :=
  (sortBy_eq_insertionSort_le key xs).trans ascending.insertionSort_eq

variable {test : α → Bool}

/-- Sorting does not change the order of elements with one key. -/
theorem filter_sortBy (alike : ∀ x y, test x → test y → key x = key y) (xs : List α) :
    (sortBy key xs).filter test = xs.filter test := by
  have total := total_of_key key
  have trans := isTrans_of_key key
  have ordered : (xs.filter test).Pairwise fun x y => key x ≤ key y := by
    apply List.pairwise_of_forall_mem_list
    intro x first y second
    exact le_of_eq (alike x y (List.mem_filter.mp first).2 (List.mem_filter.mp second).2)
  have kept : (xs.filter test).Sublist (sortBy key xs) := by
    rw [sortBy_eq_insertionSort_le]
    exact List.sublist_insertionSort ordered List.filter_sublist
  have within := kept.filter test
  simp only [List.filter_filter, Bool.and_self] at within
  exact (within.eq_of_length ((sortBy_perm key xs).filter test).length_eq.symm).symm

theorem find?_sortBy (alike : ∀ x y, test x → test y → key x = key y) (xs : List α) :
    (sortBy key xs).find? test = xs.find? test := by
  rw [← List.head?_filter, filter_sortBy alike, List.head?_filter]

end

/-! ## Distinct integers -/

theorem mem_insertDistinct {x y : Int} {xs : List Int} : y ∈ insertDistinct x xs ↔ y = x ∨ y ∈ xs := by
  induction xs with
  | nil => simp [insertDistinct]
  | cons z rest ih =>
      simp only [insertDistinct]
      by_cases less : x < z
      · simp [less]
      · by_cases same : x = z
        · simp [same]
        · simp only [if_neg less, if_neg same, List.mem_cons, ih]
          tauto

@[simp]
theorem mem_distinctAscending {y : Int} {xs : List Int} : y ∈ distinctAscending xs ↔ y ∈ xs := by
  induction xs with
  | nil => rfl
  | cons x rest ih => rw [distinctAscending, mem_insertDistinct, ih, List.mem_cons]

theorem pairwise_insertDistinct {x : Int} {xs : List Int} (ascending : xs.Pairwise (· < ·)) :
    (insertDistinct x xs).Pairwise (· < ·) := by
  induction xs with
  | nil => exact List.pairwise_singleton _ x
  | cons z rest ih =>
      have tail := (List.pairwise_cons.mp ascending).2
      have head := (List.pairwise_cons.mp ascending).1
      simp only [insertDistinct]
      by_cases less : x < z
      · rw [if_pos less, List.pairwise_cons]
        refine ⟨?_, ascending⟩
        intro y member
        rcases List.mem_cons.mp member with rfl | later
        · exact less
        · exact lt_trans less (head y later)
      · by_cases same : x = z
        · rw [if_neg less, if_pos same]
          exact ascending
        · rw [if_neg less, if_neg same, List.pairwise_cons]
          refine ⟨?_, ih tail⟩
          intro y member
          rcases mem_insertDistinct.mp member with rfl | later
          · omega
          · exact head y later

theorem pairwise_distinctAscending (xs : List Int) : (distinctAscending xs).Pairwise (· < ·) := by
  induction xs with
  | nil => exact List.Pairwise.nil
  | cons x rest ih => exact pairwise_insertDistinct ih

theorem nodup_distinctAscending (xs : List Int) : (distinctAscending xs).Nodup :=
  (pairwise_distinctAscending xs).imp ne_of_lt

theorem toFinset_distinctAscending (xs : List Int) : (distinctAscending xs).toFinset = xs.toFinset := by
  ext y
  simp

theorem length_distinctAscending (xs : List Int) : (distinctAscending xs).length = xs.toFinset.card := by
  rw [← toFinset_distinctAscending, List.toFinset_card_of_nodup (nodup_distinctAscending xs)]

end InputResolution
