import InputResolution.Proofs.Window.Versions

/-!
Keys of sorting. A sorted list ascends by its keys, and a greatest element is one that no key exceeds. Where the keys
tell the elements of a list apart, both are settled by the elements alone, whatever their order in the list.
-/

namespace InputResolution

variable {α : Type} {key : α → SortKey} {xs ys : List α} {x y : α}

/-! ## Greatest elements -/

/-- An element of a list whose key no other exceeds; an empty list has none. -/
def IsGreatest? (key : α → SortKey) (xs : List α) : Option α → Prop
  | none => xs = []
  | some x => x ∈ xs ∧ ∀ y ∈ xs, key y ≤ key x

theorem isGreatest?_cons_below {best : α} (greatest : IsGreatest? key xs (some best)) (below : key x ≤ key best) :
    IsGreatest? key (x :: xs) (some best) :=
  ⟨List.mem_cons_of_mem x greatest.1, List.forall_mem_cons.mpr ⟨below, greatest.2⟩⟩

theorem isGreatest?_cons_above {best : α} (greatest : IsGreatest? key xs (some best)) (above : key best ≤ key x) :
    IsGreatest? key (x :: xs) (some x) :=
  ⟨List.mem_cons_self, List.forall_mem_cons.mpr ⟨le_rfl, fun y member => le_trans (greatest.2 y member) above⟩⟩

theorem isGreatest?_singleton (x : α) : IsGreatest? key [x] (some x) :=
  ⟨List.mem_singleton_self x, fun _ member => le_of_eq (congrArg key (List.mem_singleton.mp member))⟩

theorem isGreatest?_latestBy? (key : α → SortKey) (xs : List α) : IsGreatest? key xs (latestBy? key xs) := by
  induction xs with
  | nil => rfl
  | cons x rest ih =>
      rw [latestBy?]
      cases found : latestBy? key rest with
      | none =>
          rw [found] at ih
          cases show rest = [] from ih
          exact isGreatest?_singleton x
      | some best =>
          rw [found] at ih
          dsimp only
          split
          · next less => exact isGreatest?_cons_above ih (le_of_lt less)
          · next notLess => exact isGreatest?_cons_below ih (not_lt.mp notLess)

theorem isGreatest?_firstGreatest? (key : α → SortKey) (xs : List α) :
    IsGreatest? key xs (Window.firstGreatest? key xs) := by
  induction xs with
  | nil => rfl
  | cons x rest ih =>
      rw [Window.firstGreatest?]
      cases found : Window.firstGreatest? key rest with
      | none =>
          rw [found] at ih
          cases show rest = [] from ih
          exact isGreatest?_singleton x
      | some best =>
          rw [found] at ih
          dsimp only
          split
          · next less => exact isGreatest?_cons_below ih (le_of_lt less)
          · next notLess => exact isGreatest?_cons_above ih (not_lt.mp notLess)

/-- The members of a list settle its greatest element. -/
theorem IsGreatest?.unique {found other : Option α} (greatest : IsGreatest? key xs found)
    (otherGreatest : IsGreatest? key ys other) (apart : Distinguishes key xs) (same : ∀ x, x ∈ xs ↔ x ∈ ys) :
    found = other := by
  cases found with
  | none =>
      cases show xs = [] from greatest
      cases other with
      | none => rfl
      | some y => cases (same y).mpr otherGreatest.1
  | some x =>
      cases other with
      | none =>
          cases show ys = [] from otherGreatest
          cases (same x).mp greatest.1
      | some y =>
          have there : y ∈ xs := (same y).mpr otherGreatest.1
          have equal : key x = key y := le_antisymm (otherGreatest.2 x ((same x).mp greatest.1)) (greatest.2 y there)
          exact congrArg some (apart x greatest.1 y there equal)

theorem latestBy?_eq_of_mem_iff (apart : Distinguishes key xs) (same : ∀ x, x ∈ xs ↔ x ∈ ys) :
    latestBy? key xs = latestBy? key ys :=
  (isGreatest?_latestBy? key xs).unique (isGreatest?_latestBy? key ys) apart same

theorem mem_of_latestBy? (found : latestBy? key xs = some x) : x ∈ xs := by
  have greatest := isGreatest?_latestBy? key xs
  rw [found] at greatest
  exact greatest.1

theorem eq_nil_of_latestBy? (none : latestBy? key xs = none) : xs = [] := by
  have greatest := isGreatest?_latestBy? key xs
  rw [none] at greatest
  exact greatest

/-! ## Elements once -/

section Repetitions

variable {same : α → α → Bool}

theorem eraseRepsBy_loop (first : α) (rest seen : List α) :
    List.eraseRepsBy.loop same first rest seen = seen.reverse ++ (first :: rest).eraseRepsBy same := by
  rw [List.eraseRepsBy]
  induction rest generalizing first seen with
  | nil => simp [List.eraseRepsBy.loop]
  | cons next rest ih =>
      rw [List.eraseRepsBy.loop, List.eraseRepsBy.loop]
      split
      · exact ih first seen
      · rw [ih next (first :: seen), ih next [first]]
        simp

/-- Of two neighbours that are the same the second one goes. -/
theorem eraseRepsBy_cons_cons (first next : α) (rest : List α) :
    (first :: next :: rest).eraseRepsBy same =
      if same first next then (first :: rest).eraseRepsBy same else first :: (next :: rest).eraseRepsBy same := by
  rw [List.eraseRepsBy, List.eraseRepsBy.loop]
  cases same first next with
  | true => rfl
  | false => exact eraseRepsBy_loop next rest [first]

theorem mem_of_eraseRepsBy (member : x ∈ xs.eraseRepsBy same) : x ∈ xs := by
  cases xs with
  | nil => exact member
  | cons first rest =>
      induction rest generalizing first with
      | nil => exact member
      | cons next rest ih =>
          rw [eraseRepsBy_cons_cons] at member
          split at member
          · exact ((List.sublist_cons_self next rest).cons_cons first).subset (ih first member)
          · rcases List.mem_cons.mp member with rfl | later
            · exact List.mem_cons_self
            · exact List.mem_cons_of_mem first (ih next later)

theorem mem_eraseRepsBy (equal : ∀ x ∈ xs, ∀ y ∈ xs, same x y = true → x = y) :
    x ∈ xs.eraseRepsBy same ↔ x ∈ xs := by
  refine ⟨mem_of_eraseRepsBy, ?_⟩
  cases xs with
  | nil => exact id
  | cons first rest =>
      induction rest generalizing first with
      | nil => exact id
      | cons next rest ih =>
          have fewer : first :: rest ⊆ first :: next :: rest :=
            ((List.sublist_cons_self next rest).cons_cons first).subset
          intro member
          rw [eraseRepsBy_cons_cons]
          split
          · next dropped =>
            obtain rfl := equal first List.mem_cons_self next (List.mem_cons_of_mem _ List.mem_cons_self) dropped
            refine ih first (fun y here z there => equal y (fewer here) z (fewer there)) ?_
            exact List.mem_cons.mpr ((List.mem_cons.mp member).elim Or.inl List.mem_cons.mp)
          · rcases List.mem_cons.mp member with rfl | later
            · exact List.mem_cons_self
            · refine List.mem_cons_of_mem first (ih next (fun y here z there => ?_) later)
              exact equal y (List.mem_cons_of_mem first here) z (List.mem_cons_of_mem first there)

/-- Where elements with one key are the same, those that are left ascend strictly. -/
theorem pairwise_eraseRepsBy (ascending : xs.Pairwise fun x y => key x ≤ key y)
    (alike : ∀ x ∈ xs, ∀ y ∈ xs, key x = key y → same x y = true) :
    (xs.eraseRepsBy same).Pairwise fun x y => key x < key y := by
  cases xs with
  | nil => exact List.Pairwise.nil
  | cons first rest =>
      induction rest generalizing first with
      | nil => exact List.pairwise_singleton _ first
      | cons next rest ih =>
          have fewer := (List.sublist_cons_self next rest).cons_cons first
          obtain ⟨above, tail⟩ := List.pairwise_cons.mp ascending
          rw [eraseRepsBy_cons_cons]
          split
          · exact ih first (ascending.sublist fewer) fun x here y there =>
              alike x (fewer.subset here) y (fewer.subset there)
          · next kept =>
            have apart : key first < key next := by
              refine lt_of_le_of_ne (above next List.mem_cons_self) fun equal => kept ?_
              exact alike first List.mem_cons_self next (List.mem_cons_of_mem _ List.mem_cons_self) equal
            refine List.pairwise_cons.mpr ⟨fun y later => lt_of_lt_of_le apart ?_, ih next tail ?_⟩
            · rcases List.mem_cons.mp (mem_of_eraseRepsBy later) with rfl | behind
              · exact le_rfl
              · exact (List.pairwise_cons.mp tail).1 y behind
            · exact fun x here y there =>
                alike x (List.mem_cons_of_mem first here) y (List.mem_cons_of_mem first there)

end Repetitions

/-- The list has the elements that are wanted, each once, in ascending order of their keys. -/
structure Lists (key : α → SortKey) (wanted : α → Prop) (listed : List α) : Prop where
  mem_iff : ∀ x, x ∈ listed ↔ wanted x
  ascending : listed.Pairwise fun x y => key x < key y

theorem Lists.unique {wanted : α → Prop} (lists : Lists key wanted xs) (also : Lists key wanted ys) : xs = ys := by
  have irreflexive : Std.Irrefl fun x y : α => key x < key y := ⟨fun x => lt_irrefl (key x)⟩
  have antisymmetric : Std.Antisymm fun x y : α => key x < key y := ⟨fun _ _ less more => absurd more (lt_asymm less)⟩
  exact lists.ascending.eq_of_mem_iff also.ascending fun x => (lists.mem_iff x).trans (also.mem_iff x).symm

theorem lists_sortBy (apart : Distinguishes key xs) (distinct : xs.Nodup) : Lists key (· ∈ xs) (sortBy key xs) where
  mem_iff _ := (sortBy_perm key xs).mem_iff
  ascending := by
    have different : (sortBy key xs).Nodup := (sortBy_perm key xs).nodup_iff.mpr distinct
    refine ((pairwise_sortBy key xs).and different).imp_of_mem fun {x y} first second ordered => ?_
    refine lt_of_le_of_ne ordered.1 fun equal => ordered.2 ?_
    exact apart x ((sortBy_perm key xs).mem_iff.mp first) y ((sortBy_perm key xs).mem_iff.mp second) equal

theorem lists_eraseRepsBy {same : α → α → Bool} (equal : ∀ x ∈ xs, ∀ y ∈ xs, same x y = true → x = y)
    (alike : ∀ x ∈ xs, ∀ y ∈ xs, key x = key y → same x y = true) :
    Lists key (· ∈ xs) ((sortBy key xs).eraseRepsBy same) := by
  have members : ∀ x, x ∈ sortBy key xs ↔ x ∈ xs := fun _ => (sortBy_perm key xs).mem_iff
  constructor
  · intro x
    rw [mem_eraseRepsBy, members]
    exact fun y first z second => equal y ((members y).mp first) z ((members z).mp second)
  · apply pairwise_eraseRepsBy (pairwise_sortBy key xs)
    exact fun y first z second => alike y ((members y).mp first) z ((members z).mp second)

end InputResolution
