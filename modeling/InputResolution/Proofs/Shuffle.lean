import InputResolution.Evaluation
import InputResolution.Shuffle
import Mathlib.Tactic

/-!
Seeded shuffles as permutations of positions. The exchanges that a seed stands for do not look at elements, so they
arrange the positions of a list and move whatever stands there. Every position but the first is exchanged once, with one
that is not behind it. So a shuffle of so many elements is a product of transpositions, and the seed and the number of
elements settle this product. The words that a draw rejects only move the keystream on.
-/

namespace InputResolution

variable {α β : Type}

/-! ## Exchanges -/

theorem swapIfInBounds_perm (xs : Array α) (i j : Nat) : (xs.swapIfInBounds i j).Perm xs := by
  rw [Array.swapIfInBounds_def]
  split
  · split
    · exact Array.swap_perm _ _
    · exact Array.Perm.refl xs
  · exact Array.Perm.refl xs

theorem map_swapIfInBounds (f : α → β) (xs : Array α) (i j : Nat) :
    (xs.swapIfInBounds i j).map f = (xs.map f).swapIfInBounds i j := by
  by_cases first : i < xs.size
  · by_cases second : j < xs.size
    · simp [Array.swapIfInBounds_def, Array.swap_def, first, second]
    · simp [Array.swapIfInBounds_def, first, second]
  · simp [Array.swapIfInBounds_def, first]

theorem exchanged_perm (exchanges : List (Nat × Nat)) (xs : Array α) :
    (exchanges.foldl (fun ys pair => ys.swapIfInBounds pair.1 pair.2) xs).Perm xs := by
  induction exchanges generalizing xs with
  | nil => exact Array.Perm.refl xs
  | cons pair rest ih => exact (ih _).trans (swapIfInBounds_perm xs pair.1 pair.2)

theorem map_exchanged (f : α → β) (exchanges : List (Nat × Nat)) (xs : Array α) :
    (exchanges.foldl (fun ys pair => ys.swapIfInBounds pair.1 pair.2) xs).map f =
      exchanges.foldl (fun ys pair => ys.swapIfInBounds pair.1 pair.2) (xs.map f) := by
  induction exchanges generalizing xs with
  | nil => rfl
  | cons pair rest ih => rw [List.foldl_cons, List.foldl_cons, ih, map_swapIfInBounds]

/-! ## Shuffles -/

theorem shuffle_perm (seed : UInt64) (xs : List α) : (shuffle seed xs).Perm xs :=
  (exchanged_perm (Shuffle.exchanges seed xs.length) xs.toArray).toList

/-- A shuffle moves elements without looking at them. -/
theorem map_shuffle (f : α → β) (seed : UInt64) (xs : List α) : (shuffle seed xs).map f = shuffle seed (xs.map f) := by
  unfold shuffle
  rw [← Array.toList_map, map_exchanged, List.map_toArray, List.length_map]

/-- The positions that a shuffle of so many elements takes them from, in the order of its result. -/
def Shuffle.positions (seed : UInt64) (length : Nat) : List Nat :=
  shuffle seed (List.range length)

structure Arranges (positions : List Nat) (xs ys : List α) : Prop where
  perm : positions.Perm (List.range xs.length)
  placed : ys.map some = positions.map fun position => xs[position]?

/-- What stands where after a shuffle is settled by the seed and the number of elements. -/
theorem arranges_shuffle (seed : UInt64) (xs : List α) :
    Arranges (Shuffle.positions seed xs.length) xs (shuffle seed xs) where
  perm := shuffle_perm seed (List.range xs.length)
  placed := by
    have all : (List.range xs.length).map (fun position => xs[position]?) = xs.map some := by
      apply List.ext_getElem (by simp)
      intro index bound other
      simp
    rw [Shuffle.positions, map_shuffle, map_shuffle, all]

namespace Shuffle

/-! ## Draws -/

/-- A draw takes words until it keeps one, and this many in all. -/
inductive Draws (bound : Nat) : Nat → Keystream → Nat × Keystream → Prop where
  | kept {s : Keystream} (fits : s.next.1.toNat * bound % wordCount ≤ zone bound) :
      Draws bound 1 s (s.next.1.toNat * bound / wordCount, s.next.2)
  | again {words : Nat} {s : Keystream} {drawn : Nat × Keystream}
      (rejected : ¬s.next.1.toNat * bound % wordCount ≤ zone bound) (later : Draws bound words s.next.2 drawn) :
      Draws bound (words + 1) s drawn

/-- The exchanges for positions `count` down to 1 if every draw may take as many words as are tried. -/
inductive Schedules : Nat → Keystream → List (Nat × Nat) → Prop where
  | done (s : Keystream) : Schedules 0 s []
  | draw {count words other : Nat} {s after : Keystream} {rest : List (Nat × Nat)}
      (drawn : Draws (count + 2) words s (other, after)) (tried : words ≤ maxTries)
      (later : Schedules count after rest) : Schedules (count + 1) s ((count + 1, other) :: rest)

theorem Draws.drawBelow_eq {bound words tries : Nat} {s : Keystream} {drawn : Nat × Keystream}
    (draws : Draws bound words s drawn) (tried : words ≤ tries) : drawBelow bound tries s = drawn := by
  induction draws generalizing tries with
  | kept fits =>
      obtain ⟨left, rfl⟩ : ∃ left, tries = left + 1 := ⟨tries - 1, by omega⟩
      exact if_pos fits
  | again rejected later ih =>
      obtain ⟨left, rfl⟩ : ∃ left, tries = left + 1 := ⟨tries - 1, by omega⟩
      exact (if_neg rejected).trans (ih (by omega))

theorem Schedules.exchangesFrom_eq {count : Nat} {s : Keystream} {exchanges : List (Nat × Nat)}
    (schedules : Schedules count s exchanges) : exchangesFrom count s = exchanges := by
  induction schedules with
  | done s => rfl
  | draw drawn tried later ih => simp only [exchangesFrom, drawn.drawBelow_eq tried, ih]

theorem drawBelow_lt {bound : Nat} (positive : 0 < bound) (tries : Nat) (s : Keystream) :
    (drawBelow bound tries s).1 < bound := by
  induction tries generalizing s with
  | zero => exact positive
  | succ tries ih =>
      simp only [drawBelow]
      split
      · apply Nat.div_lt_of_lt_mul
        exact Nat.mul_lt_mul_of_pos_right s.next.1.toNat_lt positive
      · exact ih s.next.2

theorem mem_exchangesFrom {count : Nat} {s : Keystream} {pair : Nat × Nat} (member : pair ∈ exchangesFrom count s) :
    pair.2 ≤ pair.1 ∧ pair.1 ≤ count := by
  induction count generalizing s with
  | zero => cases member
  | succ count ih =>
      have below := drawBelow_lt (Nat.succ_pos (count + 1)) maxTries s
      rw [exchangesFrom] at member
      generalize drawBelow (count + 2) maxTries s = drawn at member below
      rcases List.mem_cons.mp member with rfl | later
      · exact ⟨Nat.le_of_lt_succ below, Nat.le_refl (count + 1)⟩
      · have bounds := ih later
        omega

theorem mem_exchanges {seed : UInt64} {length : Nat} {pair : Nat × Nat} (member : pair ∈ exchanges seed length) :
    pair.2 ≤ pair.1 ∧ pair.1 < length := by
  cases length with
  | zero => cases member
  | succ length =>
      have bounds := mem_exchangesFrom member
      omega

/-! ## Products of transpositions -/

def transposition (length : Nat) (pair : Nat × Nat) : Equiv.Perm (Fin length) :=
  if within : pair.1 < length ∧ pair.2 < length then Equiv.swap ⟨pair.1, within.1⟩ ⟨pair.2, within.2⟩ else 1

/-- Where the elements of a shuffled list of this length come from. -/
def bijection (seed : UInt64) (length : Nat) : Equiv.Perm (Fin length) :=
  ((exchanges seed length).map (transposition length)).prod

theorem getElem?_swapIfInBounds {length : Nat} (xs : Array α) (size : xs.size = length) (pair : Nat × Nat)
    (index : Fin length) :
    (xs.swapIfInBounds pair.1 pair.2)[index.val]? = xs[(transposition length pair index).val]? := by
  subst size
  by_cases within : pair.1 < xs.size ∧ pair.2 < xs.size
  · rw [Array.swapIfInBounds_def, dif_pos within.1, dif_pos within.2, transposition, dif_pos within]
    rw [Equiv.swap_apply_def, Array.getElem?_eq_getElem (by simp), Array.getElem_swap]
    simp only [Fin.ext_iff]
    split_ifs <;> simp
  · rw [transposition, dif_neg within, Array.swapIfInBounds_def]
    split
    · next bound =>
      rw [dif_neg fun other => within ⟨bound, other⟩]
      rfl
    · rfl

theorem getElem?_exchanged {length : Nat} (exchanges : List (Nat × Nat)) (xs : Array α) (size : xs.size = length)
    (index : Fin length) :
    (exchanges.foldl (fun ys pair => ys.swapIfInBounds pair.1 pair.2) xs)[index.val]? =
      xs[((exchanges.map (transposition length)).prod index).val]? := by
  induction exchanges generalizing xs with
  | nil => rfl
  | cons pair rest ih =>
      -- the last exchange is the first to be undone
      calc (rest.foldl (fun ys pair => ys.swapIfInBounds pair.1 pair.2) (xs.swapIfInBounds pair.1 pair.2))[index.val]?
          = (xs.swapIfInBounds pair.1 pair.2)[((rest.map (transposition length)).prod index).val]? :=
            ih _ (Array.size_swapIfInBounds.trans size)
        _ = xs[(transposition length pair ((rest.map (transposition length)).prod index)).val]? :=
            getElem?_swapIfInBounds xs size pair _
        _ = xs[(((pair :: rest).map (transposition length)).prod index).val]? := by
            rw [List.map_cons, List.prod_cons, Equiv.Perm.mul_apply]

end Shuffle

/-! ## Shuffled lists -/

/-- Two lists of this length, of which the second has at every position what the first has where the bijection leads. -/
structure Takes {length : Nat} (positions : Equiv.Perm (Fin length)) (xs ys : List α) : Prop where
  length_given : xs.length = length
  length_taken : ys.length = length
  taken : ∀ index : Fin length, ys[index.val]? = xs[(positions index).val]?

theorem takes_shuffle (seed : UInt64) {length : Nat} {xs : List α} (size : xs.length = length) :
    Takes (Shuffle.bijection seed length) xs (shuffle seed xs) where
  length_given := size
  length_taken := (shuffle_perm seed xs).length_eq.trans size
  taken := by
    subst size
    intro index
    rw [shuffle, Array.getElem?_toList, Shuffle.getElem?_exchanged _ xs.toArray List.size_toArray index]
    exact List.getElem?_toArray

/-- A node that shuffles by a seed takes its list by the bijection of the seed. -/
theorem Node.takes_value {seeding : Seeding} {node : Node} {own : Option UInt64} (shuffles : node.op = .shuffle own)
    {length : Nat} {xs : List Artifact} (size : xs.length = length) :
    ∃ ys, node.value seeding [.list xs] = pure (.ok (.list ys)) ∧
      Takes (Shuffle.bijection (seeding.seedOf node.id own) length) xs ys := by
  obtain ⟨id, op, inputs, shape⟩ := node
  cases shuffles
  exact ⟨_, rfl, takes_shuffle _ size⟩

/-- One bijection of positions for all lists of a length, settled by the seed and the length. It is the product of the
exchanges that are drawn, none of which leaves the list. Every list and every node that shuffles with this seed takes
its elements by it, so a shuffle keeps how often each element occurs and moves whatever replaces the elements. -/
theorem shuffle_takes_bijection (seed : UInt64) (length : Nat) :
    (∀ (α : Type) (xs : List α), xs.length = length → Takes (Shuffle.bijection seed length) xs (shuffle seed xs)) ∧
      (∀ (seeding : Seeding) (node : Node) (own : Option UInt64) (xs : List Artifact), node.op = .shuffle own →
        seeding.seedOf node.id own = seed → xs.length = length →
        ∃ ys, node.value seeding [.list xs] = pure (.ok (.list ys)) ∧ Takes (Shuffle.bijection seed length) xs ys) ∧
      (∀ (xs : List Artifact) (a : Artifact), (shuffle seed xs).count a = xs.count a) ∧
      (∀ (α β : Type) (f : α → β) (xs : List α), shuffle seed (xs.map f) = (shuffle seed xs).map f) ∧
      (∀ pair ∈ Shuffle.exchanges seed length, pair.2 ≤ pair.1 ∧ pair.1 < length) ∧
      ∀ exchanges, Shuffle.Schedules (length - 1) (Keystream.ofSeed seed) exchanges →
        Shuffle.bijection seed length = (exchanges.map (Shuffle.transposition length)).prod := by
  refine ⟨fun α xs size => takes_shuffle seed size, ?_, ?_, ?_, fun pair => Shuffle.mem_exchanges, ?_⟩
  · intro seeding node own xs shuffles same size
    subst same
    exact Node.takes_value shuffles size
  · intro xs a
    exact (shuffle_perm seed xs).count_eq a
  · intro α β f xs
    exact (map_shuffle f seed xs).symm
  · intro exchanges schedules
    rw [Shuffle.bijection, Shuffle.exchanges, schedules.exchangesFrom_eq]

theorem shuffle_takes_bijection_threeLetters :
    shuffle 7 ['a', 'b', 'c'] = ['c', 'a', 'b'] ∧
      Takes (Shuffle.bijection 7 3) [1, 2, 3] (shuffle 7 [1, 2, 3]) ∧
      Takes (Shuffle.bijection 7 3) ['a', 'b', 'c'] (shuffle 7 ['a', 'b', 'c']) ∧
      Shuffle.bijection 7 3 = Shuffle.transposition 3 (2, 1) * Shuffle.transposition 3 (1, 0) := by
  obtain ⟨takes, _, _, _, _, drawn⟩ := shuffle_takes_bijection 7 3
  have schedules : Shuffle.Schedules 2 (Keystream.ofSeed 7) [(2, _), (1, _)] :=
    .draw (.kept (by decide +kernel)) (by decide) (.draw (.kept (by decide +kernel)) (by decide) (.done _))
  have product := drawn _ schedules
  refine ⟨by decide +kernel, takes Nat [1, 2, 3] rfl, takes Char ['a', 'b', 'c'] rfl, product.trans ?_⟩
  decide +kernel

end InputResolution
