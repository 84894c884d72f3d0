import InputResolution.Double.Decimal
import Mathlib.Tactic

/-!
Rounding intervals. Neighbouring magnitudes differ by a power of two that never shrinks, the interval of a rank reaches
half way to both neighbours, and no number lies in the intervals of two ranks. Seventeen digits are always enough to hit
the interval, so the search for the fewest digits finds a multiple in it.
-/

namespace InputResolution.Double

theorem powerOfTwo_eq (places : Nat) : powerOfTwo places = 2 ^ places := by
  rw [powerOfTwo, Nat.shiftLeft_eq, one_mul]

theorem one_pos : 0 < one := by
  rw [one, powerOfTwo_eq]
  positivity

theorem units_succ (rank : Nat) : units (rank + 1) = units rank + 2 ^ binade rank := by
  simp only [units, powerOfTwo_eq]
  by_cases sameBinade : binade (rank + 1) = binade rank
  · have inside : rank + 1 - binade rank * binadeSize = (rank - binade rank * binadeSize) + 1 := by
      unfold binade binadeSize
      omega
    rw [sameBinade, inside, add_mul, one_mul]
  · have next : binade (rank + 1) = binade rank + 1 := by
      unfold binade binadeSize at *
      omega
    have last : rank - binade rank * binadeSize = 2 * binadeSize - 1 := by
      unfold binade binadeSize at *
      omega
    have first : rank + 1 - (binade rank + 1) * binadeSize = binadeSize := by
      unfold binade binadeSize at *
      omega
    rw [next, last, first, pow_succ]
    unfold binadeSize
    omega

theorem units_strictMono : StrictMono units :=
  strictMono_nat_of_lt_succ fun rank => by
    rw [units_succ]
    exact Nat.lt_add_of_pos_right (by positivity)

theorem binade_mono {low high : Nat} (ordered : low ≤ high) : binade low ≤ binade high := by
  have quotients := Nat.div_le_div_right (c := binadeSize) ordered
  unfold binade
  omega

/-- A magnitude has at most 53 significant bits. -/
theorem units_lt (rank : Nat) : units rank < 2 ^ 53 * 2 ^ binade rank := by
  rw [units, powerOfTwo_eq]
  have mantissa : rank - binade rank * binadeSize < 2 ^ 53 := by
    unfold binade binadeSize
    omega
  exact Nat.mul_lt_mul_of_pos_right mantissa (by positivity)

/-! ## Intervals -/

/-- A number rounds to a rank: twice the number lies between the sums of the rank's magnitude and its neighbours'. The
ends belong to the interval if the rank is even. -/
def RoundsTo (number : ℚ) (rank : Nat) : Prop :=
  let doubled := 2 * number * one
  let low : ℚ := units (rank - 1) + units rank
  let high : ℚ := units rank + units (rank + 1)
  if rank % 2 = 0 then low ≤ doubled ∧ doubled ≤ high else low < doubled ∧ doubled < high

theorem RoundsTo.low_le {number : ℚ} {rank : Nat} (rounds : RoundsTo number rank) :
    (units (rank - 1) + units rank : ℚ) ≤ 2 * number * one := by
  unfold RoundsTo at rounds
  split at rounds
  · exact rounds.1
  · exact rounds.1.le

theorem RoundsTo.le_high {number : ℚ} {rank : Nat} (rounds : RoundsTo number rank) :
    2 * number * one ≤ (units rank + units (rank + 1) : ℚ) := by
  unfold RoundsTo at rounds
  split at rounds
  · exact rounds.2
  · exact rounds.2.le

/-- Of two ranks whose intervals hold numbers in the other order, the intervals would have to share an end, and both
ranks would be even neighbours. -/
theorem RoundsTo.mono {number other : ℚ} {low high : Nat} (ordered : number ≤ other) (below : RoundsTo number low)
    (above : RoundsTo other high) : low ≤ high := by
  by_contra reversed
  have doubled : 2 * number * one ≤ 2 * other * one :=
    mul_le_mul_of_nonneg_right (by linarith) (Nat.cast_nonneg one)
  have first : (units high : ℚ) ≤ units (low - 1) := by
    exact_mod_cast units_strictMono.monotone (by omega : high ≤ low - 1)
  have second : (units (high + 1) : ℚ) ≤ units low := by
    exact_mod_cast units_strictMono.monotone (by omega : high + 1 ≤ low)
  have upper := above.le_high
  have lower := below.low_le
  have neighbours : low = high + 1 := by
    have same : (units (high + 1) : ℚ) = units low := by linarith
    exact (units_strictMono.injective (by exact_mod_cast same)).symm
  unfold RoundsTo at below above
  by_cases even : high % 2 = 0
  · rw [if_neg (by omega)] at below
    linarith [below.1]
  · rw [if_neg even] at above
    linarith [above.2]

theorem RoundsTo.unique {number : ℚ} {first second : Nat} (one : RoundsTo number first)
    (other : RoundsTo number second) : first = second :=
  Nat.le_antisymm (one.mono le_rfl other) (other.mono le_rfl one)

theorem RoundsTo.pos {number : ℚ} {rank : Nat} (rounds : RoundsTo number rank) (positive : 0 < rank) : 0 < number := by
  have low := rounds.low_le
  have some : (0 : ℚ) < units rank := by
    exact_mod_cast lt_of_le_of_lt (Nat.zero_le _) (units_strictMono positive)
  have rest : (0 : ℚ) ≤ units (rank - 1) := Nat.cast_nonneg _
  have unit : (0 : ℚ) < one := by exact_mod_cast one_pos
  by_contra notPositive
  have : 2 * number * one ≤ 0 := mul_nonpos_of_nonpos_of_nonneg (by linarith) unit.le
  linarith

/-! ## Multiples of powers of ten -/

theorem ten_zpow_mul (place : Int) :
    (10 : ℚ) ^ place * (Nat.pow 10 (-place).toNat : Nat) = (Nat.pow 10 place.toNat : Nat) := by
  rcases le_total 0 place with positive | negative
  · obtain ⟨n, rfl⟩ := Int.eq_ofNat_of_zero_le positive
    simp
  · obtain ⟨n, opposite⟩ := Int.eq_ofNat_of_zero_le (Int.neg_nonneg.mpr negative)
    obtain rfl : place = -n := by omega
    simp

theorem roundsTo_of_scaled {number : ℚ} {rank down : Nat} (product : Nat) (positive : 0 < down)
    (scaled : 2 * number * one * down = product)
    (inside : if rank % 2 = 0 then
        (units (rank - 1) + units rank) * down ≤ product ∧ product ≤ (units rank + units (rank + 1)) * down
      else (units (rank - 1) + units rank) * down < product ∧ product < (units rank + units (rank + 1)) * down) :
    RoundsTo number rank := by
  have factor : (0 : ℚ) < down := by exact_mod_cast positive
  unfold RoundsTo
  by_cases even : rank % 2 = 0
  · rw [if_pos even] at inside ⊢
    constructor
    · refine le_of_mul_le_mul_right ?_ factor
      rw [scaled]
      exact_mod_cast inside.1
    · refine le_of_mul_le_mul_right ?_ factor
      rw [scaled]
      exact_mod_cast inside.2
  · rw [if_neg even] at inside ⊢
    constructor
    · refine lt_of_mul_lt_mul_right ?_ factor.le
      rw [scaled]
      exact_mod_cast inside.1
    · refine lt_of_mul_lt_mul_right ?_ factor.le
      rw [scaled]
      exact_mod_cast inside.2

/-- A multiple that the search on a grid returns lies in the rounding interval. -/
theorem roundsTo_of_onGrid? {rank multiple : Nat} {place : Int} (found : onGrid? rank place = some multiple) :
    RoundsTo (multiple * 10 ^ place) rank := by
  have scale := ten_zpow_mul place
  have down_pos : 0 < Nat.pow 10 (-place).toNat := Nat.pow_pos (by decide)
  have up_pos : 0 < Nat.pow 10 place.toNat := Nat.pow_pos (by decide)
  unfold onGrid? at found
  dsimp only at found
  generalize Nat.pow 10 (-place).toNat = down at *
  generalize Nat.pow 10 place.toNat = up at *
  apply roundsTo_of_scaled (2 * (multiple * (one * up))) down_pos
  · push_cast
    rw [← scale]
    ring
  have below_le := Nat.div_mul_le_self (units rank * down) (one * up)
  have lt_above := Nat.lt_div_mul_add (a := units rank * down) (Nat.mul_pos one_pos up_pos)
  have lower : units (rank - 1) * down ≤ units rank * down :=
    Nat.mul_le_mul_right down (units_strictMono.monotone (by omega))
  have upper : units rank * down < units (rank + 1) * down :=
    Nat.mul_lt_mul_of_pos_right (units_strictMono (by omega)) down_pos
  generalize units rank * down / (one * up) = below at *
  generalize one * up = step at *
  have above : (below + 1) * step = below * step + step := Nat.succ_mul below step
  by_cases even : rank % 2 = 0
  · simp only [if_pos even, Nat.sub_mul, Nat.add_mul, decide_eq_true_eq] at found ⊢
    split at found
    · next taken =>
      cases found
      omega
    · split at found
      · next taken =>
        cases found
        omega
      · cases found
  · simp only [if_neg even, Nat.sub_mul, Nat.add_mul, decide_eq_true_eq] at found ⊢
    split at found
    · next taken =>
      cases found
      omega
    · split at found
      · next taken =>
        cases found
        omega
      · cases found

/-! ## Seventeen digits -/

theorem leadingPlace_le {rank : Nat} (positive : 0 < rank) :
    (10 : ℚ) ^ leadingPlace rank * one ≤ units rank := by
  have units_pos : 0 < units rank := lt_of_le_of_lt (Nat.zero_le _) (units_strictMono positive)
  unfold leadingPlace
  dsimp only
  split
  · next whole =>
    generalize lengths : (Nat.toDigits 10 (units rank / one)).length = count
    have count_pos : 0 < count := lengths ▸ Nat.length_toDigits_pos
    have reached : 10 ^ (count - 1) ≤ units rank / one := by
      by_cases single : count - 1 = 0
      · rw [single]
        exact whole
      · refine Nat.not_lt.mp fun small => ?_
        have fewer := (Nat.length_toDigits_le_iff (by decide) (Nat.pos_of_ne_zero single)).mpr small
        omega
    have product : 10 ^ (count - 1) * one ≤ units rank :=
      (Nat.mul_le_mul_right one reached).trans (Nat.div_mul_le_self _ _)
    rw [show (count : Int) - 1 = ((count - 1 : Nat) : Int) by omega, zpow_natCast]
    exact_mod_cast product
  · next fractional =>
    generalize lengths : (Nat.toDigits 10 ((one - 1) / units rank)).length = count
    have count_pos : 0 < count := lengths ▸ Nat.length_toDigits_pos
    have bounded : (one - 1) / units rank < 10 ^ count :=
      (Nat.length_toDigits_le_iff (by decide) count_pos).mp lengths.le
    have product : one ≤ units rank * 10 ^ count := by
      have below := (Nat.div_lt_iff_lt_mul units_pos).mp bounded
      rw [Nat.mul_comm] at below
      omega
    rw [zpow_neg, zpow_natCast, inv_mul_le_iff₀ (by positivity), mul_comm]
    exact_mod_cast product

/-- A grid that is finer than the gaps to both neighbours has a multiple in the rounding interval. -/
theorem onGrid?_of_fine {rank : Nat} {place : Int}
    (low : one * Nat.pow 10 place.toNat < (units rank - units (rank - 1)) * Nat.pow 10 (-place).toNat)
    (high : one * Nat.pow 10 place.toNat < (units (rank + 1) - units rank) * Nat.pow 10 (-place).toNat) :
    ∃ multiple, onGrid? rank place = some multiple := by
  unfold onGrid?
  dsimp only
  generalize (units rank - units (rank - 1)) * Nat.pow 10 (-place).toNat = lowGap at *
  generalize (units (rank + 1) - units rank) * Nat.pow 10 (-place).toNat = highGap at *
  have above := Nat.lt_div_mul_add (a := units rank * Nat.pow 10 (-place).toNat)
    (Nat.mul_pos one_pos (Nat.pow_pos (n := place.toNat) (by decide : 0 < 10)))
  have below := Nat.div_mul_le_self (units rank * Nat.pow 10 (-place).toNat) (one * Nat.pow 10 place.toNat)
  generalize one * Nat.pow 10 place.toNat = step at *
  generalize units rank * Nat.pow 10 (-place).toNat = number at *
  have next : (number / step + 1) * step = number / step * step + step := Nat.succ_mul _ _
  generalize number / step = quotient at *
  by_cases even : rank % 2 = 0
  · simp only [if_pos even, decide_eq_true_eq]
    split
    · exact ⟨quotient, rfl⟩
    · split
      · exact ⟨quotient + 1, rfl⟩
      · omega
  · simp only [if_neg even, decide_eq_true_eq]
    split
    · exact ⟨quotient, rfl⟩
    · split
      · exact ⟨quotient + 1, rfl⟩
      · omega

theorem units_lt_gap {rank : Nat} (positive : 0 < rank) :
    units rank < 10 ^ 16 * (units rank - units (rank - 1)) ∧
      units rank - units (rank - 1) ≤ units (rank + 1) - units rank := by
  obtain ⟨before, rfl⟩ : ∃ before, rank = before + 1 := ⟨rank - 1, by omega⟩
  have bits := units_lt before
  have here := units_succ before
  have after := units_succ (before + 1)
  have spacing : 2 ^ binade before ≤ 2 ^ binade (before + 1) :=
    Nat.pow_le_pow_right (by decide) (binade_mono (by omega))
  rw [Nat.add_sub_cancel]
  omega

/-- With seventeen digits the grid is finer than the gaps. -/
theorem exists_onGrid? {rank : Nat} (positive : 0 < rank) :
    ∃ multiple, onGrid? rank (leadingPlace rank - 16) = some multiple := by
  obtain ⟨wide, wider⟩ := units_lt_gap positive
  have reached := leadingPlace_le positive
  have scale := ten_zpow_mul (leadingPlace rank - 16)
  have down_pos : 0 < Nat.pow 10 (-(leadingPlace rank - 16)).toNat := Nat.pow_pos (by decide)
  have fine : one * Nat.pow 10 (leadingPlace rank - 16).toNat <
      (units rank - units (rank - 1)) * Nat.pow 10 (-(leadingPlace rank - 16)).toNat := by
    generalize Nat.pow 10 (-(leadingPlace rank - 16)).toNat = down at *
    generalize Nat.pow 10 (leadingPlace rank - 16).toNat = up at *
    generalize units rank - units (rank - 1) = gap at *
    have split : (10 : ℚ) ^ leadingPlace rank = 10 ^ (leadingPlace rank - 16) * 10 ^ 16 := by
      rw [← zpow_natCast, ← zpow_add₀ (by norm_num)]
      norm_num
    have factor : (0 : ℚ) < down := by exact_mod_cast down_pos
    have width : (units rank : ℚ) < 10 ^ 16 * gap := by exact_mod_cast wide
    have inRationals : (one : ℚ) * up < gap * down := by
      rw [← scale]
      have narrow : (10 : ℚ) ^ (leadingPlace rank - 16) * one < gap := by
        rw [split] at reached
        linarith
      calc (one : ℚ) * (10 ^ (leadingPlace rank - 16) * down)
          = 10 ^ (leadingPlace rank - 16) * one * down := by ring
        _ < gap * down := mul_lt_mul_of_pos_right narrow factor
    exact_mod_cast inRationals
  exact onGrid?_of_fine fine (fine.trans_le (Nat.mul_le_mul_right _ wider))

end InputResolution.Double
