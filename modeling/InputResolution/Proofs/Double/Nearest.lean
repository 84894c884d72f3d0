import InputResolution.Proofs.Double.Interval

/-!
Conversion to the nearest number. The quotient of two natural numbers lies in the rounding interval of the rank that is
taken for it. Since the intervals are in the order of their ranks, conversion keeps the order of whole numbers. It keeps
them apart as long as they have no more than 53 bits.
-/

namespace InputResolution.Double

/-! ## Division -/

/-- A rounded quotient is the one below if the remainder is at most a half, and else the one above; an exact half goes
to the even one. -/
theorem roundDiv_cases (num den : Nat) :
    (roundDiv num den = num / den ∧ 2 * (num % den) ≤ den ∧
        (num / den % 2 = 1 → 2 * (num % den) < den)) ∨
      (roundDiv num den = num / den + 1 ∧ den ≤ 2 * (num % den) ∧
        (num / den % 2 = 0 → den < 2 * (num % den))) := by
  unfold roundDiv
  dsimp only
  split_ifs <;> omega

/-- The binade for a quotient leaves it at most 53 bits, and no fewer unless it is the lowest. -/
theorem mantissa_bounds (quotient : Nat) :
    quotient / 2 ^ (quotient.log2 - 52) < 2 * binadeSize ∧
      (quotient.log2 - 52 = 0 ∨ binadeSize ≤ quotient / 2 ^ (quotient.log2 - 52)) := by
  have below := Nat.lt_log2_self (n := quotient)
  have size : binadeSize = 2 ^ 52 := by decide
  by_cases lowest : quotient.log2 ≤ 52
  · have bits : (2 : Nat) ^ (quotient.log2 + 1) ≤ 2 ^ 53 := Nat.pow_le_pow_right (by decide) (by omega)
    rw [Nat.sub_eq_zero_of_le lowest, pow_zero, Nat.div_one, size]
    exact ⟨by omega, Or.inl rfl⟩
  · have nonzero : quotient ≠ 0 := by
      rintro rfl
      exact lowest (by decide)
    have above := Nat.log2_self_le nonzero
    have split : quotient.log2 = quotient.log2 - 52 + 52 := by omega
    generalize quotient.log2 - 52 = places at split ⊢
    rw [split] at below above
    have positive : 0 < 2 ^ places := Nat.pow_pos (by decide)
    constructor
    · rw [Nat.div_lt_iff_lt_mul positive, size]
      calc quotient < 2 ^ (places + 52 + 1) := below
        _ = 2 * 2 ^ 52 * 2 ^ places := by ring
    · right
      rw [Nat.le_div_iff_mul_le positive, size]
      calc 2 ^ 52 * 2 ^ places = 2 ^ (places + 52) := by ring
        _ ≤ quotient := above

theorem units_mantissa {places mantissa : Nat} (few : mantissa ≤ 2 * binadeSize)
    (many : places = 0 ∨ binadeSize ≤ mantissa) : units (places * binadeSize + mantissa) = mantissa * 2 ^ places := by
  unfold units
  rw [powerOfTwo_eq]
  by_cases last : mantissa = 2 * binadeSize
  · have next : binade (places * binadeSize + mantissa) = places + 1 := by
      unfold binade binadeSize at *
      omega
    have first : places * binadeSize + mantissa - (places + 1) * binadeSize = binadeSize := by
      unfold binadeSize at *
      omega
    rw [next, first, last, pow_succ]
    ring
  · have same : binade (places * binadeSize + mantissa) = places := by
      unfold binade binadeSize at *
      omega
    rw [same, Nat.add_sub_cancel_left]

theorem place_parity (places mantissa : Nat) : (places * binadeSize + mantissa) % 2 = mantissa % 2 := by
  unfold binadeSize
  omega

/-! ## Quotients -/

theorem nearestRank_eq (num den : Nat) :
    nearestRank num den = ((num * one / den).log2 - 52) * binadeSize +
      roundDiv (num * one) (den * 2 ^ ((num * one / den).log2 - 52)) := by
  simp only [nearestRank, powerOfTwo_eq]

/-- A number rounds down to a rank if it is at most half way to the next one; everything is multiplied by `den`. -/
theorem roundsTo_below {number : ℚ} {rank den low rest step : Nat} (positive : 0 < den)
    (scaled : number * one * den = (low + rest : Nat)) (here : units rank * den = low)
    (next : units (rank + 1) * den = low + step) (half : 2 * rest ≤ step) (tie : rank % 2 = 1 → 2 * rest < step) :
    RoundsTo number rank := by
  apply roundsTo_of_scaled (2 * (low + rest)) positive
  · rw [Nat.cast_mul, ← scaled]
    push_cast
    ring
  have before : units (rank - 1) * den ≤ low := by
    rw [← here]
    exact Nat.mul_le_mul_right den (units_strictMono.monotone (Nat.sub_le _ 1))
  rw [Nat.add_mul, Nat.add_mul, here, next]
  by_cases even : rank % 2 = 0
  · rw [if_pos even]
    omega
  · rw [if_neg even]
    have strict : units (rank - 1) * den < low := by
      rw [← here]
      exact Nat.mul_lt_mul_of_pos_right (units_strictMono (by omega)) positive
    omega

theorem roundsTo_above {number : ℚ} {rank den low rest step : Nat} (positive : 0 < den)
    (scaled : number * one * den = (low + rest : Nat)) (here : units rank * den = low)
    (next : units (rank + 1) * den = low + step) (inside : rest < step) (half : step ≤ 2 * rest)
    (tie : rank % 2 = 0 → step < 2 * rest) : RoundsTo number (rank + 1) := by
  apply roundsTo_of_scaled (2 * (low + rest)) positive
  · rw [Nat.cast_mul, ← scaled]
    push_cast
    ring
  have after : low + step < units (rank + 1 + 1) * den := by
    rw [← next]
    exact Nat.mul_lt_mul_of_pos_right (units_strictMono (Nat.lt_succ_self _)) positive
  rw [Nat.add_mul, Nat.add_mul, Nat.add_sub_cancel, here, next]
  by_cases even : rank % 2 = 0
  · rw [if_neg (by omega)]
    have strict := tie even
    omega
  · rw [if_pos (by omega)]
    omega

/-- The quotient lies in the rounding interval of its rank. -/
theorem roundsTo_nearestRank (num : Nat) {den : Nat} (positive : 0 < den) :
    RoundsTo (num / den) (nearestRank num den) := by
  have factor : (den : ℚ) ≠ 0 := by exact_mod_cast positive.ne'
  rw [nearestRank_eq]
  obtain ⟨few, many⟩ := mantissa_bounds (num * one / den)
  rw [Nat.div_div_eq_div_mul] at few many
  generalize (num * one / den).log2 - 52 = places at *
  have divided := Nat.div_add_mod (num * one) (den * 2 ^ places)
  have cases := roundDiv_cases (num * one) (den * 2 ^ places)
  have inside := Nat.mod_lt (num * one) (Nat.mul_pos positive (Nat.pow_pos (n := places) (by decide : 0 < 2)))
  generalize num * one / (den * 2 ^ places) = quotient at *
  generalize num * one % (den * 2 ^ places) = remainder at *
  have scaled : (num / den * one * den : ℚ) = (den * 2 ^ places * quotient + remainder : Nat) := by
    rw [divided, Nat.cast_mul]
    field_simp
  have here : units (places * binadeSize + quotient) * den = den * 2 ^ places * quotient := by
    rw [units_mantissa few.le many]
    ring
  have next : units (places * binadeSize + quotient + 1) * den = den * 2 ^ places * quotient + den * 2 ^ places := by
    have fewer : quotient + 1 ≤ 2 * binadeSize := few
    rw [Nat.add_assoc, units_mantissa fewer (many.imp_right (Nat.le_add_right_of_le ·))]
    ring
  have parity := place_parity places quotient
  cases cases with
  | inl down =>
      obtain ⟨rounded, half, tie⟩ := down
      rw [rounded]
      exact roundsTo_below positive scaled here next half (fun odd => tie (parity.symm.trans odd))
  | inr up =>
      obtain ⟨rounded, half, tie⟩ := up
      rw [rounded, ← Nat.add_assoc]
      exact roundsTo_above positive scaled here next inside half (fun even => tie (parity.symm.trans even))

/-! ## Whole numbers -/

theorem roundsTo_whole (n : Nat) : RoundsTo n (nearestRank n 1) := by
  have rounds := roundsTo_nearestRank n Nat.one_pos
  rwa [Nat.cast_one, div_one] at rounds

theorem nearestRank_mono {low high : Nat} (ordered : low ≤ high) : nearestRank low 1 ≤ nearestRank high 1 :=
  (roundsTo_whole low).mono (by exact_mod_cast ordered) (roundsTo_whole high)

/-- The greatest whole number up to which all of them are magnitudes, `2 ^ 53`. -/
def exactLimit : Nat := 9007199254740992

theorem pow_places_dvd {n : Nat} (exact : n ≤ exactLimit) (zeros : Nat) :
    2 ^ ((n * 2 ^ zeros).log2 - 52) ∣ n * 2 ^ zeros := by
  have limit : exactLimit = 2 ^ 53 := by decide
  rcases exact.lt_or_eq with less | last
  · by_cases zero : n = 0
    · rw [zero, Nat.zero_mul]
      exact Nat.dvd_zero _
    · have nonzero : n * 2 ^ zeros ≠ 0 := Nat.mul_ne_zero zero (by positivity)
      have bits : (n * 2 ^ zeros).log2 < 53 + zeros := by
        rw [Nat.log2_lt nonzero, Nat.pow_add]
        exact Nat.mul_lt_mul_of_pos_right (limit ▸ less) (by positivity)
      exact (Nat.pow_dvd_pow 2 (by omega)).trans (Nat.dvd_mul_left _ n)
  · rw [last, limit, ← Nat.pow_add, Nat.log2_two_pow]
    exact Nat.pow_dvd_pow 2 (Nat.sub_le _ _)

theorem units_nearestRank {n : Nat} (exact : n ≤ exactLimit) : units (nearestRank n 1) = n * one := by
  obtain ⟨zeros, unit⟩ : ∃ zeros, one = 2 ^ zeros := ⟨1074, powerOfTwo_eq 1074⟩
  have divides := pow_places_dvd exact zeros
  rw [← unit] at divides
  obtain ⟨few, many⟩ := mantissa_bounds (n * one)
  rw [nearestRank_eq, Nat.div_one, Nat.one_mul]
  generalize (n * one).log2 - 52 = places at *
  have positive : 0 < 2 ^ places := Nat.pow_pos (by decide)
  rcases roundDiv_cases (n * one) (2 ^ places) with ⟨down, _⟩ | ⟨_, large, _⟩
  · rw [down, units_mantissa few.le many, Nat.div_mul_cancel divides]
  · rw [Nat.mod_eq_zero_of_dvd divides] at large
    omega

theorem placeOfInt_mono {i j : Int} (ordered : i ≤ j) : placeOfInt i ≤ placeOfInt j := by
  unfold placeOfInt
  split_ifs with first second
  · have ranks := nearestRank_mono (by omega : j.natAbs ≤ i.natAbs)
    omega
  · omega
  · omega
  · have ranks := nearestRank_mono (by omega : i.natAbs ≤ j.natAbs)
    omega

theorem natAbs_placeOfInt (i : Int) : (placeOfInt i).natAbs = nearestRank i.natAbs 1 := by
  unfold placeOfInt
  split_ifs <;> omega

/-- Whole numbers with at most 53 bits are kept apart. -/
theorem placeOfInt_injective {i j : Int} (first : i.natAbs ≤ exactLimit) (second : j.natAbs ≤ exactLimit)
    (same : placeOfInt i = placeOfInt j) : i = j := by
  have magnitudes : i.natAbs = j.natAbs := by
    have ranks : nearestRank i.natAbs 1 = nearestRank j.natAbs 1 := by
      rw [← natAbs_placeOfInt, ← natAbs_placeOfInt, same]
    have numbers : i.natAbs * one = j.natAbs * one := by
      rw [← units_nearestRank first, ← units_nearestRank second, ranks]
    exact Nat.eq_of_mul_eq_mul_right one_pos numbers
  by_cases zero : i.natAbs = 0
  · omega
  · have positive : 0 < nearestRank i.natAbs 1 := by
      by_contra least
      have none := units_nearestRank first
      rw [Nat.eq_zero_of_not_pos least] at none
      exact Nat.mul_ne_zero zero one_pos.ne' none.symm
    unfold placeOfInt at same
    rw [← magnitudes] at same
    split_ifs at same <;> omega

/-- A whole number of 64 bits has a nearest number, whose place is the one that the number is compared by. -/
theorem ofInt?_spec {i : Int} (signed : i.natAbs ≤ 2 ^ 63) :
    ∃ x, ofInt? i = some x ∧ x.place = placeOfInt i ∧ RoundsTo i.natAbs x.rank := by
  have finite : nearestRank i.natAbs 1 < rankCount :=
    lt_of_le_of_lt (nearestRank_mono signed) (by decide +kernel)
  refine ⟨⟨decide (i < 0), nearestRank i.natAbs 1, finite⟩, dif_pos finite, ?_, roundsTo_whole i.natAbs⟩
  simp only [place, placeOfInt, decide_eq_true_eq]

end InputResolution.Double
