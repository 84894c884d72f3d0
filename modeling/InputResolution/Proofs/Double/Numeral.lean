import InputResolution.Proofs.Double.Interval
import Mathlib.Data.List.TakeWhile

/-!
What numerals stand for. The numeral of a double stands for a number in the rounding interval of its rank, in each of
the notations. So different doubles have different texts.
-/

namespace InputResolution.Double

def exponentOf : List Char → Int
  | _ :: '-' :: digits => -(Nat.ofDigitChars 10 digits 0)
  | _ :: _ :: digits => Nat.ofDigitChars 10 digits 0
  | _ => 0

/-- The number that the digits of a numeral make without the point, and the power of ten to multiply it by. -/
def numeral (chars : List Char) : Nat × Int :=
  let mantissa := chars.takeWhile (· ≠ 'e')
  let whole := mantissa.takeWhile (· ≠ '.')
  let fraction := (mantissa.dropWhile (· ≠ '.')).drop 1
  (Nat.ofDigitChars 10 (whole ++ fraction) 0, exponentOf (chars.dropWhile (· ≠ 'e')) - fraction.length)

def numeralValue (chars : List Char) : ℚ :=
  (numeral chars).1 * 10 ^ (numeral chars).2

def AllDigits (chars : List Char) : Prop :=
  ∀ c ∈ chars, c.isDigit = true

theorem AllDigits.toDigits (n : Nat) : AllDigits (Nat.toDigits 10 n) :=
  fun _ member => Nat.isDigit_of_mem_toDigits (by decide) (by decide) member

theorem AllDigits.replicate (count : Nat) : AllDigits (List.replicate count '0') := by
  intro c member
  rw [List.eq_of_mem_replicate member]
  rfl

theorem AllDigits.append {front back : List Char} (first : AllDigits front) (second : AllDigits back) :
    AllDigits (front ++ back) := by
  intro c member
  rcases List.mem_append.mp member with here | there
  · exact first c here
  · exact second c there

theorem AllDigits.of_subset {some all : List Char} (digits : AllDigits all) (subset : some ⊆ all) : AllDigits some :=
  fun c member => digits c (subset member)

theorem AllDigits.ne {chars : List Char} (digits : AllDigits chars) {other : Char} (mark : other.isDigit = false) :
    ∀ c ∈ chars, decide (c ≠ other) = true := by
  intro c member
  have digit := digits c member
  rw [decide_eq_true_eq]
  rintro rfl
  rw [mark] at digit
  cases digit

theorem takeWhile_digits {chars : List Char} (digits : AllDigits chars) {mark : Char} (noDigit : mark.isDigit = false)
    (rest : List Char) : (chars ++ mark :: rest).takeWhile (· ≠ mark) = chars := by
  rw [List.takeWhile_append_of_pos (digits.ne noDigit), List.takeWhile_cons]
  simp

theorem dropWhile_digits {chars : List Char} (digits : AllDigits chars) {mark : Char} (noDigit : mark.isDigit = false)
    (rest : List Char) : (chars ++ mark :: rest).dropWhile (· ≠ mark) = mark :: rest := by
  rw [List.dropWhile_append_of_pos (digits.ne noDigit), List.dropWhile_cons]
  simp

theorem numeral_pointed {whole fraction : List Char} (first : AllDigits whole) (second : AllDigits fraction) :
    numeral (whole ++ '.' :: fraction) = (Nat.ofDigitChars 10 (whole ++ fraction) 0, -(fraction.length : Int)) := by
  have noMark : ∀ c ∈ whole ++ '.' :: fraction, decide (c ≠ 'e') = true := by
    intro c member
    rcases List.mem_append.mp member with early | late
    · exact first.ne (by decide) c early
    · rcases List.mem_cons.mp late with rfl | late
      · decide
      · exact second.ne (by decide) c late
  have mantissa : (whole ++ '.' :: fraction).takeWhile (· ≠ 'e') = whole ++ '.' :: fraction :=
    List.takeWhile_eq_self_iff.mpr noMark
  have exponent : (whole ++ '.' :: fraction).dropWhile (· ≠ 'e') = [] :=
    List.dropWhile_eq_nil_iff.mpr noMark
  simp only [numeral, mantissa, exponent, takeWhile_digits first (by decide : '.'.isDigit = false),
    dropWhile_digits first (by decide : '.'.isDigit = false), List.drop_one, List.tail_cons, exponentOf, zero_sub]

theorem exponentOf_signed (sign : Char) (exponent : List Char) :
    exponentOf ('e' :: sign :: exponent) =
      if sign = '-' then -(Nat.ofDigitChars 10 exponent 0 : Int) else Nat.ofDigitChars 10 exponent 0 := by
  split
  · next same =>
    subst same
    rfl
  · next different =>
    unfold exponentOf
    split
    · next same =>
      simp only [List.cons.injEq] at same
      exact absurd same.2.1 different
    · next same =>
      simp only [List.cons.injEq] at same
      rw [same.2.2]
    · next impossible => exact absurd rfl (impossible 'e' sign exponent)

theorem numeral_scientific {whole fraction exponent : List Char} (first : AllDigits whole)
    (second : AllDigits fraction) (sign : Char) :
    numeral (whole ++ (if fraction = [] then [] else '.' :: fraction) ++ 'e' :: sign :: exponent) =
      (Nat.ofDigitChars 10 (whole ++ fraction) 0,
        (if sign = '-' then -(Nat.ofDigitChars 10 exponent 0 : Int) else Nat.ofDigitChars 10 exponent 0) -
          fraction.length) := by
  have noMark : ∀ c ∈ whole ++ (if fraction = [] then [] else '.' :: fraction), decide (c ≠ 'e') = true := by
    intro c member
    rcases List.mem_append.mp member with early | late
    · exact first.ne (by decide) c early
    · split at late
      · cases late
      · rcases List.mem_cons.mp late with rfl | late
        · decide
        · exact second.ne (by decide) c late
  unfold numeral
  rw [List.takeWhile_append_of_pos noMark, List.dropWhile_append_of_pos noMark]
  simp only [List.takeWhile_cons, List.dropWhile_cons, ne_eq, not_true_eq_false, decide_false, Bool.false_eq_true,
    if_false, List.append_nil, exponentOf_signed]
  split
  · next noFraction =>
    subst noFraction
    rw [List.append_nil, List.takeWhile_eq_self_iff.mpr (first.ne (by decide)),
      List.dropWhile_eq_nil_iff.mpr (first.ne (by decide)), List.drop_nil, List.append_nil]
  · have whole_part := takeWhile_digits first (by decide : '.'.isDigit = false) fraction
    have rest_part := dropWhile_digits first (by decide : '.'.isDigit = false) fraction
    simp only [ne_eq] at whole_part rest_part
    rw [whole_part, rest_part, List.drop_one, List.tail_cons]

/-! ## The layout of digits -/

theorem numeralValue_below_one {digits : List Char} (all : AllDigits digits) (zeros : Nat) :
    numeralValue ('0' :: '.' :: (List.replicate zeros '0' ++ digits)) =
      Nat.ofDigitChars 10 digits 0 * 10 ^ (-((zeros + digits.length : Nat) : Int)) := by
  have single : AllDigits ['0'] := AllDigits.replicate 1
  have pointed := numeral_pointed single ((AllDigits.replicate zeros).append all)
  rw [List.singleton_append] at pointed
  have leading : Nat.ofDigitChars 10 (['0'] ++ (List.replicate zeros '0' ++ digits)) 0 =
      Nat.ofDigitChars 10 digits 0 := by
    rw [Nat.ofDigitChars_append, Nat.ofDigitChars_append, Nat.ofDigitChars_replicate_zero]
    rfl
  rw [numeralValue, pointed, leading, List.length_append, List.length_replicate]

theorem numeralValue_whole {digits : List Char} (all : AllDigits digits) (zeros : Nat) :
    numeralValue (digits ++ List.replicate zeros '0' ++ ['.', '0']) =
      Nat.ofDigitChars 10 digits 0 * 10 ^ (zeros : Int) := by
  have single : AllDigits ['0'] := AllDigits.replicate 1
  have padded : Nat.ofDigitChars 10 (digits ++ List.replicate zeros '0' ++ ['0']) 0 =
      Nat.ofDigitChars 10 digits 0 * 10 ^ zeros * 10 := by
    rw [Nat.ofDigitChars_append, Nat.ofDigitChars_append, Nat.ofDigitChars_replicate_zero]
    change 10 * (10 ^ zeros * _) + 0 = _
    ring
  rw [numeralValue, numeral_pointed (all.append (AllDigits.replicate zeros)) single, padded]
  push_cast
  rw [List.length_singleton, Nat.cast_one, zpow_neg, zpow_one, zpow_natCast]
  ring

theorem numeralValue_split {digits : List Char} (all : AllDigits digits) {whole : Nat}
    (inside : whole ≤ digits.length) :
    numeralValue (digits.take whole ++ '.' :: digits.drop whole) =
      Nat.ofDigitChars 10 digits 0 * 10 ^ ((whole : Int) - digits.length) := by
  rw [numeralValue, numeral_pointed (all.of_subset (List.take_subset _ _)) (all.of_subset (List.drop_subset _ _)),
    List.take_append_drop]
  congr 2
  rw [List.length_drop]
  omega

theorem numeralValue_exponent {digits : List Char} (all : AllDigits digits) (some : digits ≠ []) (place : Int) :
    numeralValue (digits.take 1 ++ (if digits.drop 1 = [] then [] else '.' :: digits.drop 1) ++
        'e' :: (if place < 0 then '-' else '+') :: Nat.toDigits 10 place.natAbs) =
      Nat.ofDigitChars 10 digits 0 * 10 ^ (place + 1 - digits.length) := by
  have length_pos := List.length_pos_of_ne_nil some
  rw [numeralValue, numeral_scientific (all.of_subset (List.take_subset _ _)) (all.of_subset (List.drop_subset _ _)),
    List.take_append_drop, Nat.ofDigitChars_ten_toDigits]
  congr 2
  rw [List.length_drop]
  split
  · next negative =>
    rw [if_pos rfl]
    omega
  · next positive =>
    rw [if_neg (by decide)]
    omega

/-- In every notation the digits stand for themselves, the first of them at its place. -/
theorem numeralValue_layout {digits : List Char} (all : AllDigits digits) (some : digits ≠ []) (place : Int) :
    numeralValue (layout digits place) =
      Nat.ofDigitChars 10 digits 0 * 10 ^ (place + 1 - digits.length) := by
  have length_pos := List.length_pos_of_ne_nil some
  unfold layout
  split
  · next small =>
    rw [numeralValue_below_one all]
    congr 2
    omega
  · split
    · next notSmall medium =>
      dsimp only
      split
      · next fits =>
        rw [numeralValue_whole all]
        congr 2
        omega
      · next long =>
        rw [numeralValue_split all (by omega)]
        congr 2
        omega
    · have branches : (if digits.length ≤ 1 then [] else '.' :: digits.drop 1) =
          if digits.drop 1 = [] then [] else '.' :: digits.drop 1 := by
        simp only [List.drop_eq_nil_iff]
      dsimp only
      rw [branches]
      exact numeralValue_exponent all some place

/-! ## Texts of doubles -/

def stripZeros (digits : List Char) : List Char :=
  (digits.reverse.dropWhile (· = '0')).reverse

theorem stripZeros_append (digits : List Char) :
    ∃ zeros, digits = stripZeros digits ++ List.replicate zeros '0' := by
  refine ⟨(digits.reverse.takeWhile (· = '0')).length, ?_⟩
  have same : digits.reverse.takeWhile (· = '0') =
      List.replicate (digits.reverse.takeWhile (· = '0')).length '0' := by
    apply List.eq_replicate_of_mem
    intro c member
    simpa using List.mem_takeWhile_imp member
  rw [stripZeros, ← List.reverse_replicate, ← same, ← List.reverse_append, List.takeWhile_append_dropWhile,
    List.reverse_reverse]

/-- The digits that are written come from a multiple of a power of ten that rounds to the rank. -/
theorem shortestDigits_eq {rank : Nat} (positive : 0 < rank) :
    ∃ (multiple : Nat) (place : Int), RoundsTo (multiple * 10 ^ place) rank ∧
      shortestDigits rank =
        (stripZeros (Nat.toDigits 10 multiple), place + (Nat.toDigits 10 multiple).length - 1) := by
  obtain ⟨last, reachable⟩ := exists_onGrid? positive
  unfold shortestDigits
  dsimp only
  generalize searched : (List.range 17).findSome? (fun (extra : Nat) =>
    (onGrid? rank (leadingPlace rank - extra)).map fun multiple => (multiple, leadingPlace rank - extra)) = found
  cases found with
  | none =>
    have missed := List.findSome?_eq_none_iff.mp searched 16 (by decide)
    simp [reachable] at missed
  | some result =>
    obtain ⟨extra, _, hit⟩ := List.exists_of_findSome?_eq_some searched
    obtain ⟨multiple, onGrid, rfl⟩ := Option.map_eq_some_iff.mp hit
    exact ⟨multiple, leadingPlace rank - extra, roundsTo_of_onGrid? onGrid, rfl⟩

def magnitude (rank : Nat) : List Char :=
  if rank = 0 then ['0', '.', '0'] else layout (shortestDigits rank).1 (shortestDigits rank).2

theorem toList_text (x : Double) :
    x.text.toList = if x.negative then '-' :: magnitude x.rank else magnitude x.rank := by
  unfold text magnitude
  rw [String.toList_ofList]

theorem numeralValue_magnitude_zero : numeralValue (magnitude 0) = 0 := by
  have single : AllDigits ['0'] := AllDigits.replicate 1
  rw [magnitude, if_pos rfl, numeralValue, show ['0', '.', '0'] = ['0'] ++ '.' :: ['0'] from rfl,
    numeral_pointed single single, show Nat.ofDigitChars 10 (['0'] ++ ['0']) 0 = 0 from rfl, Nat.cast_zero, zero_mul]

theorem shortestDigits_spec {rank : Nat} (positive : 0 < rank) :
    AllDigits (shortestDigits rank).1 ∧ (shortestDigits rank).1 ≠ [] ∧
      RoundsTo (Nat.ofDigitChars 10 (shortestDigits rank).1 0 *
        10 ^ ((shortestDigits rank).2 + 1 - (shortestDigits rank).1.length)) rank := by
  obtain ⟨multiple, place, rounds, found⟩ := shortestDigits_eq positive
  obtain ⟨zeros, stripped⟩ := stripZeros_append (Nat.toDigits 10 multiple)
  have digits := AllDigits.toDigits multiple
  have number := Nat.ofDigitChars_ten_toDigits (n := multiple)
  rw [found]
  dsimp only
  generalize stripZeros (Nat.toDigits 10 multiple) = kept at *
  rw [stripped] at digits number ⊢
  rw [Nat.ofDigitChars_append, Nat.ofDigitChars_replicate_zero] at number
  have value : (Nat.ofDigitChars 10 kept 0 : ℚ) *
      10 ^ (place + ((kept ++ List.replicate zeros '0').length : Int) - 1 + 1 - kept.length) =
        multiple * 10 ^ place := by
    rw [List.length_append, List.length_replicate, ← number]
    push_cast
    rw [show place + ((kept.length : Int) + zeros) - 1 + 1 - kept.length = zeros + place by ring,
      zpow_add₀ (by norm_num), zpow_natCast]
    ring
  refine ⟨digits.of_subset (List.subset_append_left _ _), ?_, value ▸ rounds⟩
  rintro rfl
  have nothing : multiple = 0 := by rw [← number, Nat.ofDigitChars_nil, Nat.mul_zero]
  have above := rounds.pos positive
  rw [nothing, Nat.cast_zero, zero_mul] at above
  exact lt_irrefl 0 above

/-- The written magnitude stands for a number in the rounding interval. -/
theorem roundsTo_magnitude {rank : Nat} (positive : 0 < rank) : RoundsTo (numeralValue (magnitude rank)) rank := by
  obtain ⟨digits, some, rounds⟩ := shortestDigits_spec positive
  rw [magnitude, if_neg (by omega), numeralValue_layout digits some]
  exact rounds

theorem magnitude_injective : Function.Injective magnitude := by
  intro first second same
  rcases Nat.eq_zero_or_pos first with rfl | firstPositive
  · rcases Nat.eq_zero_or_pos second with rfl | secondPositive
    · rfl
    · have above := (roundsTo_magnitude secondPositive).pos secondPositive
      rw [← same, numeralValue_magnitude_zero] at above
      exact absurd above (lt_irrefl 0)
  · rcases Nat.eq_zero_or_pos second with rfl | secondPositive
    · have above := (roundsTo_magnitude firstPositive).pos firstPositive
      rw [same, numeralValue_magnitude_zero] at above
      exact absurd above (lt_irrefl 0)
    · have firstRounds := roundsTo_magnitude firstPositive
      rw [same] at firstRounds
      exact firstRounds.unique (roundsTo_magnitude secondPositive)

/-! ## Characters of numerals -/

def NumeralChar (c : Char) : Prop :=
  c.isDigit = true ∨ c = '.' ∨ c = 'e' ∨ c = '+' ∨ c = '-'

theorem numeralChar_layout {digits : List Char} (all : AllDigits digits) (place : Int) :
    ∀ c ∈ layout digits place, NumeralChar c := by
  intro c member
  have digit : ∀ part : List Char, AllDigits part → c ∈ part → NumeralChar c :=
    fun _ every here => Or.inl (every c here)
  have point : c = '.' → NumeralChar c := fun same => Or.inr (Or.inl same)
  have zero : c = '0' → NumeralChar c := by
    rintro rfl
    exact Or.inl rfl
  unfold layout at member
  dsimp only at member
  split at member
  · simp only [List.mem_cons, List.mem_append] at member
    rcases member with here | here | here | here
    · exact zero here
    · exact point here
    · exact digit _ (AllDigits.replicate _) here
    · exact digit _ all here
  · split at member
    · split at member
      · simp only [List.mem_cons, List.mem_append, List.not_mem_nil, or_false] at member
        rcases member with (here | here) | here | here
        · exact digit _ all here
        · exact digit _ (AllDigits.replicate _) here
        · exact point here
        · exact zero here
      · simp only [List.mem_cons, List.mem_append] at member
        rcases member with here | here | here
        · exact digit _ all (List.mem_of_mem_take here)
        · exact point here
        · exact digit _ all (List.mem_of_mem_drop here)
    · simp only [List.mem_cons, List.mem_append] at member
      rcases member with (here | here) | here | here | here
      · exact digit _ all (List.mem_of_mem_take here)
      · split at here
        · cases here
        · rcases List.mem_cons.mp here with here | here
          · exact point here
          · exact digit _ all (List.mem_of_mem_drop here)
      · exact Or.inr (Or.inr (Or.inl here))
      · split at here
        · exact Or.inr (Or.inr (Or.inr (Or.inr here)))
        · exact Or.inr (Or.inr (Or.inr (Or.inl here)))
      · exact digit _ (AllDigits.toDigits _) here

/-- A numeral has a point or the mark of an exponent, which no integer has. -/
theorem marked_layout (digits : List Char) (place : Int) : '.' ∈ layout digits place ∨ 'e' ∈ layout digits place := by
  unfold layout
  dsimp only
  split
  · exact Or.inl (by simp)
  · split
    · split
      · exact Or.inl (by simp)
      · exact Or.inl (by simp)
    · exact Or.inr (by simp)

theorem head_layout {digits : List Char} (all : AllDigits digits) (some : digits ≠ []) (place : Int) :
    ∃ c rest, layout digits place = c :: rest ∧ c.isDigit = true := by
  obtain ⟨c, rest, rfl⟩ := List.exists_cons_of_ne_nil some
  have first : c.isDigit = true := all c List.mem_cons_self
  unfold layout
  dsimp only
  split
  · exact ⟨_, _, rfl, rfl⟩
  · split
    · split
      · exact ⟨_, _, rfl, first⟩
      · exact ⟨_, _, rfl, first⟩
    · exact ⟨_, _, rfl, first⟩

theorem magnitude_spec (rank : Nat) :
    (∀ c ∈ magnitude rank, NumeralChar c) ∧ ('.' ∈ magnitude rank ∨ 'e' ∈ magnitude rank) ∧
      ∃ c rest, magnitude rank = c :: rest ∧ c.isDigit = true := by
  unfold magnitude
  split
  · refine ⟨?_, Or.inl (by simp), _, _, rfl, rfl⟩
    simp [NumeralChar]
  · next positive =>
    obtain ⟨digits, some, _⟩ := shortestDigits_spec (Nat.pos_of_ne_zero positive)
    exact ⟨numeralChar_layout digits _, marked_layout _ _, head_layout digits some _⟩

theorem numeralChar_text (x : Double) : ∀ c ∈ x.text.toList, NumeralChar c := by
  rw [toList_text]
  split
  · intro c member
    rcases List.mem_cons.mp member with rfl | later
    · exact Or.inr (Or.inr (Or.inr (Or.inr rfl)))
    · exact (magnitude_spec x.rank).1 c later
  · exact (magnitude_spec x.rank).1

theorem marked_text (x : Double) : '.' ∈ x.text.toList ∨ 'e' ∈ x.text.toList := by
  rw [toList_text]
  split
  · exact (magnitude_spec x.rank).2.1.imp (List.mem_cons_of_mem _) (List.mem_cons_of_mem _)
  · exact (magnitude_spec x.rank).2.1

theorem magnitude_ne_minus (rank other : Nat) : magnitude rank ≠ '-' :: magnitude other := by
  obtain ⟨c, rest, same, digit⟩ := (magnitude_spec rank).2.2
  rw [same]
  rintro minus
  rw [(List.cons.inj minus).1] at digit
  cases digit

/-- Different doubles have different texts; the two zeros differ too. -/
theorem text_injective : Function.Injective text := by
  intro x y same
  have chars := congrArg String.toList same
  rw [toList_text, toList_text] at chars
  obtain ⟨xNegative, xRank, xBound⟩ := x
  obtain ⟨yNegative, yRank, yBound⟩ := y
  cases xNegative with
  | false =>
    cases yNegative with
    | false =>
      cases magnitude_injective chars
      rfl
    | true => exact absurd chars (magnitude_ne_minus xRank yRank)
  | true =>
    cases yNegative with
    | false => exact absurd chars.symm (magnitude_ne_minus yRank xRank)
    | true =>
      cases magnitude_injective (List.cons.inj chars).2
      rfl

end InputResolution.Double
