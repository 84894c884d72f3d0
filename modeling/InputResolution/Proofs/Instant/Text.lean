import InputResolution.Proofs.Double.Numeral
import InputResolution.Proofs.Instant.Calendar
import InputResolution.Proofs.Steps

/-!
Instants come back from their texts. Every part of a text is a number with all its digits, behind the mark at which the
part before it ends; so the reader takes exactly what the writer gave, and puts the instant together again.
-/

namespace InputResolution.Instant

open Double (AllDigits)

/-! ## Numbers -/

structure Spells (digits : List Char) (n : Nat) : Prop where
  all : AllDigits digits
  value : numberOf digits = n
  nonempty : digits ≠ []

variable {digits rest : List Char} {n : Nat}

theorem numberOf_eq (digits : List Char) : numberOf digits = Nat.ofDigitChars 10 digits 0 := by
  simp only [numberOf, Nat.ofDigitChars_eq_foldl, Nat.mul_comm 10]

theorem toList_padded (width n : Nat) :
    (padded width n).toList =
      List.replicate (width - (Nat.toDigits 10 n).length) '0' ++ Nat.toDigits 10 n :=
  String.toList_ofList

theorem spells_padded (width n : Nat) : Spells (padded width n).toList n := by
  rw [toList_padded]
  have digits := (AllDigits.replicate (width - (Nat.toDigits 10 n).length)).append (AllDigits.toDigits n)
  refine ⟨digits, ?_, List.append_ne_nil_of_right_ne_nil _ Nat.toDigits_ne_nil⟩
  rw [numberOf_eq, Nat.ofDigitChars_append, Nat.ofDigitChars_replicate_zero, Nat.mul_zero]
  exact Nat.ofDigitChars_ten_toDigits

theorem length_padded {width : Nat} (positive : 0 < width) (small : n < 10 ^ width) :
    (padded width n).toList.length = width := by
  have fits := (Nat.length_toDigits_le_iff (by decide) positive).mpr small
  rw [toList_padded, List.length_append, List.length_replicate]
  omega

theorem not_blank_of_isDigit {c : Char} (digit : c.isDigit = true) : isBlankChar c = false := by
  have bounds : 48 ≤ c.toNat ∧ c.toNat ≤ 57 := by
    simpa [Char.isDigit, UInt32.le_iff_toNat_le] using digit
  simp only [isBlankChar, Bool.or_eq_false_iff, Bool.and_eq_false_iff, decide_eq_false_iff_not]
  omega

theorem Spells.skipBlanks (spells : Spells digits n) (rest : List Char) :
    skipBlanks (digits ++ rest) = digits ++ rest := by
  obtain ⟨c, others, rfl⟩ := List.exists_cons_of_ne_nil spells.nonempty
  have shown := not_blank_of_isDigit (spells.all c List.mem_cons_self)
  exact List.dropWhile_cons_of_neg (Bool.eq_false_iff.mp shown)

theorem Spells.readNumber? (spells : Spells digits n) {limit : Nat} (full : digits.length = limit) (rest : List Char) :
    readNumber? limit (digits ++ rest) = some (n, rest) := by
  have taken : ((digits ++ rest).take limit).takeWhile Char.isDigit = digits := by
    rw [List.take_left' full]
    exact List.takeWhile_eq_self_iff.mpr spells.all
  rw [Instant.readNumber?, spells.skipBlanks]
  simp only [taken]
  rw [if_neg (by simpa using spells.nonempty), spells.value, List.drop_left]

theorem readNumber?_padded (small : n < 100) (rest : List Char) :
    readNumber? 2 ((padded 2 n).toList ++ rest) = some (n, rest) :=
  (spells_padded 2 n).readNumber? (length_padded (by decide) small) rest

theorem Spells.takeWhile_isDigit (spells : Spells digits n) (mark : Char) (noDigit : mark.isDigit = false)
    (rest : List Char) : (digits ++ mark :: rest).takeWhile Char.isDigit = digits := by
  rw [List.takeWhile_append_of_pos spells.all, List.takeWhile_cons, noDigit]
  exact List.append_nil digits

theorem Spells.append_ne (spells : Spells digits n) {mark : Char} (noDigit : mark.isDigit = false)
    (rest other : List Char) : digits ++ rest ≠ mark :: other := by
  obtain ⟨c, others, rfl⟩ := List.exists_cons_of_ne_nil spells.nonempty
  intro same
  have digit := spells.all c List.mem_cons_self
  rw [(List.cons.inj same).1, noDigit] at digit
  cases digit

/-! ## Parts of a text -/

theorem toList_dash : "-".toList = ['-'] := rfl

theorem toList_colon : ":".toList = [':'] := rfl

/-- A year without a sign has four digits. -/
theorem readYear?_padded (small : n < 10000) (rest : List Char) :
    readYear? ((padded 4 n).toList ++ rest) = some ((n : Int), rest) := by
  have spells := spells_padded 4 n
  unfold readYear?
  rw [spells.skipBlanks]
  split
  · next same => exact absurd same (spells.append_ne rfl _ _)
  · next same => exact absurd same (spells.append_ne rfl _ _)
  · rw [spells.readNumber? (length_padded (by decide) small)]
    rfl

/-- A year behind a sign has any number of digits. -/
theorem readYear?_signed (spells : Spells digits n) (rest : List Char) :
    readYear? ('-' :: (digits ++ '-' :: rest)) = some (-1 * (n : Int), '-' :: rest) ∧
      readYear? ('+' :: (digits ++ '-' :: rest)) = some (1 * (n : Int), '-' :: rest) := by
  have taken := spells.takeWhile_isDigit '-' rfl rest
  have nonempty : ¬digits.isEmpty = true := by simpa using spells.nonempty
  constructor
  · unfold readYear?
    rw [InputResolution.skipBlanks, List.dropWhile_cons_of_neg (by decide)]
    simp only [taken, if_neg nonempty, spells.value, List.drop_left]
  · unfold readYear?
    rw [InputResolution.skipBlanks, List.dropWhile_cons_of_neg (by decide)]
    simp only [taken, if_neg nonempty, spells.value, List.drop_left]

/-- A year ends at the mark behind it, whatever its sign and its length. -/
theorem readYear?_yearText (year : Int) (rest : List Char) :
    readYear? ((yearText year).toList ++ '-' :: rest) = some (year, '-' :: rest) := by
  have signed := readYear?_signed (spells_padded 4 year.natAbs) rest
  unfold yearText
  split
  · rw [readYear?_padded (by omega), Int.toNat_of_nonneg (by omega)]
  · rw [String.toList_append]
    split
    · rw [toList_dash, List.singleton_append, List.cons_append, signed.1, show -1 * (year.natAbs : Int) = year by omega]
    · rw [show "+".toList = ['+'] from rfl, List.singleton_append, List.cons_append, signed.2,
        show 1 * (year.natAbs : Int) = year by omega]

theorem readFraction?_padded {width : Nat} (positive : 0 < width) (most : width ≤ 9) (small : n < 10 ^ width) :
    readFraction? (("." ++ padded width n).toList ++ ['Z']) = some (n * 10 ^ (9 - width), ['Z']) := by
  have spells := spells_padded width n
  have length := length_padded positive small
  have digits := spells.takeWhile_isDigit 'Z' rfl []
  rw [String.toList_append, show ".".toList = ['.'] from rfl, List.singleton_append, List.cons_append]
  simp only [readFraction?, digits]
  rw [if_neg (by simpa using spells.nonempty), List.take_of_length_le (by omega), spells.value, List.drop_left, length]
  rfl

theorem readFraction?_fractionText {nanos : Nat} (small : nanos < 1000000000) :
    readFraction? ((fractionText nanos).toList ++ ['Z']) = some (nanos, ['Z']) := by
  unfold fractionText
  split
  · next whole =>
    rw [whole]
    rfl
  · split
    · rw [readFraction?_padded (by decide) (by decide) (by omega), show nanos / 1000000 * 10 ^ (9 - 3) = nanos by omega]
    · split
      · rw [readFraction?_padded (by decide) (by decide) (by omega), show nanos / 1000 * 10 ^ (9 - 6) = nanos by omega]
      · rw [readFraction?_padded (by decide) (by decide) (by omega), show nanos * 10 ^ (9 - 9) = nanos by omega]

/-! ## Instants -/

/-- The instant is on a day of the calendar, and if it is in a leap second then this second ends a minute. -/
def OnCalendar (t : Instant) : Prop :=
  Date.firstDay ≤ t.seconds / 86400 ∧ t.seconds / 86400 ≤ Date.lastDay ∧ (t.nanos < 1000000000 ∨ t.seconds % 60 = 59)

instance (t : Instant) : Decidable t.OnCalendar :=
  inferInstanceAs (Decidable (_ ∧ _ ∧ _))

theorem OnCalendar.ofParts?_eq {t : Instant} (on : t.OnCalendar) {second leap : Nat}
    (counted : second = (t.seconds % 86400).toNat) (beyond : leap = t.nanos / 1000000000) :
    ofParts? (Date.ofDays (t.seconds / 86400)) (second / 3600) (second / 60 % 60) (second % 60 + leap)
      (t.nanos % 1000000000) 0 = some t := by
  obtain ⟨first, last, ends⟩ := on
  have nanos := t.nanos_lt
  have valid := Date.isValid_ofDays first last
  have leaps : (if second % 60 + leap = 60 then 1 else 0) = leap := by split <;> omega
  have whole : t.seconds / 86400 * 86400 + (second / 3600 : Nat) * 3600 + (second / 60 % 60 : Nat) * 60 +
      (second % 60 + leap - leap : Nat) - 0 = t.seconds := by omega
  have held : t.nanos % 1000000000 + leap * 1000000000 = t.nanos := by omega
  have time : second / 3600 ≤ 23 ∧ second / 60 % 60 ≤ 59 ∧ second % 60 + leap ≤ 60 := by omega
  have within : Date.firstDay * 86400 ≤ t.seconds ∧ t.seconds < (Date.lastDay + 1) * 86400 := by omega
  simp only [ofParts?, leaps, Date.toDays_ofDays, valid, whole, held, time, nanos, within]
  rfl

/-- The parts of a text, each of them up to the mark of the next one. -/
theorem toList_text (t : Instant) :
    t.text.toList =
      let date := Date.ofDays (t.seconds / 86400)
      let second := (t.seconds % 86400).toNat
      (yearText date.year).toList ++ '-' :: ((padded 2 date.month).toList ++ '-' ::
        ((padded 2 date.day).toList ++ 'T' :: ((padded 2 (second / 3600)).toList ++ ':' ::
          ((padded 2 (second / 60 % 60)).toList ++ ':' ::
            ((padded 2 (second % 60 + t.nanos / 1000000000)).toList ++
              ((fractionText (t.nanos % 1000000000)).toList ++ ['Z'])))))) := by
  simp only [text, String.toList_append, toList_dash, toList_colon, show "T".toList = ['T'] from rfl,
    show "Z".toList = ['Z'] from rfl, List.append_assoc, List.cons_append, List.nil_append]

theorem two_digits_of_isValid {date : Date} (valid : date.isValid = true) : date.month < 100 ∧ date.day < 100 := by
  have length : Date.daysInMonth date.year date.month ≤ 31 := by
    unfold Date.daysInMonth
    split_ifs <;> decide
  simp only [Date.isValid, Bool.and_eq_true, decide_eq_true_eq] at valid
  omega

/-- What is written for an instant of the calendar is read as this instant. -/
theorem read?_text {t : Instant} (on : t.OnCalendar) : read? t.text = some t := by
  have nanos := t.nanos_lt
  have parts := on.ofParts?_eq rfl rfl
  have bound : (t.seconds % 86400).toNat < 86400 := by omega
  have shown := toList_text t
  obtain ⟨month, day⟩ := two_digits_of_isValid (Date.isValid_ofDays on.1 on.2.1)
  generalize Date.ofDays (t.seconds / 86400) = date at parts month day shown
  generalize (t.seconds % 86400).toNat = second at parts bound shown
  have dash : ∀ rest, readMark? '-' ('-' :: rest) = some rest := fun _ => rfl
  have colon : ∀ rest, readMark? ':' (':' :: rest) = some rest := fun _ => rfl
  have hours := readNumber?_padded (show second / 3600 < 100 by omega)
  have minutes := readNumber?_padded (show second / 60 % 60 < 100 by omega)
  have seconds := readNumber?_padded (show second % 60 + t.nanos / 1000000000 < 100 by omega)
  have fraction := readFraction?_fractionText (show t.nanos % 1000000000 < 1000000000 by omega)
  rw [read?, shown]
  refine Steps.bind_eq_some (readYear?_yearText date.year _) ?_
  refine Steps.bind_eq_some (dash _) ?_
  refine Steps.bind_eq_some (readNumber?_padded month _) ?_
  refine Steps.bind_eq_some (dash _) ?_
  refine Steps.bind_eq_some (readNumber?_padded day _) ?_
  refine (if_pos (by decide)).trans ?_
  refine Steps.bind_eq_some rfl ?_
  refine Steps.bind_eq_some (hours _) ?_
  refine Steps.bind_eq_some (colon _) ?_
  refine Steps.bind_eq_some (minutes _) ?_
  refine Steps.bind_eq_some (colon _) ?_
  refine Steps.bind_eq_some (seconds _) ?_
  refine Steps.bind_eq_some fraction ?_
  refine Steps.bind_eq_some (a := (0, [])) rfl ?_
  exact Steps.bind_eq_some (a := ()) rfl parts

/-- A leap second within a minute is written as the second after it. -/
example : read? (⟨0, 1000000000, by decide⟩ : Instant).text = some (ofSeconds 1) := by decide +kernel

end InputResolution.Instant
