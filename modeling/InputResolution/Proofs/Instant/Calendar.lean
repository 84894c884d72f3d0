import InputResolution.Instant
import Mathlib.Tactic.ByContra
import Mathlib.Tactic.SplitIfs

/-!
The days of the calendar. Years are counted from March, so that a day is a year and a number of days after the first of
March; each day lies in exactly one year. So the number of a day makes a date, and the date gives the number back.
-/

namespace InputResolution.Date

/-! ## Years from March -/

/-- How many days come before a year, from the first of March of the year 0. -/
def daysBefore (year : Int) : Int :=
  365 * year + year / 4 - year / 100 + year / 400

/-- How many days of an era come before a day, without the leap days. -/
def commonDays (dayOfEra : Int) : Int :=
  dayOfEra - dayOfEra / 1460 + dayOfEra / 36524 - dayOfEra / 146096

theorem commonDays_mono {day other : Int} (later : day ≤ other) : commonDays day ≤ commonDays other := by
  unfold commonDays
  omega

theorem commonDays_bounds :
    ∀ year : Fin 400, 365 * (year : Int) ≤ commonDays (daysBefore year) ∧
      commonDays (daysBefore (year + 1) - 1) < 365 * (year + 1) := by
  decide +kernel

theorem yearOfEra_spec {day year : Int} (first : 0 ≤ day) (last : day < 146097)
    (counted : year = commonDays day / 365) :
    0 ≤ year ∧ year < 400 ∧ daysBefore year ≤ day ∧ day < daysBefore (year + 1) := by
  have lower : 0 ≤ commonDays day := commonDays_mono first
  have upper : commonDays day ≤ 145999 := commonDays_mono (Int.le_sub_one_of_lt last)
  have bounds : ∀ other : Int, 0 ≤ other → other < 400 → 365 * other ≤ commonDays (daysBefore other) ∧
      commonDays (daysBefore (other + 1) - 1) < 365 * (other + 1) := by
    intro other least most
    simpa [Int.toNat_of_nonneg least] using commonDays_bounds ⟨other.toNat, by omega⟩
  refine ⟨by omega, by omega, ?_, ?_⟩
  · by_contra earlier
    rcases Int.le_iff_eq_or_lt.mp (show 0 ≤ year by omega) with zero | positive
    · subst zero
      exact earlier first
    · have before := (bounds (year - 1) (by omega) (by omega)).2
      rw [Int.sub_add_cancel] at before
      have most := commonDays_mono (show day ≤ daysBefore year - 1 by omega)
      omega
  · by_contra later
    rcases Int.le_iff_eq_or_lt.mp (show year + 1 ≤ 400 by omega) with full | within
    · rw [full] at later
      exact later last
    · have after := (bounds (year + 1) (by omega) within).1
      have least := commonDays_mono (show daysBefore (year + 1) ≤ day by omega)
      omega

def ofDayOfYear (year dayOfYear : Int) : Date :=
  let month := (5 * dayOfYear + 2) / 153
  let day := dayOfYear - (153 * month + 2) / 5 + 1
  if month < 10 then ⟨year, (month + 3).toNat, day.toNat⟩ else ⟨year + 1, (month - 9).toNat, day.toNat⟩

theorem daysBefore_add_eras (year era : Int) : daysBefore (year + era * 400) = daysBefore year + era * 146097 := by
  have fourth : (year + era * 400) / 4 = year / 4 + era * 100 := by omega
  have century : (year + era * 400) / 100 = year / 100 + era * 4 := by omega
  have whole : (year + era * 400) / 400 = year / 400 + era := by omega
  rw [daysBefore, fourth, century, whole, daysBefore]
  omega

theorem daysBefore_succ (year : Int) :
    daysBefore (year + 1) = daysBefore year + if isLeapYear (year + 1) then 366 else 365 := by
  have fourth : (year + 1) / 4 = year / 4 + if (year + 1) % 4 = 0 then 1 else 0 := by split <;> omega
  have century : (year + 1) / 100 = year / 100 + if (year + 1) % 100 = 0 then 1 else 0 := by split <;> omega
  have whole : (year + 1) / 400 = year / 400 + if (year + 1) % 400 = 0 then 1 else 0 := by split <;> omega
  rw [daysBefore, fourth, century, whole, daysBefore]
  simp only [isLeapYear, Bool.or_eq_true, Bool.and_eq_true, decide_eq_true_eq]
  split_ifs <;> omega

theorem daysBefore_mono {year other : Int} (later : year ≤ other) : daysBefore year ≤ daysBefore other := by
  unfold daysBefore
  omega

theorem dayOfYear_spec {day year : Int} (first : 0 ≤ day) (last : day < 146097)
    (counted : year = commonDays day / 365) (era : Int) :
    let dayOfYear := day - (365 * year + year / 4 - year / 100)
    daysBefore (year + era * 400) + dayOfYear = era * 146097 + day ∧
      0 ≤ dayOfYear ∧ dayOfYear < if isLeapYear (year + era * 400 + 1) then 366 else 365 := by
  obtain ⟨least, most, start, stop⟩ := yearOfEra_spec first last counted
  have within : 365 * year + year / 4 - year / 100 = daysBefore year := by
    unfold daysBefore
    omega
  have before := daysBefore_add_eras year era
  have after := daysBefore_add_eras (year + 1) era
  rw [show year + 1 + era * 400 = year + era * 400 + 1 by omega, daysBefore_succ] at after
  rw [within]
  exact ⟨by omega, by omega, by omega⟩

/-- Every day lies in one year, and its date is that of its place in this year. -/
theorem ofDays_eq (days : Int) :
    ∃ year dayOfYear, ofDays days = ofDayOfYear year dayOfYear ∧ daysBefore year + dayOfYear = days + 719468 ∧
      0 ≤ dayOfYear ∧ dayOfYear < if isLeapYear (year + 1) then 366 else 365 := by
  have first : 0 ≤ (days + 719468) % 146097 := Int.emod_nonneg _ (by decide)
  have last : (days + 719468) % 146097 < 146097 := Int.emod_lt_of_pos _ (by decide)
  have place := dayOfYear_spec first last rfl ((days + 719468) / 146097)
  rw [show (days + 719468) / 146097 * 146097 + (days + 719468) % 146097 = days + 719468 by omega] at place
  exact ⟨_, _, rfl, place⟩

/-! ## Dates -/

variable {year dayOfYear : Int}

theorem toDays_ofDayOfYear (first : 0 ≤ dayOfYear) (last : dayOfYear < 366) (year : Int) :
    (ofDayOfYear year dayOfYear).toDays = daysBefore year + dayOfYear - 719468 := by
  have era : year / 400 * 146097 + year % 400 * 365 + year % 400 / 4 - year % 400 / 100 = daysBefore year := by
    have split := daysBefore_add_eras (year % 400) (year / 400)
    rw [show year % 400 + year / 400 * 400 = year by omega] at split
    rw [split]
    unfold daysBefore
    omega
  simp only [ofDayOfYear]
  split
  · simp only [toDays]
    rw [if_neg (by omega), if_neg (by omega), era]
    omega
  · simp only [toDays]
    rw [if_pos (by omega), if_pos (by omega), show year + 1 - 1 = year by omega, era]
    omega

theorem toDays_ofDays (days : Int) : (ofDays days).toDays = days := by
  obtain ⟨year, dayOfYear, same, counted, first, last⟩ := ofDays_eq days
  rw [same, toDays_ofDayOfYear first (by split at last <;> omega), counted]
  omega

theorem year_ofDayOfYear (year dayOfYear : Int) :
    (ofDayOfYear year dayOfYear).year = if dayOfYear < 306 then year else year + 1 := by
  simp only [ofDayOfYear]
  split <;> split <;> first | rfl | omega

theorem ofDayOfYear_eq (year dayOfYear : Int) :
    ofDayOfYear year dayOfYear =
      { ofDayOfYear 0 dayOfYear with year := if dayOfYear < 306 then year else year + 1 } := by
  rw [← year_ofDayOfYear]
  simp only [ofDayOfYear]
  split <;> rfl

/-- The last day of a leap year from March is the only 29th of a February. -/
theorem ofDayOfYear_bounds :
    ∀ dayOfYear : Fin 366, let date := ofDayOfYear 0 dayOfYear
      1 ≤ date.month ∧ date.month ≤ 12 ∧ 1 ≤ date.day ∧ date.day ≤ daysInMonth 4 date.month ∧
        (date.month = 2 → 306 ≤ dayOfYear.val ∧ (dayOfYear.val < 365 → date.day ≤ 28)) := by
  decide +kernel

theorem le_daysInMonth (year : Int) {month day : Nat} (most : day ≤ daysInMonth 4 month)
    (february : month = 2 → isLeapYear year = true ∨ day ≤ 28) : day ≤ daysInMonth year month := by
  unfold daysInMonth at *
  by_cases second : month = 2
  · rw [if_pos second] at most ⊢
    rcases february second with leap | short
    · rwa [if_pos leap]
    · split <;> omega
  · rwa [if_neg second] at most ⊢

theorem isValid_ofDayOfYear (first : 0 ≤ dayOfYear) (last : dayOfYear < if isLeapYear (year + 1) then 366 else 365)
    (start : -262143 ≤ (ofDayOfYear year dayOfYear).year) (stop : (ofDayOfYear year dayOfYear).year ≤ 262142) :
    (ofDayOfYear year dayOfYear).isValid = true := by
  have place : dayOfYear < 366 := by split at last <;> omega
  have bounds := ofDayOfYear_bounds ⟨dayOfYear.toNat, by omega⟩
  simp only [Int.toNat_of_nonneg first] at bounds
  obtain ⟨firstMonth, lastMonth, firstDay, lastDay, february⟩ := bounds
  rw [year_ofDayOfYear] at start stop
  rw [ofDayOfYear_eq]
  have length := le_daysInMonth (if dayOfYear < 306 then year else year + 1) lastDay fun second => by
    obtain ⟨late, short⟩ := february second
    rw [if_neg (by omega)]
    split at last
    · next leap => exact Or.inl leap
    · exact Or.inr (short (by omega))
  simp [isValid, start, stop, firstMonth, lastMonth, firstDay, length]

/-- The days from the first to the last one of the calendar are written as dates that it has. -/
theorem isValid_ofDays {days : Int} (first : firstDay ≤ days) (last : days ≤ lastDay) :
    (ofDays days).isValid = true := by
  obtain ⟨year, dayOfYear, same, counted, least, most⟩ := ofDays_eq days
  rw [same]
  have start : firstDay + 719468 = daysBefore (-262144) + 306 := by decide
  have stop : lastDay + 719468 = daysBefore 262142 + 305 := by decide
  have place : dayOfYear < 366 := by split at most <;> omega
  apply isValid_ofDayOfYear least most <;> rw [year_ofDayOfYear]
  · have before : year ≤ -262145 → daysBefore year ≤ daysBefore (-262145) := fun early => daysBefore_mono early
    rw [show daysBefore (-262145) = daysBefore (-262144) - 366 by decide] at before
    rcases eq_or_ne year (-262144) with rfl | _ <;> split <;> omega
  · have after : 262143 ≤ year → daysBefore 262143 ≤ daysBefore year := fun late => daysBefore_mono late
    rw [show daysBefore 262143 = daysBefore 262142 + 365 by decide] at after
    rcases eq_or_ne year 262142 with rfl | _ <;> split <;> omega

end InputResolution.Date
