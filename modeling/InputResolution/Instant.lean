import InputResolution.Characters

/-!
Instants of time in UTC, to the nanosecond, and their written form.

An instant counts whole seconds from the start of 1970 and nanoseconds within the second. A leap second is the
second before it with `10 ^ 9` or more nanoseconds, so it sorts after that second and before the next one.

The reader takes a date, a mark, a time of day and an offset. Numbers may have fewer digits than usual, and white
space may stand around the parts. The writer gives the offset as `Z` and the fraction with 0, 3, 6 or 9 digits,
the fewest that lose nothing.
-/

namespace InputResolution

structure Instant where
  seconds : Int
  nanos : Nat
  nanos_lt : nanos < 2000000000
deriving DecidableEq

structure Date where
  year : Int
  month : Nat
  day : Nat
deriving DecidableEq

namespace Date

def isLeapYear (year : Int) : Bool :=
  (year % 4 = 0 && year % 100 ≠ 0) || year % 400 = 0

def daysInMonth (year : Int) (month : Nat) : Nat :=
  if month = 2 then (if isLeapYear year then 29 else 28)
  else if month = 4 ∨ month = 6 ∨ month = 9 ∨ month = 11 then 30
  else 31

def isValid (date : Date) : Bool :=
  -262143 ≤ date.year && date.year ≤ 262142 && 1 ≤ date.month && date.month ≤ 12 && 1 ≤ date.day &&
    date.day ≤ daysInMonth date.year date.month

/-- Days from the first day of 1970. Years are counted from March, so that the leap day is the last of its year. -/
def toDays (date : Date) : Int :=
  let year := if date.month ≤ 2 then date.year - 1 else date.year
  let month : Int := if date.month ≤ 2 then date.month + 9 else date.month - 3
  let era := year / 400
  let yearOfEra := year % 400
  let dayOfYear := (153 * month + 2) / 5 + date.day - 1
  era * 146097 + yearOfEra * 365 + yearOfEra / 4 - yearOfEra / 100 + dayOfYear - 719468

def ofDays (days : Int) : Date :=
  let shifted := days + 719468
  let era := shifted / 146097
  let dayOfEra := shifted % 146097
  let yearOfEra := (dayOfEra - dayOfEra / 1460 + dayOfEra / 36524 - dayOfEra / 146096) / 365
  let dayOfYear := dayOfEra - (365 * yearOfEra + yearOfEra / 4 - yearOfEra / 100)
  let month := (5 * dayOfYear + 2) / 153
  let day := dayOfYear - (153 * month + 2) / 5 + 1
  let year := yearOfEra + era * 400
  if month < 10 then ⟨year, (month + 3).toNat, day.toNat⟩ else ⟨year + 1, (month - 9).toNat, day.toNat⟩

def firstDay : Int := toDays ⟨-262143, 1, 1⟩

def lastDay : Int := toDays ⟨262142, 12, 31⟩

end Date

namespace Instant

def key (t : Instant) : List Int :=
  [t.seconds, t.nanos]

def ofSeconds (seconds : Int) : Instant :=
  ⟨seconds, 0, by decide⟩

/-! ## Reading -/

def numberOf (digits : List Char) : Nat :=
  digits.foldl (fun value c => value * 10 + (c.toNat - '0'.toNat)) 0

def readNumber? (limit : Nat) (chars : List Char) : Option (Nat × List Char) :=
  let chars := skipBlanks chars
  let digits := (chars.take limit).takeWhile Char.isDigit
  if digits.isEmpty then none else some (numberOf digits, chars.drop digits.length)

/-- A year of at most four digits, or of any length after a sign. -/
def readYear? (chars : List Char) : Option (Int × List Char) :=
  let signed (sign : Int) (rest : List Char) : Option (Int × List Char) :=
    let digits := rest.takeWhile Char.isDigit
    if digits.isEmpty then none else some (sign * numberOf digits, rest.drop digits.length)
  match skipBlanks chars with
  | '-' :: rest => signed (-1) rest
  | '+' :: rest => signed 1 rest
  | rest => (readNumber? 4 rest).map fun (year, rest) => ((year : Int), rest)

def readMark? (mark : Char) (chars : List Char) : Option (List Char) :=
  match skipBlanks chars with
  | c :: rest => if c = mark then some rest else none
  | [] => none

/-- A fraction of a second in nanoseconds. Digits after the ninth are dropped; without a point there is none. -/
def readFraction? (chars : List Char) : Option (Nat × List Char) :=
  match chars with
  | '.' :: rest =>
      let digits := rest.takeWhile Char.isDigit
      if digits.isEmpty then none
      else
        let kept := digits.take 9
        some (numberOf kept * Nat.pow 10 (9 - kept.length), rest.drop digits.length)
  | _ => some (0, chars)

def readTwoDigits? (chars : List Char) : Option (Nat × List Char) :=
  match chars with
  | a :: b :: rest => if a.isDigit && b.isDigit then some (numberOf [a, b], rest) else none
  | _ => none

/-- Hours and minutes of an offset, in seconds; colons and blanks may stand between them. -/
def readHoursMinutes? (chars : List Char) : Option (Int × List Char) := do
  let (hours, rest) ← readTwoDigits? chars
  let (minutes, rest) ← readTwoDigits? (rest.dropWhile fun c => c = ':' || isBlankChar c)
  guard (minutes < 60)
  some (hours * 3600 + minutes * 60, rest)

def readOffset? (chars : List Char) : Option (Int × List Char) := do
  let (offset, rest) ←
    match chars with
    | 'Z' :: rest => some (0, rest)
    | 'z' :: rest => some (0, rest)
    | '+' :: rest => readHoursMinutes? rest
    | '-' :: rest => (readHoursMinutes? rest).map fun (offset, rest) => (-offset, rest)
    | '\u2212' :: rest => (readHoursMinutes? rest).map fun (offset, rest) => (-offset, rest)
    | u :: t :: c :: rest =>
        if u.toLower = 'u' && t.toLower = 't' && c.toLower = 'c' then some (0, rest) else none
    | _ => none
  guard (-86400 < offset ∧ offset < 86400)
  some (offset, rest)

/-- The instant at this time of day, unless its date in UTC leaves the calendar. A second number 60 is a leap second. -/
def ofParts? (date : Date) (hour minute second nanos : Nat) (offset : Int) : Option Instant := do
  guard (date.isValid && hour ≤ 23 && minute ≤ 59 && second ≤ 60)
  let leap := if second = 60 then 1 else 0
  let seconds := date.toDays * 86400 + hour * 3600 + minute * 60 + (second - leap : Nat) - offset
  guard (Date.firstDay * 86400 ≤ seconds ∧ seconds < (Date.lastDay + 1) * 86400)
  let nanos := nanos + leap * 1000000000
  if h : nanos < 2000000000 then some ⟨seconds, nanos, h⟩ else none

def read? (text : String) : Option Instant := do
  let (year, rest) ← readYear? text.toList
  let rest ← readMark? '-' rest
  let (month, rest) ← readNumber? 2 rest
  let rest ← readMark? '-' rest
  let (day, rest) ← readNumber? 2 rest
  let rest ←
    match rest with
    | c :: rest => if c = 'T' || c = 't' || c = ' ' then some rest else none
    | [] => none
  let (hour, rest) ← readNumber? 2 rest
  let rest ← readMark? ':' rest
  let (minute, rest) ← readNumber? 2 rest
  let rest ← readMark? ':' rest
  let (second, rest) ← readNumber? 2 rest
  let (nanos, rest) ← readFraction? rest
  let (offset, rest) ← readOffset? (skipBlanks rest)
  guard (skipBlanks rest).isEmpty
  ofParts? ⟨year, month, day⟩ hour minute second nanos offset

/-! ## Writing -/

def padded (width n : Nat) : String :=
  let digits := Nat.toDigits 10 n
  String.ofList (List.replicate (width - digits.length) '0' ++ digits)

/-- A year outside of four digits carries its sign. -/
def yearText (year : Int) : String :=
  if 0 ≤ year ∧ year ≤ 9999 then padded 4 year.toNat
  else (if year < 0 then "-" else "+") ++ padded 4 year.natAbs

def fractionText (nanos : Nat) : String :=
  if nanos = 0 then ""
  else if nanos % 1000000 = 0 then "." ++ padded 3 (nanos / 1000000)
  else if nanos % 1000 = 0 then "." ++ padded 6 (nanos / 1000)
  else "." ++ padded 9 nanos

def text (t : Instant) : String :=
  let date := Date.ofDays (t.seconds / 86400)
  let second := (t.seconds % 86400).toNat
  let leap := t.nanos / 1000000000
  yearText date.year ++ "-" ++ padded 2 date.month ++ "-" ++ padded 2 date.day ++ "T" ++
    padded 2 (second / 3600) ++ ":" ++ padded 2 (second / 60 % 60) ++ ":" ++ padded 2 (second % 60 + leap) ++
    fractionText (t.nanos % 1000000000) ++ "Z"

end Instant

end InputResolution
