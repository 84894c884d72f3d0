import InputResolution.Double

/-!
Decimal notation of finite binary64 numbers.

A number is read from a significand of at most 64 bits and a power of ten. The significand is rounded
first; then it is multiplied or divided by rounded powers of ten, at most `10 ^ 308` at a time, and every
step rounds again. A long numeral may therefore be read as a neighbour of the nearest number.

A number is written with the fewest digits that lie in its rounding interval. For each count of digits only
the two neighbours of the exact value on that decimal grid can be the nearest such point, so testing those two
finds it.
-/

namespace InputResolution.Double

/-! ## Reading -/

def significandLimit : Nat := 18446744073709551616

/-- Appends digits while the significand stays below its limit. The second part counts the digits left over. -/
def absorb : Nat → List Nat → Nat × Nat
  | significand, [] => (significand, 0)
  | significand, digit :: rest =>
      if significand * 10 + digit < significandLimit then absorb (significand * 10 + digit) rest
      else (significand, rest.length + 1)

def powerOfTen (exponent : Nat) : Nat :=
  nearestRank (Nat.pow 10 exponent) 1

def product (a b : Nat) : Nat :=
  nearestRank (units a * units b) (one * one)

def quotient (a b : Nat) : Nat :=
  nearestRank (units a) (units b)

/-- A rank times a power of ten, rounded at every step; `none` if the format cannot hold the result. -/
def scale (rank : Nat) (exponent : Int) : Option Nat :=
  if exponent.natAbs ≤ 308 then
    if 0 ≤ exponent then
      let scaled := product rank (powerOfTen exponent.natAbs)
      if scaled < rankCount then some scaled else none
    else some (quotient rank (powerOfTen exponent.natAbs))
  else if rank = 0 then some 0
  else if 0 ≤ exponent then none
  else scale (quotient rank (powerOfTen 308)) (exponent + 308)
termination_by exponent.natAbs
decreasing_by omega

/-- The number read from the digits before the point, the digits after it and a power of ten. Digits
before the point that do not fit are read as zeros, and those after it are dropped. -/
def ofDecimal? (negative : Bool) (whole fraction : List Nat) (exponent : Int) : Option Double := do
  let (significand, unread) := absorb 0 whole
  let (significand, dropped) := absorb significand fraction
  let appended := fraction.length - dropped
  let rank ← scale (nearestRank significand 1) (exponent + unread - appended)
  ofRank? negative rank

/-! ## Writing -/

def leadingPlace (rank : Nat) : Int :=
  let whole := units rank / one
  if 0 < whole then (Nat.toDigits 10 whole).length - 1
  else -((Nat.toDigits 10 ((one - 1) / units rank)).length : Int)

/-- The multiple of `10 ^ place` nearest to a positive rank, among those in its rounding interval. The ends
of the interval belong to it if the rank is even, and of two equally near multiples the even one is taken. -/
def onGrid? (rank : Nat) (place : Int) : Option Nat :=
  let up := Nat.pow 10 place.toNat
  let down := Nat.pow 10 (-place).toNat
  let value := units rank * down
  let step := one * up
  let below := value / step
  let inside (margin gap : Nat) : Bool := if rank % 2 = 0 then gap ≤ margin else gap < margin
  let low := inside ((units rank - units (rank - 1)) * down) (2 * (value - below * step))
  let high := inside ((units (rank + 1) - units rank) * down) (2 * ((below + 1) * step - value))
  let nearer := 2 * (value % step) < step ∨ (2 * (value % step) = step ∧ below % 2 = 0)
  if low ∧ (nearer ∨ ¬ high) then some below
  else if high then some (below + 1)
  else none

/-- The fewest digits that read back as a positive rank, and the decimal place of the first one. -/
def shortestDigits (rank : Nat) : List Char × Int :=
  let leading := leadingPlace rank
  let found := (List.range 17).findSome? fun (extra : Nat) =>
    (onGrid? rank (leading - extra)).map fun multiple => (multiple, leading - extra)
  let (multiple, place) := found.getD (0, 0)
  let digits := Nat.toDigits 10 multiple
  ((digits.reverse.dropWhile (· = '0')).reverse, place + digits.length - 1)

/-- Digits with the point after the place of the first one: positional from `10 ^ (-5)` up to `10 ^ 16` with at
least one digit after the point, and otherwise one digit before the point and a signed exponent. -/
def layout (digits : List Char) (place : Int) : List Char :=
  if -5 ≤ place ∧ place < 0 then
    '0' :: '.' :: (List.replicate ((-place).toNat - 1) '0' ++ digits)
  else if 0 ≤ place ∧ place < 16 then
    let whole := place.toNat + 1
    if digits.length ≤ whole then digits ++ List.replicate (whole - digits.length) '0' ++ ['.', '0']
    else digits.take whole ++ '.' :: digits.drop whole
  else
    let fraction := if digits.length ≤ 1 then [] else '.' :: digits.drop 1
    let sign := if place < 0 then '-' else '+'
    digits.take 1 ++ fraction ++ 'e' :: sign :: Nat.toDigits 10 place.natAbs

def text (x : Double) : String :=
  let magnitude :=
    if x.rank = 0 then ['0', '.', '0']
    else
      let (digits, place) := shortestDigits x.rank
      layout digits place
  String.ofList (if x.negative then '-' :: magnitude else magnitude)

end InputResolution.Double
