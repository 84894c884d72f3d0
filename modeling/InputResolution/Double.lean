/-!
Finite binary64 numbers, held by their sign and by the rank of their magnitude.

The magnitudes of the format in ascending order are numbered from zero: rank `r` stands for
`units r` times the least positive magnitude `2 ^ (-1074)`. Within one binade of `2 ^ 52` ranks the
magnitudes are evenly spaced, and each binade doubles the spacing of the one before it. So the order of
two numbers is the order of two integers, and rounding is one division of natural numbers.
-/

namespace InputResolution

/-- A finite number of the format; zero has two signs. There are 2047 binades of `2 ^ 52` ranks. -/
structure Double where
  negative : Bool
  rank : Nat
  rank_lt : rank < 9218868437227405312
deriving DecidableEq

namespace Double

def binadeSize : Nat := 4503599627370496

def rankCount : Nat := 9218868437227405312

def powerOfTwo (places : Nat) : Nat :=
  1 <<< places

/-- The magnitude 1 in units of the least positive magnitude. -/
def one : Nat := powerOfTwo 1074

/-- How often the spacing has doubled at a rank. -/
def binade (rank : Nat) : Nat :=
  rank / binadeSize - 1

/-- The magnitude of a rank, in units of the least positive magnitude. -/
def units (rank : Nat) : Nat :=
  (rank - binade rank * binadeSize) * powerOfTwo (binade rank)

/-- The quotient rounded to the nearest integer, a half going to the even neighbour. -/
def roundDiv (num den : Nat) : Nat :=
  let quotient := num / den
  let remainder := num % den
  if 2 * remainder < den then quotient
  else if den < 2 * remainder then quotient + 1
  else quotient + quotient % 2

/-- The rank nearest to the quotient of two natural numbers; a half goes to the even rank. A result
past the last rank stands for a magnitude that the format cannot hold. -/
def nearestRank (num den : Nat) : Nat :=
  let scaled := num * one
  let binade := (scaled / den).log2 - 52
  binade * binadeSize + roundDiv scaled (den * powerOfTwo binade)

def ofRank? (negative : Bool) (rank : Nat) : Option Double :=
  if h : rank < rankCount then some ⟨negative, rank, h⟩ else none

def ofInt? (i : Int) : Option Double :=
  ofRank? (decide (i < 0)) (nearestRank i.natAbs 1)

/-- The place of a number in the order; both zeros share one. -/
def place (x : Double) : Int :=
  if x.negative then -(x.rank : Int) else x.rank

def placeOfInt (i : Int) : Int :=
  if i < 0 then -(nearestRank i.natAbs 1 : Int) else nearestRank i.natAbs 1

end Double

end InputResolution
