/-!
Squares of 32-bit words and the round that both the digest and the keystream are made of.

A square has four rows of four words. A round adds, combines and rotates whole rows, so that all columns go through the
same steps at once. Turning the rows by zero to three places makes columns of the diagonals, and a second round on the
turned square mixes those.
-/

namespace InputResolution

structure Row where
  a : UInt32
  b : UInt32
  c : UInt32
  d : UInt32
deriving DecidableEq

namespace Row

def zipWith (f : UInt32 → UInt32 → UInt32) (x y : Row) : Row :=
  ⟨f x.a y.a, f x.b y.b, f x.c y.c, f x.d y.d⟩

def add (x y : Row) : Row :=
  zipWith (· + ·) x y

def xor (x y : Row) : Row :=
  zipWith (· ^^^ ·) x y

def map (f : UInt32 → UInt32) (x : Row) : Row :=
  ⟨f x.a, f x.b, f x.c, f x.d⟩

/-- Every word comes one place forward, and the first goes to the end. -/
def turn (x : Row) : Row :=
  ⟨x.b, x.c, x.d, x.a⟩

def toList (x : Row) : List UInt32 :=
  [x.a, x.b, x.c, x.d]

def zero : Row := ⟨0, 0, 0, 0⟩

end Row

structure Square where
  first : Row
  second : Row
  third : Row
  fourth : Row
deriving DecidableEq

namespace Square

/-- Half a round. Each row takes in its neighbour, and two of them are rotated by the given functions. -/
def halfRound (rotateFourth rotateSecond : UInt32 → UInt32) (extra : Row) (s : Square) : Square :=
  let first := (s.first.add s.second).add extra
  let fourth := (s.fourth.xor first).map rotateFourth
  let third := s.third.add fourth
  let second := (s.second.xor third).map rotateSecond
  ⟨first, second, third, fourth⟩

/-- Makes columns of the diagonals. -/
def skew (s : Square) : Square :=
  ⟨s.first, s.second.turn, s.third.turn.turn, s.fourth.turn.turn.turn⟩

def unskew (s : Square) : Square :=
  ⟨s.first, s.second.turn.turn.turn, s.third.turn.turn, s.fourth.turn⟩

def add (x y : Square) : Square :=
  ⟨x.first.add y.first, x.second.add y.second, x.third.add y.third, x.fourth.add y.fourth⟩

def toList (s : Square) : List UInt32 :=
  s.first.toList ++ s.second.toList ++ s.third.toList ++ s.fourth.toList

end Square

def rotateLeft (places : UInt32) (x : UInt32) : UInt32 :=
  (x <<< places) ||| (x >>> (32 - places))

def rotateRight (places : UInt32) (x : UInt32) : UInt32 :=
  (x >>> places) ||| (x <<< (32 - places))

end InputResolution
