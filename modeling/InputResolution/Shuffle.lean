import InputResolution.Words

/-!
Seeded shuffles. A seed stands for a stream of 32-bit words: ChaCha with twelve rounds, a 64-bit block counter from zero
and no nonce. The key is filled with the outputs of a 64-bit linear congruential generator that starts from the seed.

The exchanges of positions are drawn from the keystream of the seed before any element is looked at, so they depend on
the seed and the number of elements alone.
-/

namespace InputResolution

/-- The words still to be drawn: those left of the current block, and then the blocks from a counter on. -/
structure Keystream where
  key : Row × Row
  counter : UInt64
  pending : List UInt32

namespace Keystream

def columnRound (s : Square) : Square :=
  (s.halfRound (rotateLeft 16) (rotateLeft 12) .zero).halfRound (rotateLeft 8) (rotateLeft 7) .zero

def doubleRound (s : Square) : Square :=
  (columnRound (columnRound s).skew).unskew

def doubleRounds : Nat → Square → Square
  | 0, s => s
  | left + 1, s => doubleRounds left (doubleRound s)

def constants : Row :=
  ⟨0x61707865, 0x3320646E, 0x79622D32, 0x6B206574⟩

def block (key : Row × Row) (counter : UInt64) : Square :=
  let start : Square := ⟨constants, key.1, key.2, ⟨counter.toUInt32, (counter >>> 32).toUInt32, 0, 0⟩⟩
  (doubleRounds 6 start).add start

def advance (state : UInt64) : UInt64 :=
  state * 6364136223846793005 + 11634580027462260723

def output (state : UInt64) : UInt32 :=
  rotateRight (state >>> 59).toUInt32 ((((state >>> 18) ^^^ state) >>> 27).toUInt32)

def keyRow (state : UInt64) : Row × UInt64 :=
  let first := advance state
  let second := advance first
  let third := advance second
  let fourth := advance third
  (⟨output first, output second, output third, output fourth⟩, fourth)

def ofSeed (seed : UInt64) : Keystream :=
  let (low, state) := keyRow seed
  let (high, _) := keyRow state
  ⟨(low, high), 0, []⟩

def next (s : Keystream) : UInt32 × Keystream :=
  match s.pending with
  | word :: rest => (word, { s with pending := rest })
  | [] =>
      let words := block s.key s.counter
      (words.first.a, { s with counter := s.counter + 1, pending := words.toList.drop 1 })

end Keystream

namespace Shuffle

/-- The greatest lower half of a product that keeps a draw below `bound` even: the words are dealt out in equal
shares, and those past the last whole share are drawn again. -/
def zone (bound : Nat) : Nat :=
  (bound <<< (31 - bound.log2)) - 1

def wordCount : Nat := 4294967296

/-- Draws a number below `bound`. A word is kept at least every second time on average, so the bound on the number
of words is not met in practice. -/
def drawBelow (bound : Nat) : Nat → Keystream → Nat × Keystream
  | 0, s => (0, s)
  | tries + 1, s =>
      let (word, s) := s.next
      let product := word.toNat * bound
      if product % wordCount ≤ zone bound then (product / wordCount, s) else drawBelow bound tries s

def maxTries : Nat := 4096

/-- The exchanges for positions `count` down to 1, each with a position that is not greater. -/
def exchangesFrom : Nat → Keystream → List (Nat × Nat)
  | 0, _ => []
  | count + 1, s =>
      let (other, s) := drawBelow (count + 2) maxTries s
      (count + 1, other) :: exchangesFrom count s

def exchanges (seed : UInt64) (length : Nat) : List (Nat × Nat) :=
  exchangesFrom (length - 1) (Keystream.ofSeed seed)

end Shuffle

def shuffle {α : Type} (seed : UInt64) (xs : List α) : List α :=
  ((Shuffle.exchanges seed xs.length).foldl (fun ys pair => ys.swapIfInBounds pair.1 pair.2) xs.toArray).toList

end InputResolution
