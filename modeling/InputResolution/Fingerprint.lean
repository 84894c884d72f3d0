import InputResolution.Record.Context
import InputResolution.Words

/-!
Fingerprints: digests of canonical texts. The fingerprint of a graph covers its nodes and the version of the rules; that
of a context covers the fingerprint of its graph and, for each slot, the node and the count but not the invocation.
The digest is a parameter, so that what a fingerprint covers can be studied apart from how it is hashed.

The digest in use is BLAKE3 without a key, 256 bits, as hexadecimal text. The bytes are cut into chunks of 1024, each chunk
into blocks of 64. A chunk is a chain of compressions; chunks are joined in pairs by a binary tree whose left side is the
largest complete tree that leaves something for the right. The last compression of all carries the root flag.
-/

namespace InputResolution

/-! ## The digest -/

namespace Digest

/-- The chaining value between two compressions. -/
structure Chain where
  low : Row
  high : Row
deriving DecidableEq

def constants : Row :=
  ⟨0x6A09E667, 0xBB67AE85, 0x3C6EF372, 0xA54FF53A⟩

def initial : Chain :=
  ⟨constants, ⟨0x510E527F, 0x9B05688C, 0x1F83D9AB, 0x5BE0CD19⟩⟩

def chunkStart : UInt32 := 1
def chunkEnd : UInt32 := 2
def parent : UInt32 := 4
def root : UInt32 := 8

def columnRound (x y : Row) (s : Square) : Square :=
  (s.halfRound (rotateRight 16) (rotateRight 12) x).halfRound (rotateRight 8) (rotateRight 7) y

def round (message : Square) (s : Square) : Square :=
  let first := message.first
  let second := message.second
  let third := message.third
  let fourth := message.fourth
  let columns := columnRound ⟨first.a, first.c, second.a, second.c⟩ ⟨first.b, first.d, second.b, second.d⟩ s
  let diagonals :=
    columnRound ⟨third.a, third.c, fourth.a, fourth.c⟩ ⟨third.b, third.d, fourth.b, fourth.d⟩ columns.skew
  diagonals.unskew

def permute (m : Square) : Square :=
  ⟨⟨m.first.c, m.second.c, m.first.d, m.third.c⟩, ⟨m.second.d, m.first.a, m.second.a, m.fourth.b⟩,
    ⟨m.first.b, m.third.d, m.fourth.a, m.second.b⟩, ⟨m.third.b, m.fourth.c, m.fourth.d, m.third.a⟩⟩

def rounds : Nat → Square → Square → Square
  | 0, _, s => s
  | left + 1, message, s => rounds left (permute message) (round message s)

/-- One compression, before it is known whether it is the last. -/
structure Node where
  chain : Chain
  block : Square
  counter : UInt64
  length : UInt32
  flags : UInt32

def Node.compress (node : Node) (extra : UInt32) : Chain :=
  let position : Row :=
    ⟨node.counter.toUInt32, (node.counter >>> 32).toUInt32, node.length, node.flags ||| extra⟩
  let last := rounds 7 node.block ⟨node.chain.low, node.chain.high, constants, position⟩
  ⟨last.first.xor last.third, last.second.xor last.fourth⟩

def byteAt (data : ByteArray) (i : Nat) : UInt32 :=
  if h : i < data.size then (data.get i h).toUInt32 else 0

/-- Four bytes as a word, the least significant first; bytes past the end of the data are zero. -/
def wordAt (data : ByteArray) (i : Nat) : UInt32 :=
  byteAt data i ||| (byteAt data (i + 1) <<< 8) ||| (byteAt data (i + 2) <<< 16) ||| (byteAt data (i + 3) <<< 24)

def rowAt (data : ByteArray) (i : Nat) : Row :=
  ⟨wordAt data i, wordAt data (i + 4), wordAt data (i + 8), wordAt data (i + 12)⟩

def blockAt (data : ByteArray) (i : Nat) : Square :=
  ⟨rowAt data i, rowAt data (i + 16), rowAt data (i + 32), rowAt data (i + 48)⟩

/-- Goes through the blocks of a chunk, given how many bytes of it are left; the last block is not compressed yet. -/
def chunkFrom (data : ByteArray) (counter : UInt64) (start left : Nat) (chain : Chain) (flags : UInt32) : Node :=
  if left ≤ 64 then
    ⟨chain, blockAt data start, counter, left.toUInt32, flags ||| chunkEnd⟩
  else
    let next := (Node.mk chain (blockAt data start) counter 64 flags).compress 0
    chunkFrom data counter (start + 64) (left - 64) next 0
termination_by left

/-- The size of the left side of a tree over more than one chunk: the largest power of two that is smaller. -/
def leftSize (count : Nat) : Nat :=
  1 <<< (count - 1).log2

theorem leftSize_pos (count : Nat) : 0 < leftSize count := by
  rw [leftSize, Nat.one_shiftLeft]
  exact Nat.two_pow_pos _

theorem leftSize_lt (count : Nat) (many : 1 < count) : leftSize count < count := by
  rw [leftSize, Nat.one_shiftLeft]
  have := Nat.log2_self_le (n := count - 1) (by omega)
  omega

def tree (data : ByteArray) (first count : Nat) : Node :=
  if count ≤ 1 then
    let start := 1024 * first
    chunkFrom data first.toUInt64 start (min 1024 (data.size - start)) initial chunkStart
  else
    let left := (tree data first (leftSize count)).compress 0
    let right := (tree data (first + leftSize count) (count - leftSize count)).compress 0
    ⟨initial, ⟨left.low, left.high, right.low, right.high⟩, 0, 64, parent⟩
termination_by count
decreasing_by
  · exact leftSize_lt count (by omega)
  · have := leftSize_pos count
    omega

def hexByte (b : UInt32) : List Char :=
  [Nat.digitChar (b.toNat / 16), Nat.digitChar (b.toNat % 16)]

def hexWord (w : UInt32) : List Char :=
  hexByte (w &&& 0xFF) ++ hexByte ((w >>> 8) &&& 0xFF) ++ hexByte ((w >>> 16) &&& 0xFF) ++ hexByte (w >>> 24)

def ofBytes (data : ByteArray) : String :=
  let chain := (tree data 0 ((data.size + 1023) / 1024)).compress root
  String.ofList ((chain.low.toList ++ chain.high.toList).flatMap hexWord)

end Digest

def digest (text : String) : String :=
  Digest.ofBytes text.toUTF8

/-! ## What is covered -/

open Record

def engineVersion : String := "R1.0"

namespace Invocation

def fingerprintWith (hash : String → String) (call : Invocation) : String :=
  hash call.toJson.canonicalText

def fingerprint (call : Invocation) : String :=
  call.fingerprintWith digest

end Invocation

namespace Graph

def covered (g : Graph) : Json :=
  .object [("engine_version", .string engineVersion), ("nodes", ofList Node.toJson g.nodes)]

def fingerprintWith (hash : String → String) (g : Graph) : String :=
  hash g.covered.canonicalText

def fingerprint (g : Graph) : String :=
  g.fingerprintWith digest

end Graph

namespace ResolutionContext

def coveredSlot (binding : SlotBinding) : Json :=
  .object [("node", ofNat binding.node), ("min_count", ofNat binding.minCount)]

def covered (graphFingerprint : String) (context : ResolutionContext) : Json :=
  .object [
    ("engine_version", .string engineVersion),
    ("graph", .string graphFingerprint),
    ("slots", ofMap coveredSlot context.slots)]

def fingerprintWith (hash : String → String) (context : ResolutionContext) : String :=
  hash (context.covered (context.graph.fingerprintWith hash)).canonicalText

def fingerprint (context : ResolutionContext) : String :=
  context.fingerprintWith digest

end ResolutionContext

end InputResolution
