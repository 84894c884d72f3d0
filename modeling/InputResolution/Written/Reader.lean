import InputResolution.Double.Decimal
import InputResolution.Written

/-!
Reading JSON from a text, in two passes over its parts. The first pass takes the characters one by one and yields
tokens; a numeral or a word ends at the first character that it cannot hold. The second pass takes the tokens one by
one and keeps the arrays and objects that are still open. A text is refused if anything follows its value. What breaks
no rule of form but has no value is left in place as unreadable.
-/

namespace InputResolution.Written

/-! ## Numerals -/

def digitValue (c : Char) : Nat :=
  c.toNat - '0'.toNat

def readExponent (chars : List Char) : Option Int :=
  let (negative, digits) :=
    match chars with
    | '+' :: rest => (false, rest)
    | '-' :: rest => (true, rest)
    | _ => (false, chars)
  if digits.isEmpty || !digits.all Char.isDigit then none
  else
    let magnitude : Int := digits.foldl (fun value c => value * 10 + digitValue c) 0
    some (if negative then -magnitude else magnitude)

/-- The digits before the point have no zero in front of another digit. -/
def isWhole (digits : List Char) : Bool :=
  match digits with
  | [] => false
  | ['0'] => true
  | first :: _ => first ≠ '0'

def real : Option Double → Written
  | some x => double x
  | none => unreadable

/-- A whole number of 64 bits, signed or unsigned, is an integer. A minus sign in front of zero, or a whole number
out of that range, gives a double. -/
def wholeNumber (negative : Bool) (digits : List Nat) : Written :=
  let (magnitude, unread) := Double.absorb 0 digits
  if unread = 0 ∧ ¬ negative then int magnitude
  else if unread = 0 ∧ 0 < magnitude ∧ magnitude ≤ 9223372036854775808 then int (-magnitude)
  else real (Double.ofDecimal? negative digits [] 0)

def readNumeral (chars : List Char) : Option Written := do
  let (negative, unsigned) :=
    match chars with
    | '-' :: rest => (true, rest)
    | _ => (false, chars)
  let whole := unsigned.takeWhile Char.isDigit
  guard (isWhole whole)
  let digits := whole.map digitValue
  let afterWhole := unsigned.dropWhile Char.isDigit
  let (fraction, afterFraction) ←
    match afterWhole with
    | '.' :: rest =>
        let fraction := rest.takeWhile Char.isDigit
        if fraction.isEmpty then none else some (fraction.map digitValue, rest.dropWhile Char.isDigit)
    | _ => some ([], afterWhole)
  match afterFraction with
  | [] =>
      if fraction.isEmpty then some (wholeNumber negative digits)
      else some (real (Double.ofDecimal? negative digits fraction 0))
  | mark :: rest => do
      guard (mark = 'e' ∨ mark = 'E')
      let exponent ← readExponent rest
      some (real (Double.ofDecimal? negative digits fraction exponent))

def readWord (chars : List Char) : Option Written :=
  match chars with
  | ['n', 'u', 'l', 'l'] => some null
  | ['t', 'r', 'u', 'e'] => some (bool true)
  | ['f', 'a', 'l', 's', 'e'] => some (bool false)
  | _ => none

/-! ## Tokens -/

inductive Token where
  | openArray
  | closeArray
  | openObject
  | closeObject
  | comma
  | colon
  | text (s : Option String)
  | literal (written : Written)

/-- A part of a text: a character, or a unit of 16 bits that an escape gives by its number. -/
inductive Piece where
  | char (c : Char)
  | unit (n : Nat)

/-- What the characters read so far have begun. Lists are held in reverse. -/
inductive Lexeme where
  | between
  | numeral (chars : List Char)
  | word (chars : List Char)
  | text (pieces : List Piece)
  | escape (pieces : List Piece)
  /-- Hexadecimal digits of an escape: how many are to come, and their value so far. -/
  | unit (pieces : List Piece) (missing value : Nat)

def isNumeralChar (c : Char) : Bool :=
  c.isDigit || c = '-' || c = '+' || c = '.' || c = 'e' || c = 'E'

def hexValue? (c : Char) : Option Nat :=
  if '0' ≤ c ∧ c ≤ '9' then some (c.toNat - '0'.toNat)
  else if 'a' ≤ c ∧ c ≤ 'f' then some (c.toNat - 'a'.toNat + 10)
  else if 'A' ≤ c ∧ c ≤ 'F' then some (c.toNat - 'A'.toNat + 10)
  else none

def begin? (c : Char) : Option (List Token × Lexeme) :=
  if c = ' ' ∨ c = '\n' ∨ c = '\t' ∨ c = '\r' then some ([], .between)
  else if c = '[' then some ([.openArray], .between)
  else if c = ']' then some ([.closeArray], .between)
  else if c = '\x7b' then some ([.openObject], .between)
  else if c = '\x7d' then some ([.closeObject], .between)
  else if c = ',' then some ([.comma], .between)
  else if c = ':' then some ([.colon], .between)
  else if c = '"' then some ([], .text [])
  else if c.isDigit || c = '-' then some ([], .numeral [c])
  else if c.isAlpha then some ([], .word [c])
  else none

/-- The token that a numeral or a word gives when it ends here; other lexemes cannot end by themselves. -/
def Lexeme.finish? : Lexeme → Option (List Token)
  | .between => some []
  | .numeral chars => (readNumeral chars.reverse).map fun written => [.literal written]
  | .word chars => (readWord chars.reverse).map fun written => [.literal written]
  | _ => none

def simpleEscape? (c : Char) : Option Char :=
  if c = '"' ∨ c = '\\' ∨ c = '/' then some c
  else if c = 'b' then some '\x08'
  else if c = 'f' then some '\x0c'
  else if c = 'n' then some '\n'
  else if c = 'r' then some '\r'
  else if c = 't' then some '\t'
  else none

def isUpperHalf (n : Nat) : Bool :=
  0xD800 ≤ n && n < 0xDC00

def isLowerHalf (n : Nat) : Bool :=
  0xDC00 ≤ n && n < 0xE000

def joined (upper lower : Nat) : Char :=
  Char.ofNat (0x10000 + (upper - 0xD800) * 0x400 + (lower - 0xDC00))

/-- The characters of pieces held in reverse, in front of those that follow. Two units make up one character if they
are its upper and its lower half, in this order and side by side; a half never stands alone. -/
def charsBefore? : Option Nat → List Char → List Piece → Option (List Char)
  | none, after, [] => some after
  | none, after, .char c :: rest => charsBefore? none (c :: after) rest
  | none, after, .unit n :: rest =>
      if isLowerHalf n then charsBefore? (some n) after rest
      else if isUpperHalf n then none
      else charsBefore? none (Char.ofNat n :: after) rest
  | some lower, after, .unit n :: rest =>
      if isUpperHalf n then charsBefore? none (joined n lower :: after) rest else none
  | some _, _, _ => none

def textOf? (pieces : List Piece) : Option String :=
  (charsBefore? none [] pieces).map String.ofList

def Lexeme.step? (lexeme : Lexeme) (c : Char) : Option (List Token × Lexeme) :=
  match lexeme with
  | .between => begin? c
  | .numeral chars =>
      if isNumeralChar c then some ([], .numeral (c :: chars))
      else do
        let ended ← lexeme.finish?
        let (begun, next) ← begin? c
        some (ended ++ begun, next)
  | .word chars =>
      if c.isAlpha then some ([], .word (c :: chars))
      else do
        let ended ← lexeme.finish?
        let (begun, next) ← begin? c
        some (ended ++ begun, next)
  | .text pieces =>
      if c = '"' then some ([.text (textOf? pieces)], .between)
      else if c = '\\' then some ([], .escape pieces)
      else if c.toNat < 32 then none
      else some ([], .text (.char c :: pieces))
  | .escape pieces =>
      if c = 'u' then some ([], .unit pieces 4 0)
      else (simpleEscape? c).map fun plain => ([], .text (.char plain :: pieces))
  | .unit pieces missing value => do
      let digit ← hexValue? c
      if missing ≤ 1 then some ([], .text (.unit (value * 16 + digit) :: pieces))
      else some ([], .unit pieces (missing - 1) (value * 16 + digit))

/-- The tokens of the characters that follow a lexeme, after those found before, which are held in reverse. -/
def tokensFrom (before : List Token) : Lexeme → List Char → Option (List Token)
  | lexeme, [] => lexeme.finish?.map fun found => before.reverse ++ found
  | lexeme, c :: rest => do
      let (found, next) ← lexeme.step? c
      tokensFrom (found.reverse ++ before) next rest

def tokens? (text : String) : Option (List Token) :=
  tokensFrom [] .between text.toList

/-! ## Values -/

abbrev Member : Type :=
  Option String × Written

/-- An array or object that is still open. Its parts are held in reverse. -/
inductive Frame where
  | items (items : List Written)
  | members (members : List Member)
  | member (members : List Member) (name : Option String)

/-- An object cannot be read if one of its names cannot. -/
def closed (members : List Member) : Written :=
  match members.reverse.mapM fun member => member.1.map fun name => (name, member.2) with
  | some named => object named
  | none => unreadable

/-- What has been read, and what may come next. Open arrays and objects stand with the innermost first. -/
inductive Progress where
  | awaitValue (frames : List Frame)
  | awaitFirstItem (frames : List Frame)
  | awaitFirstName (frames : List Frame)
  | awaitName (members : List Member) (frames : List Frame)
  | awaitColon (members : List Member) (name : Option String) (frames : List Frame)
  | awaitSeparator (frames : List Frame)
  | complete (written : Written)

namespace Progress

def deliver (written : Written) : List Frame → Progress
  | [] => complete written
  | .items items :: rest => awaitSeparator (.items (written :: items) :: rest)
  | .member members name :: rest => awaitSeparator (.members ((name, written) :: members) :: rest)
  | .members members :: rest => awaitSeparator (.members members :: rest)

def beginValue? (frames : List Frame) : Token → Option Progress
  | .literal written => some (deliver written frames)
  | .text (some s) => some (deliver (string s) frames)
  | .text none => some (deliver unreadable frames)
  | .openArray => some (awaitFirstItem frames)
  | .openObject => some (awaitFirstName frames)
  | _ => none

def step? : Progress → Token → Option Progress
  | awaitValue frames, token => beginValue? frames token
  | awaitFirstItem frames, .closeArray => some (deliver (array []) frames)
  | awaitFirstItem frames, token => beginValue? (.items [] :: frames) token
  | awaitFirstName frames, .closeObject => some (deliver (object []) frames)
  | awaitFirstName frames, .text s => some (awaitColon [] s frames)
  | awaitName members frames, .text s => some (awaitColon members s frames)
  | awaitColon members s frames, .colon => some (awaitValue (.member members s :: frames))
  | awaitSeparator (.items items :: frames), .comma => some (awaitValue (.items items :: frames))
  | awaitSeparator (.items items :: frames), .closeArray => some (deliver (array items.reverse) frames)
  | awaitSeparator (.members members :: frames), .comma => some (awaitName members frames)
  | awaitSeparator (.members members :: frames), .closeObject => some (deliver (closed members) frames)
  | _, _ => none

def written? : Progress → Option Written
  | complete written => some written
  | _ => none

end Progress

def parse? (text : String) : Option Written := do
  let tokens ← tokens? text
  let last ← tokens.foldlM Progress.step? (.awaitValue [])
  last.written?

def depthLimit : Nat := 127

def read? (text : String) : Option Written :=
  (parse? text).map (within depthLimit)

end InputResolution.Written
