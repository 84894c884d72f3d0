import InputResolution.Double.Decimal
import InputResolution.Sorting

/-!
JSON values and their written form. Whole numbers and doubles are kept apart, and an object keeps its members in the
order in which they were given.

The canonical text has no white space and names its members in ascending order, so two values that differ only in the
order of members have one text. The indented text shows the same value with two spaces for each level.
-/

namespace InputResolution

inductive Json where
  | null
  | bool (b : Bool)
  | int (i : Int)
  | double (x : Double)
  | string (s : String)
  | array (items : List Json)
  | object (members : List (String × Json))

namespace Json

instance : Inhabited Json := ⟨null⟩

def escapeChar (c : Char) : List Char :=
  if c = '"' then ['\\', '"']
  else if c = '\\' then ['\\', '\\']
  else if c = '\x08' then ['\\', 'b']
  else if c = '\x0c' then ['\\', 'f']
  else if c = '\n' then ['\\', 'n']
  else if c = '\r' then ['\\', 'r']
  else if c = '\t' then ['\\', 't']
  else if c.toNat < 32 then
    ['\\', 'u', '0', '0', Nat.digitChar (c.toNat / 16), Nat.digitChar (c.toNat % 16)]
  else [c]

def quoted (s : String) : String :=
  String.ofList ('"' :: s.toList.flatMap escapeChar ++ ['"'])

def byName {α : Type} (members : List (String × α)) : List (String × α) :=
  sortBy Prod.fst members

def bracketed (left right : String) (items : List String) : String :=
  left ++ String.intercalate "," items ++ right

mutual

def canonicalText : Json → String
  | null => "null"
  | bool b => if b then "true" else "false"
  | int i => toString i
  | double x => x.text
  | string s => quoted s
  | array items => bracketed "[" "]" (itemTexts items)
  | object members =>
      bracketed "\x7b" "\x7d" ((byName (memberTexts members)).map fun m => quoted m.1 ++ ":" ++ m.2)

def itemTexts : List Json → List String
  | [] => []
  | item :: rest => canonicalText item :: itemTexts rest

def memberTexts : List (String × Json) → List (String × String)
  | [] => []
  | (name, value) :: rest => (name, canonicalText value) :: memberTexts rest

end

/-- Parts on lines of their own, between brackets; no parts leave the brackets closed up. -/
def indented (left right : String) (level : Nat) (parts : List String) : String :=
  if parts.isEmpty then left ++ right
  else
    let line (depth : Nat) := "\n" ++ String.ofList (List.replicate (2 * depth) ' ')
    left ++ line (level + 1) ++ String.intercalate ("," ++ line (level + 1)) parts ++ line level ++ right

mutual

def indentedText (level : Nat) : Json → String
  | null => "null"
  | bool b => if b then "true" else "false"
  | int i => toString i
  | double x => x.text
  | string s => quoted s
  | array items => indented "[" "]" level (indentedItems (level + 1) items)
  | object members =>
      indented "\x7b" "\x7d" level
        ((byName (indentedMembers (level + 1) members)).map fun m => quoted m.1 ++ ": " ++ m.2)

def indentedItems (level : Nat) : List Json → List String
  | [] => []
  | item :: rest => indentedText level item :: indentedItems level rest

def indentedMembers (level : Nat) : List (String × Json) → List (String × String)
  | [] => []
  | (name, value) :: rest => (name, indentedText level value) :: indentedMembers level rest

end

end Json

end InputResolution
