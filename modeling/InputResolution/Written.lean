import InputResolution.Json
import InputResolution.OrderedMap

/-!
JSON as it stands in a text. An object may hold a name more than once, and a part may be well formed and still say
nothing that a value can hold: a number beyond all doubles, half of a character, or arrays and objects nested too
deep. Such a part does no harm as long as nobody reads it.

`value?` is the value of what is written, if every part of it can be read. `within` makes unreadable what is nested
deeper than a limit.
-/

namespace InputResolution

inductive Written where
  | null
  | bool (b : Bool)
  | int (i : Int)
  | double (x : Double)
  | string (s : String)
  | array (items : List Written)
  | object (members : List (String × Written))
  | unreadable

namespace Written

instance : Inhabited Written := ⟨null⟩

def valuesOf (name : String) : List (String × Written) → List Written
  | [] => []
  | (key, written) :: rest => if key = name then written :: valuesOf name rest else valuesOf name rest

mutual

/-- The value, with one member for each name: the first place keeps the last value. -/
def value? : Written → Option Json
  | null => some .null
  | bool b => some (.bool b)
  | int i => some (.int i)
  | double x => some (.double x)
  | string s => some (.string s)
  | array items => (itemValues? items).map .array
  | object members => (memberValues? members []).map .object
  | unreadable => none

def itemValues? : List Written → Option (List Json)
  | [] => some []
  | item :: rest =>
      match value? item with
      | some value => (itemValues? rest).map (value :: ·)
      | none => none

def memberValues? : List (String × Written) → List (String × Json) → Option (List (String × Json))
  | [], settled => some settled
  | (name, written) :: rest, settled =>
      match value? written with
      | some value => memberValues? rest (OrderedMap.insertEntry name value settled)
      | none => none

end

def isReadable (written : Written) : Bool :=
  written.value?.isSome

mutual

/-- The same with arrays and objects nested at most this deep. -/
def within : Nat → Written → Written
  | limit + 1, array items => array (itemsWithin limit items)
  | 0, array _ => unreadable
  | limit + 1, object members => object (membersWithin limit members)
  | 0, object _ => unreadable
  | _, null => null
  | _, bool b => bool b
  | _, int i => int i
  | _, double x => double x
  | _, string s => string s
  | _, unreadable => unreadable

def itemsWithin : Nat → List Written → List Written
  | _, [] => []
  | limit, item :: rest => within limit item :: itemsWithin limit rest

def membersWithin : Nat → List (String × Written) → List (String × Written)
  | _, [] => []
  | limit, (name, written) :: rest => (name, within limit written) :: membersWithin limit rest

end

mutual

def ofJson : Json → Written
  | .null => null
  | .bool b => bool b
  | .int i => int i
  | .double x => double x
  | .string s => string s
  | .array items => array (ofItems items)
  | .object members => object (ofMembers members)

def ofItems : List Json → List Written
  | [] => []
  | item :: rest => ofJson item :: ofItems rest

def ofMembers : List (String × Json) → List (String × Written)
  | [] => []
  | (name, value) :: rest => (name, ofJson value) :: ofMembers rest

end

end Written

end InputResolution
