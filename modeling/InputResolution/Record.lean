import InputResolution.OrderedMap
import InputResolution.Written

/-!
How records are laid out in JSON.

A record is an object with a member for each field, or an array of its fields in order. Members with other names are
ignored, but a field may not be given twice. A field with a default may be missing, and at the end of an array too.

A choice between records is marked by a tag: a member of the object, or the first item of the array. A record with a
tag is read as a whole, so that no part of it may be unreadable. A choice between names is the name as a text, or an
object whose only member has that name and the value `null`.

What stands inside a tagged record may be spelled more freely. A tag may be the number of its name, counted from zero,
and the empty object may stand in for `null` behind a name.
-/

namespace InputResolution.Record

open Written (valuesOf)

/-- How choices may be spelled: as everywhere, or as inside a tagged record. -/
inductive Spelling where
  | strict
  | free
deriving DecidableEq

def fields? (names : List String) : Written → Option (List (Option Written))
  | .object members =>
      names.mapM fun name =>
        match valuesOf name members with
        | [] => some none
        | [written] => some (some written)
        | _ => none
  | .array items =>
      if items.length ≤ names.length then
        some (items.map some ++ List.replicate (names.length - items.length) none)
      else none
  | _ => none

variable {α : Type}

def required (read : Written → Option α) : Option Written → Option α
  | some written => read written
  | none => none

def orElse (default : α) (read : Written → Option α) : Option Written → Option α
  | some written => read written
  | none => some default

/-- A field that may be missing or `null`. -/
def optional (read : Written → Option α) : Option Written → Option (Option α)
  | some .null => some none
  | some written => (read written).map some
  | none => some none

/-! ## Values of fields -/

def text? : Written → Option String
  | .string s => some s
  | _ => none

def bool? : Written → Option Bool
  | .bool b => some b
  | _ => none

def isSigned (i : Int) : Bool :=
  -9223372036854775808 ≤ i && i ≤ 9223372036854775807

def isUnsigned (i : Int) : Bool :=
  0 ≤ i && i ≤ 18446744073709551615

def int? : Written → Option Int
  | .int i => if isSigned i then some i else none
  | _ => none

def nat? : Written → Option Nat
  | .int i => if isUnsigned i then some i.toNat else none
  | _ => none

def list? (read : Written → Option α) : Written → Option (List α)
  | .array items => items.mapM read
  | _ => none

def entries? (read : Written → Option α) (members : List (String × Written)) : Option (List (String × α)) :=
  members.mapM fun member => (read member.2).map fun value => (member.1, value)

/-- A map from names; a name that comes again keeps its place and takes its last value. -/
def map? (read : Written → Option α) : Written → Option (OrderedMap α)
  | .object members => (entries? read members).map OrderedMap.ofList
  | _ => none

/-! ## Choices -/

def name? : Spelling → Written → Option String
  | _, .string s => some s
  | _, .object [(name, .null)] => some name
  | .free, .object [(name, .object [])] => some name
  | _, _ => none

def tagName? (spelling : Spelling) (names : List String) : Written → Option String
  | .string s => some s
  | .int i => if spelling = .free ∧ 0 ≤ i then names[i.toNat]? else none
  | _ => none

def tagged? (spelling : Spelling) (tag : String) (names : List String) (written : Written) :
    Option (String × Written) :=
  if !written.isReadable then none
  else
    match written with
    | .object members =>
        match valuesOf tag members with
        | [given] =>
            (tagName? spelling names given).map fun name =>
              (name, .object (members.filter fun member => member.1 ≠ tag))
        | _ => none
    | .array (given :: rest) => (tagName? spelling names given).map fun name => (name, .array rest)
    | _ => none

def empty? : Written → Option Unit
  | .object _ => some ()
  | .array [] => some ()
  | _ => none

/-! ## Writing -/

def ofNat (n : Nat) : Json :=
  .int n

def ofList (write : α → Json) (xs : List α) : Json :=
  .array (xs.map write)

def ofOption (write : α → Json) : Option α → Json
  | some value => write value
  | none => .null

def ofMap (write : α → Json) (m : OrderedMap α) : Json :=
  .object (m.entries.map fun entry => (entry.1, write entry.2))

end InputResolution.Record
