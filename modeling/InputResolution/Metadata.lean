import InputResolution.Double
import InputResolution.Instant
import InputResolution.OrderedMap
import InputResolution.Sorting

/-!
The records of a metadata store. The property `span` places an artifact on a logical time line, and the property
`version` numbers the revisions within a span. Creation order is by time and then by id. An artifact without a span has
the empty key, which comes before all others. An execution links the artifacts that it consumed and produced, grouped by
event key, to the contexts in which it ran.

Properties are ordered where they can be compared. Numbers compare with numbers and texts with texts; a whole number
meets a double as the double nearest to it. Nothing else is comparable.

A query asks for artifacts of a type, in a state that is required or in any, and its filters must all hold. An artifact
that lacks the property of a filter, or holds a value that cannot be compared with it, fails the filter.
-/

namespace InputResolution

inductive Property where
  | int (i : Int)
  | double (x : Double)
  | text (s : String)
deriving DecidableEq

namespace Property

def asInt? : Property → Option Int
  | int i => some i
  | _ => none

def asText? : Property → Option String
  | text s => some s
  | _ => none

def compare? : Property → Property → Option Ordering
  | int a, int b => some (compare a b)
  | text a, text b => some (compare a b)
  | int a, double b => some (compare (Double.placeOfInt a) b.place)
  | double a, int b => some (compare a.place (Double.placeOfInt b))
  | double a, double b => some (compare a.place b.place)
  | _, _ => none

end Property

inductive ArtifactState where
  | unknown
  | pending
  | live
  | markedForDeletion
  | deleted
  | abandoned
  | reference
deriving DecidableEq

structure Artifact where
  id : Int
  typeName : String
  uri : String
  state : ArtifactState
  properties : SortedMap Property
  createTime : Instant
deriving DecidableEq

namespace Artifact

def intProperty? (a : Artifact) (name : String) : Option Int :=
  (a.properties.get? name).bind Property.asInt?

def span? (a : Artifact) : Option Int :=
  a.intProperty? "span"

/-- The revision within the span; an artifact without one counts as the first, which is zero. -/
def version (a : Artifact) : Int :=
  (a.intProperty? "version").getD 0

def creationKey (a : Artifact) : SortKey :=
  a.createTime.key ++ [a.id]

def spanKey (a : Artifact) : SortKey :=
  match a.span? with
  | some span => span :: a.version :: a.creationKey
  | none => []

end Artifact

/-! ## Queries -/

inductive Relation where
  | eq
  | ne
  | lt
  | le
  | gt
  | ge
deriving DecidableEq

def Relation.holds : Relation → Ordering → Bool
  | eq, o => o.isEq
  | ne, o => o.isNe
  | lt, o => o.isLT
  | le, o => o.isLE
  | gt, o => o.isGT
  | ge, o => o.isGE

structure Filter where
  property : String
  relation : Relation
  value : Property
deriving DecidableEq

def Filter.accepts (f : Filter) (a : Artifact) : Bool :=
  match a.properties.get? f.property with
  | none => false
  | some actual =>
      match actual.compare? f.value with
      | none => false
      | some order => f.relation.holds order

structure Query where
  typeName : String
  filters : List Filter
  state : Option ArtifactState
deriving DecidableEq

namespace Query

def ofType (typeName : String) : Query :=
  ⟨typeName, [], some .live⟩

def accepts (q : Query) (a : Artifact) : Bool :=
  a.typeName = q.typeName && q.state.all (fun state => a.state = state) && q.filters.all fun f => f.accepts a

end Query

/-! ## Lineage -/

structure Execution where
  id : Int
  typeName : String
  createTime : Instant
  inputs : OrderedMap (List Int)
  outputs : OrderedMap (List Int)
  contexts : List Int
deriving DecidableEq

namespace Execution

def inputIds (e : Execution) : List Int :=
  e.inputs.values.flatten

def outputIds (e : Execution) : List Int :=
  e.outputs.values.flatten

def produced (e : Execution) (artifact : Int) : Bool :=
  decide (artifact ∈ e.outputIds)

def consumed (e : Execution) (artifact : Int) : Bool :=
  decide (artifact ∈ e.inputIds)

def creationKey (e : Execution) : SortKey :=
  e.createTime.key ++ [e.id]

end Execution

/-- A named group of executions, such as the runs of one pipeline. -/
structure RunContext where
  id : Int
  typeName : String
  name : String
deriving DecidableEq

inductive Anchor where
  | artifact (id : Int)
  | context (id : Int)
deriving DecidableEq

end InputResolution
