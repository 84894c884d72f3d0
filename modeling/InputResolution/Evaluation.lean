import InputResolution.Graph
import InputResolution.Lineage
import InputResolution.Outcome
import InputResolution.Shuffle

/-!
The values of nodes. An operation makes a value from the values of its inputs, by reads if it needs them; it may also
call for a skip. Nodes are evaluated in ascending order of ids, and the first skip or error ends the evaluation.
-/

namespace InputResolution

inductive NodeValue where
  | list (artifacts : List Artifact)
  | listOfLists (lists : List (List Artifact))
  | dict (entries : OrderedMap (List Artifact))
deriving DecidableEq

namespace NodeValue

def shape : NodeValue → Shape
  | list _ => .list
  | listOfLists _ => .listOfLists
  | dict _ => .dict

def size : NodeValue → Nat
  | list artifacts => artifacts.length
  | listOfLists lists => lists.length
  | dict entries => entries.size

/-- No artifacts, no lists, or no artifacts under any key. -/
def isEmpty : NodeValue → Bool
  | list artifacts => artifacts.isEmpty
  | listOfLists lists => lists.isEmpty
  | dict entries => entries.values.all List.isEmpty

end NodeValue

/-- Where shuffles take their seeds from: a common seed, or one drawn for the node. -/
structure Seeding where
  common : Option UInt64
  drawn : Nat → UInt64

/-- The seed for a node; a seed of its own goes before all others. -/
def Seeding.seedOf (seeding : Seeding) (node : Nat) (own : Option UInt64) : UInt64 :=
  (own <|> seeding.common).getD (seeding.drawn node)

inductive Halt where
  | skip (reason : SkipReason)
  | error (cause : ResolveError)
deriving DecidableEq

abbrev Evaluated (α : Type) : Type :=
  Except Halt α

/-- Which reason there is to skip when spans are missing. A required span goes before the count. -/
def insufficientSpans? (node minSpans : Nat) (requiredSpan : Option Int) (artifacts : List Artifact) :
    Option SkipReason :=
  let spans := Window.distinctSpans artifacts
  let tooFew := if spans.length < minSpans then some (.insufficientSpans node spans.length minSpans) else none
  match requiredSpan with
  | some span => if spans.contains span then tooFew else some (.missingRequiredSpan node span)
  | none => tooFew

def Lineage.EvaluatorInputs.toDict (inputs : Lineage.EvaluatorInputs) : OrderedMap (List Artifact) :=
  OrderedMap.ofList [("examples", inputs.examples), ("model", inputs.model)]

namespace Node

variable {α : Type}

def input (node : Node) (values : List NodeValue) (index : Nat) : Evaluated NodeValue :=
  match values[index]? with
  | some value => .ok value
  | none => .error (.error (.missingInput node.id index))

def unexpected (node : Node) (index : Nat) : Evaluated α :=
  .error (.error (.unexpectedShape node.id node.op.name index))

def listInput (node : Node) (values : List NodeValue) (index : Nat) : Evaluated (List Artifact) := do
  match ← node.input values index with
  | .list artifacts => .ok artifacts
  | _ => node.unexpected index

def proceed (value : Evaluated α) (next : α → Reading (Evaluated NodeValue)) : Reading (Evaluated NodeValue) :=
  match value with
  | .ok a => next a
  | .error halt => return .error halt

def listOf (reading : Reading (List Artifact)) : Reading (Evaluated NodeValue) := do
  return .ok (.list (← reading))

def fromList (node : Node) (values : List NodeValue) (f : List Artifact → NodeValue) :
    Reading (Evaluated NodeValue) :=
  return (node.listInput values 0).map f

def guardSpans (node : Node) (minSpans : Nat) (requiredSpan : Option Int) (artifacts : List Artifact) :
    Evaluated NodeValue :=
  match insufficientSpans? node.id minSpans requiredSpan artifacts with
  | some reason => .error (.skip reason)
  | none => .ok (.list artifacts)

def guardNotEmpty (node : Node) (value : NodeValue) : Evaluated NodeValue :=
  if value.isEmpty then .error (.skip (.emptyResult node.id)) else .ok value

def selectKey (node : Node) (key : String) : NodeValue → Evaluated NodeValue
  | .dict entries =>
      match entries.get? key with
      | some artifacts => .ok (.list artifacts)
      | none => .error (.error (.unknownKey node.id key))
  | _ => node.unexpected 0

def value (seeding : Seeding) (node : Node) (values : List NodeValue) : Reading (Evaluated NodeValue) :=
  match node.op with
  | .input query => listOf (Reading.request (.artifacts query))
  | .latestPipelineRunOutputs pipeline outputKey => listOf (Lineage.latestPipelineRunOutputs pipeline outputKey)
  | .latestCreated n => node.fromList values fun xs => .list (Window.latestCreated n xs)
  | .latestVersion n => node.fromList values fun xs => .list (Window.latestVersion n xs)
  | .allSpans => node.fromList values fun xs => .list (Window.allSpans xs)
  | .staticRange range => node.fromList values fun xs => .list (Window.staticRange range xs)
  | .rollingRange range => node.fromList values fun xs => .list (Window.rollingRange range xs)
  | .sequentialRange range => node.fromList values fun xs => .listOfLists (Window.sequentialRange range xs)
  | .shuffle seed => node.fromList values fun xs => .list (shuffle (seeding.seedOf node.id seed) xs)
  | .trainingRange examplesType =>
      proceed (node.listInput values 0) fun models => listOf (Lineage.trainingRange models examplesType)
  | .latestTrained => proceed (node.listInput values 0) fun xs => listOf (Lineage.latestTrained xs)
  | .evaluatorInputs params =>
      proceed (node.listInput values 0) fun examples =>
        proceed (node.listInput values 1) fun models => do
          let found ← Lineage.evaluatorInputs examples models params
          return .ok (.dict found.toDict)
  | .select key => return (node.input values 0).bind (node.selectKey key)
  | .skipIfInsufficientSpans minSpans requiredSpan =>
      return (node.listInput values 0).bind (node.guardSpans minSpans requiredSpan)
  | .skipIfEmpty => return (node.input values 0).bind node.guardNotEmpty

def inputValues (node : Node) (known : List (Nat × NodeValue)) : Evaluated (List NodeValue) :=
  node.inputs.mapM fun input =>
    match known.lookup input with
    | some value => .ok value
    | none => .error (.error (.inputNotEvaluated node.id input))

end Node

namespace Graph

/-- Evaluates these nodes in turn, after those whose values are known. -/
def evaluate (seeding : Seeding) (g : Graph) (known : List (Nat × NodeValue)) :
    List Nat → Reading (Evaluated (List (Nat × NodeValue)))
  | [] => return .ok known
  | id :: rest =>
      match g.node? id with
      | none => return .error (.error (.unknownNode id))
      | some node =>
          match node.inputValues known with
          | .error halt => return .error halt
          | .ok values => do
              match ← node.value seeding values with
              | .error halt => return .error halt
              | .ok value => g.evaluate seeding ((id, value) :: known) rest

end Graph

end InputResolution
