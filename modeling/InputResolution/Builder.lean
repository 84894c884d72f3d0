import InputResolution.Invocation
import InputResolution.Record.Operator
import InputResolution.ResolutionContext

/-!
Builders of resolution contexts. Each function adds its nodes to the graph and issues a channel that remembers how it
was called, with the parameters that were left out at their defaults. A call that fails keeps the nodes and slots that
it had added before it failed.
-/

namespace InputResolution

structure Builder where
  id : Nat
  graph : Graph
  slots : OrderedMap SlotBinding

/-- A call on a builder: it fails or gives a value, and leaves a builder either way. -/
abbrev Building (α : Type) : Type :=
  ExceptT ResolveError (StateM Builder) α

namespace Builder

def ofId (id : Nat) : Builder :=
  ⟨id, Graph.empty, OrderedMap.empty⟩

def owns (b : Builder) (channel : Channel) : Bool :=
  channel.builder = b.id && (b.graph.node? channel.node).isSome

def checkOwned (channel : Channel) : Building Unit := do
  if (← get).owns channel then return () else throw (.foreignChannel channel.node)

def addNode (op : Operator) (inputs : List Nat) : Building Nat := do
  let b ← get
  match b.graph.addOp op inputs with
  | .ok (node, graph) =>
      set { b with graph }
      return node
  | .error cause => throw cause

def push (op : Operator) (inputs : List Channel) : Building Nat := do
  inputs.forM checkOwned
  addNode op (inputs.map Channel.node)

def issue (node : Nat) (call : Invocation) : Building Channel := do
  let b ← get
  match b.graph.node? node with
  | some found => return Channel.ofInvocation b.id node found.outputShape call
  | none => throw (.vanishedNode node)

def call (function : String) (inputs : List Channel) (kwargs : List (String × Json)) : Invocation :=
  ⟨function, inputs.map Channel.arg, OrderedMap.ofList kwargs⟩

/-! ## Queries and functions -/

def query (q : Query) : Building Channel := do
  let node ← addNode (.input q) []
  return Channel.ofQuery (← get).id node q.typeName

def artifactQuery (typeName : String) : Building Channel :=
  query (Query.ofType typeName)

def single (op : Operator) (input : Channel) (kwargs : List (String × Json)) : Building Channel := do
  let node ← push op [input]
  issue node (call op.name [input] kwargs)

def latestCreated (input : Channel) (n : Nat) : Building Channel :=
  single (.latestCreated n) input [("n", .int n)]

def latestVersion (input : Channel) (n : Nat) : Building Channel :=
  single (.latestVersion n) input [("n", .int n)]

def allSpans (input : Channel) : Building Channel :=
  single .allSpans input []

def maxWidth : Int := 9223372036854775807

/-- The number of spans from a start to an end that are not excluded. -/
def spansWanted (startSpan endSpan : Int) (excluded : List Int) : Nat :=
  let missing := (distinctAscending excluded).filter fun span => startSpan ≤ span && span ≤ endSpan
  (endSpan - startSpan + 1).toNat - missing.length

/-- A fixed range. With a start, the step is skipped unless all spans of the range that are not excluded are there. -/
def staticRange (input : Channel) (range : StaticRange) : Building Channel := do
  let made := call "static_range" [input] [
    ("start_span_number", Record.ofOption .int range.startSpan),
    ("end_span_number", .int range.endSpan),
    ("keep_all_versions", .bool range.keepAllVersions),
    ("exclude_span_numbers", Record.ofList .int range.excludedSpans)]
  let node ← push (.staticRange range) [input]
  match range.startSpan with
  | none => issue node made
  | some startSpan =>
      if maxWidth < range.endSpan - startSpan + 1 then throw (.rangeTooWide startSpan range.endSpan)
      else
        let minSpans := spansWanted startSpan range.endSpan range.excludedSpans
        let requiredSpan := if range.excludedSpans.contains startSpan then none else some startSpan
        let guarded ← addNode (.skipIfInsufficientSpans minSpans requiredSpan) [node]
        issue guarded made

/-- The earliest spans from a start on; the step is skipped if there are too few. -/
def rollingRange (input : Channel) (range : RollingRange) : Building Channel := do
  let made := call "rolling_range" [input] [
    ("start_span_number", .int range.startSpan),
    ("num_spans", .int range.numSpans),
    ("skip_num_recent_spans", .int range.skippedRecentSpans),
    ("keep_all_versions", .bool range.keepAllVersions)]
  let node ← push (.rollingRange range) [input]
  let guarded ← addNode (.skipIfInsufficientSpans range.numSpans none) [node]
  issue guarded made

def sequentialRange (input : Channel) (range : SequentialRange) : Building Channel :=
  single (.sequentialRange range) input [
    ("start_span_number", .int range.startSpan),
    ("num_spans", .int range.numSpans),
    ("skip_num_recent_spans", .int range.skippedRecentSpans),
    ("keep_all_versions", .bool range.keepAllVersions),
    ("exclude_span_numbers", Record.ofList .int range.excludedSpans)]

def shuffle (input : Channel) (seed : Option UInt64) : Building Channel :=
  single (.shuffle seed) input [("seed", Record.ofOption Operator.ofSeed seed)]

def trainingRange (models : Channel) : Building Channel :=
  single (.trainingRange Operator.defaultExamplesType) models []

/-- What the latest execution made; if that is nothing, the step is skipped or the slot may be empty. -/
def latestTrained (input : Channel) (raiseSkipSignal : Bool) : Building Channel := do
  let made := call "latest_trained" [input] [("raise_skip_signal", .bool raiseSkipSignal)]
  let trained ← push .latestTrained [input]
  if raiseSkipSignal then
    let guarded ← addNode .skipIfEmpty [trained]
    issue guarded made
  else
    let channel ← issue trained made
    return channel.allowingEmpty

def addOutputs (pipeline : String) (issued : OrderedMap Channel) : List String → Building (OrderedMap Channel)
  | [] => return issued
  | key :: rest => do
      if issued.contains key then throw (.repeatedOutputKey key)
      let node ← addNode (.latestPipelineRunOutputs pipeline key) []
      let channel ← issue node
        (call "latest_pipeline_run_outputs" [] [("pipeline_name", .string pipeline), ("output_key", .string key)])
      addOutputs pipeline (issued.insert key channel) rest

def latestPipelineRunOutputs (pipeline : String) (outputKeys : List String) : Building (OrderedMap Channel) :=
  if outputKeys.isEmpty then throw (.noOutputKeys pipeline) else addOutputs pipeline OrderedMap.empty outputKeys

def addSelections (joint : Nat) (made : Invocation) (issued : OrderedMap Channel) :
    List String → Building (OrderedMap Channel)
  | [] => return issued
  | key :: rest => do
      let node ← addNode (.select key) [joint]
      let channel ← issue node made
      addSelections joint made (issued.insert key channel) rest

def evaluatorInputs (examples models : Channel) (params : SpanDriven) : Building (OrderedMap Channel) := do
  let op := Operator.evaluatorInputs params
  let joint ← push op [examples, models]
  addSelections joint (call op.name [examples, models] op.parameters) OrderedMap.empty ["examples", "model"]

/-! ## Slots -/

def bindWithMinCount (slot : String) (channel : Channel) (minCount : Nat) : Building Unit := do
  checkOwned channel
  let b ← get
  if b.slots.contains slot then throw (.slotTaken slot)
  set { b with slots := b.slots.insert slot ⟨channel.node, minCount, channel.invocation⟩ }

/-- Binds a slot, which needs an artifact unless its channel may be empty. -/
def bind (slot : String) (channel : Channel) : Building Unit :=
  bindWithMinCount slot channel (if channel.allowsEmpty then 0 else 1)

def bindAll (channels : OrderedMap Channel) : Building Unit :=
  channels.entries.forM fun entry => bind entry.1 entry.2

def build (b : Builder) : Except ResolveError ResolutionContext := do
  let context ← b.slots.entries.foldlM (fun context entry => context.bind entry.1 entry.2)
    (ResolutionContext.ofGraph b.graph)
  context.validate
  .ok context

end Builder

end InputResolution
