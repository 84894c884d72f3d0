import InputResolution.Reading

/-!
Snapshots of a metadata store: all its records, in the order in which they were stored. A record that the snapshot
makes itself gets an id above all ids of its table, and a time that is later than that of every artifact and every
execution.
-/

namespace InputResolution

structure Snapshot where
  artifacts : List Artifact
  executions : List Execution
  contexts : List RunContext
deriving DecidableEq

namespace Snapshot

def empty : Snapshot := ⟨[], [], []⟩

/-! ## Answers -/

def related (anchor : Anchor) (e : Execution) : Bool :=
  match anchor with
  | .artifact id => e.produced id || e.consumed id
  | .context id => e.contexts.contains id

/-- Executions that touch the anchor, in ascending order of ids. -/
def lineage (s : Snapshot) (anchor : Anchor) : List Execution :=
  sortBy (fun e => [e.id]) (s.executions.filter (related anchor))

def artifact? (s : Snapshot) (id : Int) : Option Artifact :=
  s.artifacts.find? fun a => a.id = id

def context? (s : Snapshot) (typeName name : String) : Option RunContext :=
  s.contexts.find? fun c => c.typeName = typeName && c.name = name

def answer (s : Snapshot) : (request : Request) → request.Answer
  | .artifacts query => s.artifacts.filter query.accepts
  | .lineage anchor => s.lineage anchor
  | .byId ids => ids.filterMap s.artifact?
  | .context typeName name => s.context? typeName name

def source {σ : Type} (s : Snapshot) : Source σ := fun request state =>
  (.ok (s.answer request), state)

/-! ## New records -/

def nextId (ids : List Int) : Int :=
  ids.max?.getD 0 + 1

/-- The first second of 2024, at which the clock of an empty snapshot stands. -/
def clockOrigin : Int := 1704067200

def times (s : Snapshot) : List Instant :=
  s.artifacts.map Artifact.createTime ++ s.executions.map Execution.createTime

/-- The full second after the latest time of any record. -/
def nextTime (s : Snapshot) : Instant :=
  match latestBy? Instant.key s.times with
  | some latest => Instant.ofSeconds (latest.seconds + 1)
  | none => Instant.ofSeconds clockOrigin

def putArtifact (s : Snapshot) (typeName : String) (properties : List (String × Property)) :
    Artifact × Snapshot :=
  let id := nextId (s.artifacts.map Artifact.id)
  let artifact : Artifact :=
    { id, typeName, uri := s!"mem://{typeName}/{id}", state := .live,
      properties := SortedMap.ofList properties, createTime := s.nextTime }
  (artifact, { s with artifacts := s.artifacts ++ [artifact] })

def putSpanned (s : Snapshot) (typeName : String) (span version : Int) : Artifact × Snapshot :=
  s.putArtifact typeName [("span", .int span), ("version", .int version)]

/-- Stores an artifact as it is, at the end; it replaces those with the same id. -/
def insertArtifact (s : Snapshot) (artifact : Artifact) : Snapshot :=
  { s with artifacts := s.artifacts.filter (fun a => a.id ≠ artifact.id) ++ [artifact] }

def putContext (s : Snapshot) (typeName name : String) : RunContext × Snapshot :=
  match s.context? typeName name with
  | some found => (found, s)
  | none =>
      let context : RunContext := { id := nextId (s.contexts.map RunContext.id), typeName, name }
      (context, { s with contexts := s.contexts ++ [context] })

def putExecution (s : Snapshot) (typeName : String) (inputs outputs : List (String × List Int))
    (contexts : List Int) : Execution × Snapshot :=
  let execution : Execution :=
    { id := nextId (s.executions.map Execution.id), typeName, createTime := s.nextTime,
      inputs := OrderedMap.ofList inputs, outputs := OrderedMap.ofList outputs, contexts }
  (execution, { s with executions := s.executions ++ [execution] })

end Snapshot

end InputResolution
