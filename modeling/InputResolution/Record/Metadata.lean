import InputResolution.Json
import InputResolution.Metadata
import InputResolution.Record
import InputResolution.Snapshot

/-!
The records of a metadata store as JSON. A whole number outside of 64 signed bits is a property of type double. A query
without a state asks for live artifacts, and one whose state is `null` for artifacts in any state; its text is what it is
remembered by.
-/

namespace InputResolution

open Record

def Property.ofWritten? : Written → Option Property
  | .int i => if isSigned i then some (.int i) else (Double.ofInt? i).map .double
  | .double x => some (.double x)
  | .string s => some (.text s)
  | _ => none

def Property.toJson : Property → Json
  | .int i => .int i
  | .double x => .double x
  | .text s => .string s

def ArtifactState.name : ArtifactState → String
  | unknown => "UNKNOWN"
  | pending => "PENDING"
  | live => "LIVE"
  | markedForDeletion => "MARKED_FOR_DELETION"
  | deleted => "DELETED"
  | abandoned => "ABANDONED"
  | reference => "REFERENCE"

def ArtifactState.ofName? (name : String) : Option ArtifactState :=
  [unknown, pending, live, markedForDeletion, deleted, abandoned, reference].find? fun state =>
    state.name = name

def ArtifactState.ofWritten? (spelling : Spelling) (written : Written) : Option ArtifactState :=
  (name? spelling written).bind ofName?

def ArtifactState.toJson (state : ArtifactState) : Json :=
  .string state.name

def Instant.ofWritten? (written : Written) : Option Instant :=
  (text? written).bind read?

def Instant.toJson (t : Instant) : Json :=
  .string t.text

def propertiesOfWritten? (written : Written) : Option (SortedMap Property) :=
  match written with
  | .object members => (entries? Property.ofWritten? members).map SortedMap.ofList
  | _ => none

def propertiesToJson (properties : SortedMap Property) : Json :=
  .object (properties.entries.map fun entry => (entry.1, entry.2.toJson))

namespace Artifact

def ofWritten? (spelling : Spelling) (written : Written) : Option Artifact := do
  match ← fields? ["id", "type_name", "uri", "state", "properties", "create_time"] written with
  | [id, typeName, uri, state, properties, createTime] =>
      some {
        id := ← required int? id
        typeName := ← required text? typeName
        uri := ← orElse "" text? uri
        state := ← orElse .live (ArtifactState.ofWritten? spelling) state
        properties := ← orElse SortedMap.empty propertiesOfWritten? properties
        createTime := ← required Instant.ofWritten? createTime }
  | _ => none

def toJson (a : Artifact) : Json :=
  .object [
    ("id", .int a.id),
    ("type_name", .string a.typeName),
    ("uri", .string a.uri),
    ("state", a.state.toJson),
    ("properties", propertiesToJson a.properties),
    ("create_time", a.createTime.toJson)]

end Artifact

/-! ## Queries -/

def Relation.name : Relation → String
  | eq => "eq"
  | ne => "ne"
  | lt => "lt"
  | le => "le"
  | gt => "gt"
  | ge => "ge"

def Relation.ofWritten? (spelling : Spelling) (written : Written) : Option Relation :=
  (name? spelling written).bind fun name => [eq, ne, lt, le, gt, ge].find? fun relation => relation.name = name

def Relation.toJson (relation : Relation) : Json :=
  .string relation.name

namespace Filter

def ofWritten? (spelling : Spelling) (written : Written) : Option Filter := do
  match ← fields? ["property", "op", "value"] written with
  | [property, relation, value] =>
      some {
        property := ← required text? property
        relation := ← required (Relation.ofWritten? spelling) relation
        value := ← required Property.ofWritten? value }
  | _ => none

def toJson (f : Filter) : Json :=
  .object [("property", .string f.property), ("op", f.relation.toJson), ("value", f.value.toJson)]

end Filter

namespace Query

def stateOfWritten? (spelling : Spelling) : Written → Option (Option ArtifactState)
  | .null => some none
  | written => (ArtifactState.ofWritten? spelling written).map some

def ofWritten? (spelling : Spelling) (written : Written) : Option Query := do
  match ← fields? ["type_name", "filters", "state"] written with
  | [typeName, filters, state] =>
      some {
        typeName := ← required text? typeName
        filters := ← orElse [] (list? (Filter.ofWritten? spelling)) filters
        state := ← orElse (some .live) (stateOfWritten? spelling) state }
  | _ => none

def toJson (q : Query) : Json :=
  .object [
    ("type_name", .string q.typeName),
    ("filters", ofList Filter.toJson q.filters),
    ("state", ofOption ArtifactState.toJson q.state)]

def key (q : Query) : String :=
  q.toJson.canonicalText

end Query

/-! ## Lineage -/

namespace Execution

def eventsOfWritten? (written : Written) : Option (OrderedMap (List Int)) :=
  map? (list? int?) written

def eventsToJson (events : OrderedMap (List Int)) : Json :=
  ofMap (ofList .int) events

def ofWritten? (written : Written) : Option Execution := do
  match ← fields? ["id", "type_name", "create_time", "inputs", "outputs", "contexts"] written with
  | [id, typeName, createTime, inputs, outputs, contexts] =>
      some {
        id := ← required int? id
        typeName := ← required text? typeName
        createTime := ← required Instant.ofWritten? createTime
        inputs := ← orElse OrderedMap.empty eventsOfWritten? inputs
        outputs := ← orElse OrderedMap.empty eventsOfWritten? outputs
        contexts := ← orElse [] (list? int?) contexts }
  | _ => none

def toJson (e : Execution) : Json :=
  .object [
    ("id", .int e.id),
    ("type_name", .string e.typeName),
    ("create_time", e.createTime.toJson),
    ("inputs", eventsToJson e.inputs),
    ("outputs", eventsToJson e.outputs),
    ("contexts", ofList .int e.contexts)]

end Execution

namespace RunContext

def ofWritten? (written : Written) : Option RunContext := do
  match ← fields? ["id", "type_name", "name"] written with
  | [id, typeName, name] =>
      some {
        id := ← required int? id
        typeName := ← required text? typeName
        name := ← required text? name }
  | _ => none

def toJson (c : RunContext) : Json :=
  .object [("id", .int c.id), ("type_name", .string c.typeName), ("name", .string c.name)]

end RunContext

namespace Anchor

def ofWritten? : Written → Option Anchor
  | .object [("artifact", id)] => (int? id).map artifact
  | .object [("context", id)] => (int? id).map context
  | _ => none

def toJson : Anchor → Json
  | artifact id => .object [("artifact", .int id)]
  | context id => .object [("context", .int id)]

end Anchor

namespace Snapshot

def ofWritten? (written : Written) : Option Snapshot := do
  match ← fields? ["artifacts", "executions", "contexts"] written with
  | [artifacts, executions, contexts] =>
      some {
        artifacts := ← orElse [] (list? (Artifact.ofWritten? .strict)) artifacts
        executions := ← orElse [] (list? Execution.ofWritten?) executions
        contexts := ← orElse [] (list? RunContext.ofWritten?) contexts }
  | _ => none

def toJson (s : Snapshot) : Json :=
  .object [
    ("artifacts", ofList Artifact.toJson s.artifacts),
    ("executions", ofList Execution.toJson s.executions),
    ("contexts", ofList RunContext.toJson s.contexts)]

end Snapshot

end InputResolution
