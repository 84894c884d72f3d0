import InputResolution.Reading
import InputResolution.Record.Metadata

/-!
Sources under observation. Every request that reaches the source is noted, and rules decide which kinds of requests
fail. This shows how a computation reads, and what it does when a read fails.
-/

namespace InputResolution

namespace Request

def method : Request → String
  | artifacts _ => "query_artifacts"
  | lineage _ => "get_lineage"
  | byId _ => "get_artifacts_by_id"
  | context _ _ => "get_context"

def line (request : Request) : String :=
  request.method ++ " " ++
    match request with
    | artifacts query => query.key
    | lineage (.artifact id) => s!"artifact {id}"
    | lineage (.context id) => s!"context {id}"
    | byId ids => String.intercalate "," (ids.map fun id => toString id)
    | context typeName name => s!"{typeName}/{name}"

end Request

structure Fault where
  method : String
  failure : StoreError
deriving DecidableEq

namespace Fault

def failure? (faults : List Fault) (request : Request) : Option StoreError :=
  (faults.find? fun fault => fault.method = request.method).map Fault.failure

end Fault

/-- Answers from a snapshot as far as the faults allow it. The state holds the requests made, the last one first. -/
def observed (answer : (request : Request) → request.Answer) (faults : List Fault) : Source (List Request) :=
  fun request log =>
    match Fault.failure? faults request with
    | some failure => (.error failure, request :: log)
    | none => (.ok (answer request), request :: log)

end InputResolution
