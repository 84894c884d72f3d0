import InputResolution.Metadata
import InputResolution.ResolveError

/-!
Reads from a metadata store as data. A reading is a value that is done, or a request together with what follows from
its answer. So the requests that a computation makes can be looked at without a store, and the same computation can
be run against any source of answers. A source may keep a state and may fail; the first failure ends the run.
-/

namespace InputResolution

inductive Request where
  | artifacts (query : Query)
  | lineage (anchor : Anchor)
  | byId (ids : List Int)
  | context (typeName name : String)
deriving DecidableEq

/-- What a request is answered with. The executions of lineage come in no order that may be relied on, and ids that
are not known have no artifact in the answer. -/
abbrev Request.Answer : Request → Type
  | artifacts _ => List Artifact
  | lineage _ => List Execution
  | byId _ => List Artifact
  | context _ _ => Option RunContext

inductive Reading (α : Type) : Type where
  | done (value : α)
  | ask (request : Request) (next : request.Answer → Reading α)

/-- Answers requests; to answer may change the state. -/
abbrev Source (σ : Type) : Type :=
  (request : Request) → σ → Except StoreError request.Answer × σ

namespace Reading

variable {α β σ : Type}

def bind : Reading α → (α → Reading β) → Reading β
  | done value, f => f value
  | ask request next, f => ask request fun answer => (next answer).bind f

instance : Monad Reading where
  pure := done
  bind := bind

def request (r : Request) : Reading r.Answer :=
  ask r done

def run (source : Source σ) : Reading α → σ → Except StoreError α × σ
  | done value, state => (.ok value, state)
  | ask request next, state =>
      match source request state with
      | (.ok answer, after) => (next answer).run source after
      | (.error failure, after) => (.error failure, after)

def value (answer : (r : Request) → r.Answer) : Reading α → α
  | done result => result
  | ask r next => (next (answer r)).value answer

end Reading

end InputResolution
