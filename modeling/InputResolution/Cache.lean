import InputResolution.Reading
import InputResolution.Record.Metadata
import InputResolution.Window

/-!
A cache of reads for one resolution. Each query, each lineage anchor, each context and each artifact id is asked of
the source at most once while its answers succeed, and later reads see the first answer. A query is known by its
canonical text. Artifacts that came with a query are also known by their ids. A failure is not remembered, and neither
is an id without an artifact.
-/

namespace InputResolution

structure Cache where
  queries : List (String × List Artifact)
  lineages : List (Anchor × List Execution)
  artifacts : List (Int × Artifact)
  contexts : List ((String × String) × Option RunContext)
  /-- How many requests went on to the source, failed ones included. -/
  storeCalls : Nat
deriving DecidableEq

namespace Cache

def empty : Cache := ⟨[], [], [], [], 0⟩

def rememberOne (known : List (Int × Artifact)) (a : Artifact) : List (Int × Artifact) :=
  match known.lookup a.id with
  | some _ => known
  | none => (a.id, a) :: known

def remember (known : List (Int × Artifact)) (found : List Artifact) : List (Int × Artifact) :=
  found.foldl rememberOne known

def missing (known : List (Int × Artifact)) (ids : List Int) : List Int :=
  distinctAscending (ids.filter fun id => (known.lookup id).isNone)

def byId (cache : Cache) (ids : List Int) : List Artifact :=
  ids.filterMap fun id => cache.artifacts.lookup id

def learnQuery (query : Query) (cache : Cache) (found : List Artifact) : Cache :=
  { cache with
    queries := (query.key, found) :: cache.queries
    artifacts := remember cache.artifacts found }

def learnLineage (anchor : Anchor) (cache : Cache) (found : List Execution) : Cache :=
  { cache with lineages := (anchor, found) :: cache.lineages }

def learnArtifacts (cache : Cache) (found : List Artifact) : Cache :=
  { cache with artifacts := remember cache.artifacts found }

def learnContext (typeName name : String) (cache : Cache) (found : Option RunContext) : Cache :=
  { cache with contexts := ((typeName, name), found) :: cache.contexts }

variable {σ : Type}

/-- Asks the source and learns from its answer, if it gives one. -/
def consult (source : Source σ) (request : Request) (learn : Cache → request.Answer → Cache) :
    Cache × σ → Except StoreError request.Answer × (Cache × σ)
  | (cache, state) =>
      let counted := { cache with storeCalls := cache.storeCalls + 1 }
      match source request state with
      | (.ok answer, after) => (.ok answer, (learn counted answer, after))
      | (.error failure, after) => (.error failure, (counted, after))

/-- The source that answers from the cache and asks another one for what is not there. -/
def through (source : Source σ) : Source (Cache × σ)
  | .artifacts query, (cache, state) =>
      match cache.queries.lookup query.key with
      | some found => (.ok found, (cache, state))
      | none => consult source (.artifacts query) (learnQuery query) (cache, state)
  | .lineage anchor, (cache, state) =>
      match cache.lineages.lookup anchor with
      | some found => (.ok found, (cache, state))
      | none => consult source (.lineage anchor) (learnLineage anchor) (cache, state)
  | .byId ids, (cache, state) =>
      let unknown := missing cache.artifacts ids
      if unknown.isEmpty then (.ok (cache.byId ids), (cache, state))
      else
        match consult source (.byId unknown) learnArtifacts (cache, state) with
        | (.ok _, after) => (.ok (after.1.byId ids), after)
        | (.error failure, after) => (.error failure, after)
  | .context typeName name, (cache, state) =>
      match cache.contexts.lookup (typeName, name) with
      | some found => (.ok found, (cache, state))
      | none => consult source (.context typeName name) (learnContext typeName name) (cache, state)

end Cache

end InputResolution
