import InputResolution.Proofs.Cache
import InputResolution.Proofs.Window.Versions

/-!
Sources that answer in any order. Such a source holds the records of a snapshot, but may list them differently at each
request. A cache in front of it remembers the artifacts of the snapshot by their ids, so what is read through the cache
can only differ from the answers of the snapshot in the order of queries and of lineage.
-/

namespace InputResolution

variable {σ α : Type} {s t : Snapshot}

def Request.SameUpToOrder : (request : Request) → request.Answer → request.Answer → Prop
  | .artifacts _, found, expected => found.Perm expected
  | .lineage _, found, expected => found.Perm expected
  | .byId _, found, expected => found.Perm expected
  | .context _ _, found, expected => found = expected

namespace Snapshot

/-- The source holds the records of the snapshot and answers every request, in an order that may change each time. -/
def ShownBy (s : Snapshot) (source : Source σ) : Prop :=
  ∀ request state, ∃ answer after, source request state = (.ok answer, after) ∧
    request.SameUpToOrder answer (s.answer request)

/-- What a cache in front of such a source may answer: artifacts by their ids come in the order of the ids. -/
def Admits (s : Snapshot) : (request : Request) → request.Answer → Prop
  | .artifacts query, found => found.Perm (s.answer (.artifacts query))
  | .lineage anchor, found => found.Perm (s.answer (.lineage anchor))
  | .byId ids, found => found = s.answer (.byId ids)
  | .context typeName name, found => found = s.answer (.context typeName name)

theorem admits_answer (s : Snapshot) (request : Request) : s.Admits request (s.answer request) := by
  cases request with
  | artifacts query => exact List.Perm.refl _
  | lineage anchor => exact List.Perm.refl _
  | byId ids => rfl
  | context typeName name => rfl

/-- The source holds the records of the snapshot and answers every request; artifacts by their ids come in the order of
the ids, and only queries and lineage in an order that may change each time. -/
def AnsweredBy (s : Snapshot) (source : Source σ) : Prop :=
  ∀ request state, ∃ answer after, source request state = (.ok answer, after) ∧ s.Admits request answer

/-! ## Snapshots in another order -/

theorem DistinctArtifacts.artifact?_eq_of_perm (distinct : s.DistinctArtifacts)
    (artifacts : t.artifacts.Perm s.artifacts) (id : Int) : t.artifact? id = s.artifact? id := by
  cases found : t.artifact? id with
  | none =>
      symm
      rw [artifact?, List.find?_eq_none] at found ⊢
      exact fun a member => found a (artifacts.mem_iff.mpr member)
  | some a =>
      obtain ⟨member, rfl⟩ := mem_of_artifact? found
      exact (distinct.artifact?_eq (artifacts.mem_iff.mp member)).symm

/-- A snapshot is shown by every other one with the same records and the same context under each name. -/
theorem shownBy_of_perm (distinct : s.DistinctArtifacts) (artifacts : t.artifacts.Perm s.artifacts)
    (executions : t.executions.Perm s.executions) (contexts : t.context? = s.context?) :
    s.ShownBy (t.source : Source σ) := by
  intro request state
  refine ⟨_, _, rfl, ?_⟩
  cases request with
  | artifacts query => exact artifacts.filter _
  | lineage anchor => exact (sortBy_perm _ _).trans ((executions.filter _).trans (sortBy_perm _ _).symm)
  | byId ids =>
      apply List.Perm.of_eq
      exact List.filterMap_congr fun id _ => distinct.artifact?_eq_of_perm artifacts id
  | context typeName name => exact congrFun (congrFun contexts typeName) name

end Snapshot

namespace Cache

/-! ## What a cache remembers -/

/-- Everything in the cache is held by the snapshot; queries and lineage were answered in some order. -/
structure Reflects (s : Snapshot) (cache : Cache) : Prop where
  queries : ∀ query found, cache.queries.lookup query.key = some found → s.Admits (.artifacts query) found
  lineages : ∀ anchor found, cache.lineages.lookup anchor = some found → s.Admits (.lineage anchor) found
  artifacts : ∀ id a, cache.artifacts.lookup id = some a → s.artifact? id = some a
  contexts : ∀ typeName name found,
    cache.contexts.lookup (typeName, name) = some found → s.Admits (.context typeName name) found

variable {cache : Cache}

theorem reflects_empty (s : Snapshot) : Reflects s empty where
  queries _ _ known := nomatch known
  lineages _ _ known := nomatch known
  artifacts _ _ known := nomatch known
  contexts _ _ _ known := nomatch known

theorem Reflects.counted (reflects : Reflects s cache) (count : Nat) :
    Reflects s { cache with storeCalls := count } :=
  ⟨reflects.queries, reflects.lineages, reflects.artifacts, reflects.contexts⟩

theorem Reflects.learnQuery (reflects : Reflects s cache) (distinct : s.DistinctArtifacts) {query : Query}
    {found : List Artifact} (admitted : s.Admits (.artifacts query) found) :
    Reflects s (learnQuery query cache found) where
  queries other held known := by
    rcases lookup_cons_cases known with ⟨same, rfl⟩ | before
    · rw [Query.key_injective same]
      exact admitted
    · exact reflects.queries other held before
  lineages := reflects.lineages
  artifacts := artifacts_remember distinct reflects.artifacts fun _ member =>
    (List.mem_filter.mp ((List.Perm.mem_iff admitted).mp member)).1
  contexts := reflects.contexts

theorem Reflects.learnLineage (reflects : Reflects s cache) {anchor : Anchor} {found : List Execution}
    (admitted : s.Admits (.lineage anchor) found) : Reflects s (learnLineage anchor cache found) where
  queries := reflects.queries
  lineages other held known := by
    rcases lookup_cons_cases known with ⟨rfl, rfl⟩ | before
    · exact admitted
    · exact reflects.lineages other held before
  artifacts := reflects.artifacts
  contexts := reflects.contexts

theorem Reflects.learnArtifacts (reflects : Reflects s cache) (distinct : s.DistinctArtifacts)
    {found : List Artifact} (held : ∀ a ∈ found, a ∈ s.artifacts) : Reflects s (learnArtifacts cache found) where
  queries := reflects.queries
  lineages := reflects.lineages
  artifacts := artifacts_remember distinct reflects.artifacts held
  contexts := reflects.contexts

theorem Reflects.learnContext (reflects : Reflects s cache) {typeName name : String} {found : Option RunContext}
    (admitted : s.Admits (.context typeName name) found) : Reflects s (learnContext typeName name cache found) where
  queries := reflects.queries
  lineages := reflects.lineages
  artifacts := reflects.artifacts
  contexts otherType otherName held known := by
    rcases lookup_cons_cases known with ⟨same, rfl⟩ | before
    · obtain ⟨rfl, rfl⟩ := Prod.mk.inj same
      exact admitted
    · exact reflects.contexts otherType otherName held before

/-! ## Answers through a cache -/

/-- One request through a cache: the answer is admitted, and the cache still reflects the snapshot. -/
theorem Reflects.through (reflects : Reflects s cache) (distinct : s.DistinctArtifacts) {source : Source σ}
    (shown : s.ShownBy source) (request : Request) (state : σ) :
    ∃ answer after later, through source request (cache, state) = (.ok answer, (after, later)) ∧
      s.Admits request answer ∧ Reflects s after := by
  have counted := reflects.counted (cache.storeCalls + 1)
  cases request with
  | artifacts query =>
      cases known : cache.queries.lookup query.key with
      | some found =>
          refine ⟨found, cache, state, ?_, reflects.queries query found known, reflects⟩
          simp only [Cache.through, known]
      | none =>
          obtain ⟨found, later, answered, same⟩ := shown (.artifacts query) state
          refine ⟨found, _, later, ?_, same, counted.learnQuery distinct same⟩
          simp only [Cache.through, known, consult, answered]
  | lineage anchor =>
      cases known : cache.lineages.lookup anchor with
      | some found =>
          refine ⟨found, cache, state, ?_, reflects.lineages anchor found known, reflects⟩
          simp only [Cache.through, known]
      | none =>
          obtain ⟨found, later, answered, same⟩ := shown (.lineage anchor) state
          refine ⟨found, _, later, ?_, same, counted.learnLineage same⟩
          simp only [Cache.through, known, consult, answered]
  | byId ids =>
      by_cases complete : (missing cache.artifacts ids).isEmpty
      · refine ⟨cache.byId ids, cache, state, ?_, ?_, reflects⟩
        · simp only [Cache.through, complete, if_true]
        · apply byId_eq reflects.artifacts
          intro id member unknown
          have absent := mem_missing.mpr ⟨member, unknown⟩
          rw [List.isEmpty_iff.mp complete] at absent
          cases absent
      · obtain ⟨found, later, answered, same⟩ := shown (.byId (missing cache.artifacts ids)) state
        have held : ∀ a ∈ found, a ∈ s.artifacts := by
          intro a member
          obtain ⟨id, _, known⟩ := List.mem_filterMap.mp ((List.Perm.mem_iff same).mp member)
          exact (Snapshot.mem_of_artifact? known).1
        have learned := counted.learnArtifacts distinct held
        -- The answer may come in any order: the cache reads it by ids, and these come in the order asked for.
        have asked := asked_learnArtifacts cache ids fun a member => (List.Perm.mem_iff same).mpr member
        refine ⟨Cache.byId _ ids, _, later, ?_, byId_eq learned.artifacts ids asked, learned⟩
        simp only [Cache.through, complete, Bool.false_eq_true, if_false, consult, answered]
  | context typeName name =>
      cases known : cache.contexts.lookup (typeName, name) with
      | some found =>
          refine ⟨found, cache, state, ?_, reflects.contexts typeName name found known, reflects⟩
          simp only [Cache.through, known]
      | none =>
          obtain ⟨found, later, answered, same⟩ := shown (.context typeName name) state
          refine ⟨found, _, later, ?_, same, counted.learnContext same⟩
          simp only [Cache.through, known, consult, answered]

theorem Reflects.run (reflects : Reflects s cache) (distinct : s.DistinctArtifacts) {source : Source σ}
    (shown : s.ShownBy source) {property : α → Prop} {reading : Reading α}
    (ensured : reading.EnsuresUnder s.Admits property) (state : σ) :
    ∃ a after later, reading.run (Cache.through source) (cache, state) = (.ok a, (after, later)) ∧ property a := by
  induction reading generalizing cache state with
  | done a => exact ⟨a, cache, state, rfl, ensured⟩
  | ask request next ih =>
      obtain ⟨answer, after, later, answered, admitted, kept⟩ := reflects.through distinct shown request state
      simp only [Reading.run, answered]
      exact ih answer kept (ensured answer admitted) later

theorem Reflects.session (reflects : Reflects s cache) (distinct : s.DistinctArtifacts) {source : Source σ}
    (shown : s.ShownBy source) (requests : List Request) (state : σ) :
    Reflects s ((Cache.through source).session requests (cache, state)).2.1 := by
  induction requests generalizing cache state with
  | nil => exact reflects
  | cons request rest ih =>
      obtain ⟨_, after, later, answered, _, kept⟩ := reflects.through distinct shown request state
      rw [Source.session_cons answered]
      exact ih kept later

end Cache

end InputResolution
