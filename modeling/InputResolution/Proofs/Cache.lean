import InputResolution.Cache
import InputResolution.Proofs.OrderedMap
import InputResolution.Proofs.Reading
import InputResolution.Proofs.Record.Faithful
import InputResolution.Proofs.Sorting
import InputResolution.Snapshot

/-!
A cache in front of a snapshot. What it remembers agrees with what the snapshot answers, each request through it is
answered as the snapshot answers it, and so every plan of reads gives the same value with the cache and without it.

A session makes requests one after the other and keeps what came back for each; a failure does not end it. Through one
cache in front of a snapshot, a session brings back what the snapshot answers, request by request, however the requests
repeat and overlap.
-/

namespace InputResolution

namespace Snapshot

def DistinctArtifacts (s : Snapshot) : Prop :=
  (s.artifacts.map Artifact.id).Nodup

instance (s : Snapshot) : Decidable s.DistinctArtifacts :=
  inferInstanceAs (Decidable (s.artifacts.map Artifact.id).Nodup)

theorem mem_of_artifact? {s : Snapshot} {id : Int} {a : Artifact} (found : s.artifact? id = some a) :
    a ∈ s.artifacts ∧ a.id = id := by
  refine ⟨List.mem_of_find?_eq_some found, ?_⟩
  simpa using List.find?_some found

theorem DistinctArtifacts.artifact?_eq {s : Snapshot} (distinct : s.DistinctArtifacts) {a : Artifact}
    (member : a ∈ s.artifacts) : s.artifact? a.id = some a := by
  have known : (s.artifact? a.id).isSome := by
    rw [artifact?, List.find?_isSome]
    exact ⟨a, member, by simp⟩
  obtain ⟨b, found⟩ := Option.isSome_iff_exists.mp known
  obtain ⟨other, same⟩ := mem_of_artifact? found
  rw [found, List.inj_on_of_nodup_map distinct other member same]

end Snapshot

namespace Cache

variable {σ α : Type} {s : Snapshot}

/-! ## Artifacts by id -/

theorem lookup_rememberOne (known : List (Int × Artifact)) (a : Artifact) (id : Int) :
    (rememberOne known a).lookup id =
      (known.lookup id).or (if id = a.id then some a else none) := by
  unfold rememberOne
  by_cases same : id = a.id
  · subst same
    cases found : known.lookup a.id with
    | none => simp
    | some b => simp [found]
  · have apart : (id == a.id) = false := by simpa using same
    cases known.lookup a.id with
    | none => simp [List.lookup_cons, apart, same]
    | some b => simp [same]

theorem lookup_remember (known : List (Int × Artifact)) (found : List Artifact) (id : Int) :
    (remember known found).lookup id = (known.lookup id).or (found.find? fun a => a.id = id) := by
  induction found generalizing known with
  | nil => simp [remember]
  | cons a rest ih =>
      have step := ih (rememberOne known a)
      rw [lookup_rememberOne] at step
      rw [remember, List.foldl_cons]
      refine Eq.trans step ?_
      by_cases same : id = a.id
      · simp [same]
      · have other : ¬a.id = id := fun h => same h.symm
        simp [same, other]

/-! ## What a cache remembers -/

/-- Everything in the cache is what the snapshot answers. -/
structure Coherent (s : Snapshot) (cache : Cache) : Prop where
  queries : ∀ query found, cache.queries.lookup query.key = some found → found = s.answer (.artifacts query)
  lineages : ∀ anchor found, cache.lineages.lookup anchor = some found → found = s.answer (.lineage anchor)
  artifacts : ∀ id a, cache.artifacts.lookup id = some a → s.artifact? id = some a
  contexts : ∀ typeName name found,
    cache.contexts.lookup (typeName, name) = some found → found = s.answer (.context typeName name)

theorem coherent_empty (s : Snapshot) : Coherent s empty where
  queries _ _ known := nomatch known
  lineages _ _ known := nomatch known
  artifacts _ _ known := nomatch known
  contexts _ _ _ known := nomatch known

theorem coherent_counted {cache : Cache} (coherent : Coherent s cache) (count : Nat) :
    Coherent s { cache with storeCalls := count } :=
  ⟨coherent.queries, coherent.lineages, coherent.artifacts, coherent.contexts⟩

theorem artifacts_remember {known : List (Int × Artifact)} {found : List Artifact} (distinct : s.DistinctArtifacts)
    (right : ∀ id a, known.lookup id = some a → s.artifact? id = some a) (held : ∀ a ∈ found, a ∈ s.artifacts) :
    ∀ id a, (remember known found).lookup id = some a → s.artifact? id = some a := by
  intro id a remembered
  rw [lookup_remember, Option.or_eq_some_iff] at remembered
  rcases remembered with before | ⟨_, new⟩
  · exact right id a before
  · have same : a.id = id := by simpa using List.find?_some new
    rw [← same]
    exact distinct.artifact?_eq (held a (List.mem_of_find?_eq_some new))

theorem coherent_learnQuery (distinct : s.DistinctArtifacts) {cache : Cache} (coherent : Coherent s cache)
    (query : Query) : Coherent s (learnQuery query cache (s.answer (.artifacts query))) where
  queries other found known := by
    rcases lookup_cons_cases known with ⟨same, rfl⟩ | before
    · rw [Query.key_injective same]
    · exact coherent.queries other found before
  lineages := coherent.lineages
  artifacts := artifacts_remember distinct coherent.artifacts fun _ member => (List.mem_filter.mp member).1
  contexts := coherent.contexts

theorem coherent_learnLineage {cache : Cache} (coherent : Coherent s cache) (anchor : Anchor) :
    Coherent s (learnLineage anchor cache (s.answer (.lineage anchor))) where
  queries := coherent.queries
  lineages other found known := by
    rcases lookup_cons_cases known with ⟨rfl, rfl⟩ | before
    · rfl
    · exact coherent.lineages other found before
  artifacts := coherent.artifacts
  contexts := coherent.contexts

theorem coherent_learnContext {cache : Cache} (coherent : Coherent s cache) (typeName name : String) :
    Coherent s (learnContext typeName name cache (s.answer (.context typeName name))) where
  queries := coherent.queries
  lineages := coherent.lineages
  artifacts := coherent.artifacts
  contexts otherType otherName found known := by
    rcases lookup_cons_cases known with ⟨same, rfl⟩ | before
    · obtain ⟨rfl, rfl⟩ := Prod.mk.inj same
      rfl
    · exact coherent.contexts otherType otherName found before

theorem coherent_learnArtifacts (distinct : s.DistinctArtifacts) {cache : Cache} (coherent : Coherent s cache)
    (ids : List Int) : Coherent s (learnArtifacts cache (s.answer (.byId ids))) where
  queries := coherent.queries
  lineages := coherent.lineages
  artifacts := by
    apply artifacts_remember distinct coherent.artifacts
    intro a member
    obtain ⟨id, _, found⟩ := List.mem_filterMap.mp member
    exact (Snapshot.mem_of_artifact? found).1
  contexts := coherent.contexts

/-! ## Answers through a cache -/

theorem mem_missing {known : List (Int × Artifact)} {ids : List Int} {id : Int} :
    id ∈ missing known ids ↔ id ∈ ids ∧ known.lookup id = none := by
  simp [missing]

/-- Ids are answered as by the snapshot once those it knows are in the cache. -/
theorem byId_eq {cache : Cache} (right : ∀ id a, cache.artifacts.lookup id = some a → s.artifact? id = some a)
    (ids : List Int) (asked : ∀ id ∈ ids, cache.artifacts.lookup id = none → s.artifact? id = none) :
    cache.byId ids = s.answer (.byId ids) := by
  apply List.filterMap_congr
  intro id member
  cases found : cache.artifacts.lookup id with
  | none => exact (asked id member found).symm
  | some a => exact (right id a found).symm

/-- Ids that stay unknown after an answer with all that the snapshot knows are not known to the snapshot either. -/
theorem asked_learnArtifacts (cache : Cache) (ids : List Int) {found : List Artifact}
    (complete : ∀ a ∈ s.answer (.byId (missing cache.artifacts ids)), a ∈ found) :
    ∀ id ∈ ids, (learnArtifacts cache found).artifacts.lookup id = none → s.artifact? id = none := by
  intro id member unknown
  rw [learnArtifacts, lookup_remember, Option.or_eq_none_iff] at unknown
  obtain ⟨before, new⟩ := unknown
  by_contra held
  obtain ⟨a, known⟩ := Option.ne_none_iff_exists'.mp held
  have answered : a ∈ s.answer (.byId (missing cache.artifacts ids)) :=
    List.mem_filterMap.mpr ⟨id, mem_missing.mpr ⟨member, before⟩, known⟩
  have absent := List.find?_eq_none.mp new a (complete a answered)
  exact absent (by simpa using (Snapshot.mem_of_artifact? known).2)

/-- One request through a cache: the answer is that of the snapshot, and the cache stays coherent. -/
theorem through_source (distinct : s.DistinctArtifacts) {cache : Cache} (coherent : Coherent s cache)
    (request : Request) (state : σ) :
    ∃ after, Coherent s after ∧
      through s.source request (cache, state) = (.ok (s.answer request), (after, state)) := by
  have counted := coherent_counted coherent (cache.storeCalls + 1)
  cases request with
  | artifacts query =>
      cases known : cache.queries.lookup query.key with
      | some found =>
          refine ⟨cache, coherent, ?_⟩
          simp only [through, known, coherent.queries query found known]
      | none =>
          refine ⟨_, coherent_learnQuery distinct counted query, ?_⟩
          simp only [through, known]
          rfl
  | lineage anchor =>
      cases known : cache.lineages.lookup anchor with
      | some found =>
          refine ⟨cache, coherent, ?_⟩
          simp only [through, known, coherent.lineages anchor found known]
      | none =>
          refine ⟨_, coherent_learnLineage counted anchor, ?_⟩
          simp only [through, known]
          rfl
  | byId ids =>
      by_cases complete : (missing cache.artifacts ids).isEmpty
      · refine ⟨cache, coherent, ?_⟩
        have all := byId_eq coherent.artifacts ids fun id member unknown => by
          have absent := mem_missing.mpr ⟨member, unknown⟩
          rw [List.isEmpty_iff.mp complete] at absent
          cases absent
        simp only [through, complete, if_true, all]
      · have learned := coherent_learnArtifacts distinct counted (missing cache.artifacts ids)
        refine ⟨_, learned, ?_⟩
        simp only [through, complete, Bool.false_eq_true, if_false]
        have all := byId_eq learned.artifacts ids (asked_learnArtifacts _ ids fun _ member => member)
        simp only [consult, Snapshot.source]
        rw [← all]
  | context typeName name =>
      cases known : cache.contexts.lookup (typeName, name) with
      | some found =>
          refine ⟨cache, coherent, ?_⟩
          simp only [through, known, coherent.contexts typeName name found known]
      | none =>
          refine ⟨_, coherent_learnContext counted typeName name, ?_⟩
          simp only [through, known]
          rfl

theorem run_through (distinct : s.DistinctArtifacts) {cache : Cache} (coherent : Coherent s cache)
    (reading : Reading α) (state : σ) :
    ∃ after, Coherent s after ∧
      reading.run (through s.source) (cache, state) = (.ok (reading.value s.answer), (after, state)) := by
  induction reading generalizing cache with
  | done a => exact ⟨cache, coherent, rfl⟩
  | ask request next ih =>
      obtain ⟨after, kept, answered⟩ := through_source distinct coherent request state
      simp only [Reading.run, answered, Reading.value]
      exact ih (s.answer request) kept

/-- A cache in front of a source that never fails never fails either. -/
theorem answers_through {source : Source σ} (answers : Reading.Answers source) :
    Reading.Answers (through source) := by
  intro request state
  obtain ⟨cache, inner⟩ := state
  cases request with
  | artifacts query =>
      obtain ⟨answer, after, answered⟩ := answers (.artifacts query) inner
      cases known : cache.queries.lookup query.key <;> simp [through, consult, known, answered]
  | lineage anchor =>
      obtain ⟨answer, after, answered⟩ := answers (.lineage anchor) inner
      cases known : cache.lineages.lookup anchor <;> simp [through, consult, known, answered]
  | byId ids =>
      obtain ⟨answer, after, answered⟩ := answers (.byId (missing cache.artifacts ids)) inner
      by_cases complete : (missing cache.artifacts ids).isEmpty
      · simp [through, complete]
      · simp [through, consult, complete, answered]
  | context typeName name =>
      obtain ⟨answer, after, answered⟩ := answers (.context typeName name) inner
      cases known : cache.contexts.lookup (typeName, name) <;> simp [through, consult, known, answered]

end Cache

/-! ## Sessions -/

structure Exchange where
  request : Request
  reply : Except StoreError request.Answer

namespace Source

variable {σ : Type}

def session (source : Source σ) : List Request → σ → List Exchange × σ
  | [], state => ([], state)
  | request :: rest, state =>
      let here := source request state
      let others := session source rest here.2
      (⟨request, here.1⟩ :: others.1, others.2)

theorem session_cons {source : Source σ} {request : Request} {state next : σ} {reply : Except StoreError request.Answer}
    (answered : source request state = (reply, next)) (rest : List Request) :
    source.session (request :: rest) state =
      (⟨request, reply⟩ :: (source.session rest next).1, (source.session rest next).2) := by
  rw [session, answered]

end Source

namespace Cache

variable {σ : Type} {s : Snapshot}

theorem session_coherent (distinct : s.DistinctArtifacts) {cache : Cache} (coherent : Coherent s cache)
    (requests : List Request) (state : σ) :
    ((through s.source).session requests (cache, state)).1 =
      requests.map fun request => ⟨request, .ok (s.answer request)⟩ := by
  induction requests generalizing cache with
  | nil => rfl
  | cons request rest ih =>
      obtain ⟨after, kept, answered⟩ := through_source distinct coherent request state
      rw [Source.session_cons answered, List.map_cons, ih kept]

/-- A fresh cache in front of a snapshot cannot be told from the snapshot: each request of a session is answered as the
snapshot answers it, with the same records in the same order. -/
theorem session_transparent (distinct : s.DistinctArtifacts) (requests : List Request) (state : σ) :
    ((through s.source).session requests (empty, state)).1 =
      requests.map fun request => ⟨request, .ok (s.answer request)⟩ :=
  session_coherent distinct (coherent_empty s) requests state

def neighbourSpans : Snapshot :=
  ((Snapshot.empty.putSpanned "Examples" 1 0).2.putSpanned "Examples" 2 0).2

theorem session_transparent_neighbourSpans :
    neighbourSpans.DistinctArtifacts ∧
      ((through neighbourSpans.source).session
          [.byId [2, 9, 2], .artifacts (Query.ofType "Examples"), .byId [9, 1], .byId [2, 9, 2]] (empty, 0)).1 =
        [.byId [2, 9, 2], .artifacts (Query.ofType "Examples"), .byId [9, 1], .byId [2, 9, 2]].map fun request =>
          ⟨request, .ok (neighbourSpans.answer request)⟩ :=
  have distinct : neighbourSpans.DistinctArtifacts := by decide
  ⟨distinct, session_transparent distinct _ 0⟩

end Cache

end InputResolution
