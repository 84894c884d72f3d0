import InputResolution.Proofs.Cache
import InputResolution.Proofs.OrderedMap

/-!
How a cache grows. A request asks about subjects: a query, a lineage anchor, the name of a context, or the ids of
artifacts. It is answered from the cache, or the cache passes on a request about those subjects that it does not know
and learns from the answer. What a cache knows stays known and the same.
-/

namespace InputResolution

/-- What a request asks about. Queries are told apart by their text. -/
inductive Subject where
  | query (key : String)
  | lineage (anchor : Anchor)
  | context (typeName name : String)
  | artifact (id : Int)
deriving DecidableEq

namespace Request

def subjects : Request → List Subject
  | artifacts query => [.query query.key]
  | lineage anchor => [.lineage anchor]
  | byId ids => ids.map Subject.artifact
  | context typeName name => [.context typeName name]

/-- The subjects about which nothing remains to be asked after an answer. An id is settled by an artifact only. -/
def settled : (request : Request) → request.Answer → List Subject
  | artifacts query, found => .query query.key :: found.map fun a => .artifact a.id
  | lineage anchor, _ => [.lineage anchor]
  | byId _, found => found.map fun a => .artifact a.id
  | context typeName name, _ => [.context typeName name]

end Request

def Keeps {κ α : Type} [BEq κ] (known later : List (κ × α)) : Prop :=
  ∀ key value, known.lookup key = some value → later.lookup key = some value

section Entries

variable {κ α : Type} [BEq κ] {known : List (κ × α)} {key : κ}

theorem keeps_refl (known : List (κ × α)) : Keeps known known :=
  fun _ _ found => found

variable [LawfulBEq κ]

theorem keeps_cons (absent : known.lookup key = none) (value : α) : Keeps known ((key, value) :: known) := by
  intro other held found
  have apart : other ≠ key := by
    rintro rfl
    rw [absent] at found
    cases found
  rw [lookup_cons_ne apart, found]

theorem isSome_lookup_cons (key other : κ) (value : α) :
    (((key, value) :: known).lookup other).isSome ↔ (known.lookup other).isSome ∨ other = key := by
  by_cases same : other = key
  · subst same
    simp
  · rw [lookup_cons_ne same]
    simp [same]

end Entries

namespace Cache

/-! ## What a cache knows -/

def Knows (cache : Cache) : Subject → Prop
  | .query key => (cache.queries.lookup key).isSome
  | .lineage anchor => (cache.lineages.lookup anchor).isSome
  | .context typeName name => (cache.contexts.lookup (typeName, name)).isSome
  | .artifact id => (cache.artifacts.lookup id).isSome

def Holds (cache : Cache) : (request : Request) → request.Answer → Prop
  | .artifacts query, found => cache.queries.lookup query.key = some found
  | .lineage anchor, found => cache.lineages.lookup anchor = some found
  | .byId ids, found => cache.byId ids = found
  | .context typeName name, found => cache.contexts.lookup (typeName, name) = some found

structure Extends (cache later : Cache) : Prop where
  queries : Keeps cache.queries later.queries
  lineages : Keeps cache.lineages later.lineages
  artifacts : Keeps cache.artifacts later.artifacts
  contexts : Keeps cache.contexts later.contexts

theorem Extends.refl (cache : Cache) : Extends cache cache :=
  ⟨keeps_refl _, keeps_refl _, keeps_refl _, keeps_refl _⟩

theorem Extends.trans {first second third : Cache} (one : Extends first second) (two : Extends second third) :
    Extends first third where
  queries key value found := two.queries key value (one.queries key value found)
  lineages key value found := two.lineages key value (one.lineages key value found)
  artifacts key value found := two.artifacts key value (one.artifacts key value found)
  contexts key value found := two.contexts key value (one.contexts key value found)

def counted (cache : Cache) : Cache :=
  { cache with storeCalls := cache.storeCalls + 1 }

def learn : (request : Request) → Cache → request.Answer → Cache
  | .artifacts query, cache, found => learnQuery query cache.counted found
  | .lineage anchor, cache, found => learnLineage anchor cache.counted found
  | .byId _, cache, found => learnArtifacts cache.counted found
  | .context typeName name, cache, found => learnContext typeName name cache.counted found

theorem keeps_remember (known : List (Int × Artifact)) (found : List Artifact) :
    Keeps known (remember known found) := by
  intro id a before
  rw [lookup_remember, before, Option.some_or]

theorem isSome_lookup_remember (known : List (Int × Artifact)) (found : List Artifact) (id : Int) :
    ((remember known found).lookup id).isSome ↔ (known.lookup id).isSome ∨ ∃ a ∈ found, a.id = id := by
  rw [lookup_remember, Option.isSome_or, Bool.or_eq_true, List.find?_isSome]
  simp only [decide_eq_true_eq]

/-- An answer adds to what is known exactly what it settles. -/
theorem knows_learn (request : Request) (cache : Cache) (answer : request.Answer) (subject : Subject) :
    (learn request cache answer).Knows subject ↔ cache.Knows subject ∨ subject ∈ request.settled answer := by
  cases request with
  | artifacts query =>
      cases subject with
      | query key =>
          refine (isSome_lookup_cons query.key key answer).trans (or_congr Iff.rfl ?_)
          simp [Request.settled]
      | artifact id =>
          refine (isSome_lookup_remember cache.artifacts answer id).trans (or_congr Iff.rfl ?_)
          simp [Request.settled]
      | _ => simp [Request.settled, Knows, learn, learnQuery, counted]
  | lineage anchor =>
      cases subject with
      | lineage other =>
          refine (isSome_lookup_cons anchor other answer).trans (or_congr Iff.rfl ?_)
          simp [Request.settled]
      | _ => simp [Request.settled, Knows, learn, learnLineage, counted]
  | byId ids =>
      cases subject with
      | artifact id =>
          refine (isSome_lookup_remember cache.artifacts answer id).trans (or_congr Iff.rfl ?_)
          simp [Request.settled]
      | _ => simp [Request.settled, Knows, learn, learnArtifacts, counted]
  | context typeName name =>
      cases subject with
      | context otherType otherName =>
          refine (isSome_lookup_cons (typeName, name) (otherType, otherName) answer).trans (or_congr Iff.rfl ?_)
          simp [Request.settled]
      | _ => simp [Request.settled, Knows, learn, learnContext, counted]

/-- What is learned about unknown subjects changes nothing that was known. -/
theorem extends_learn {request : Request} {cache : Cache} (unknown : ∀ subject ∈ request.subjects, ¬cache.Knows subject)
    (answer : request.Answer) : Extends cache (learn request cache answer) := by
  have same := Extends.refl cache
  cases request with
  | artifacts query =>
      have absent : cache.queries.lookup query.key = none :=
        Option.not_isSome_iff_eq_none.mp (unknown (.query query.key) (List.mem_singleton_self _))
      exact ⟨keeps_cons absent answer, same.lineages, keeps_remember _ _, same.contexts⟩
  | lineage anchor =>
      have absent : cache.lineages.lookup anchor = none :=
        Option.not_isSome_iff_eq_none.mp (unknown (.lineage anchor) (List.mem_singleton_self _))
      exact ⟨same.queries, keeps_cons absent answer, same.artifacts, same.contexts⟩
  | byId ids => exact ⟨same.queries, same.lineages, keeps_remember _ _, same.contexts⟩
  | context typeName name =>
      have absent : cache.contexts.lookup (typeName, name) = none :=
        Option.not_isSome_iff_eq_none.mp (unknown (.context typeName name) (List.mem_singleton_self _))
      exact ⟨same.queries, same.lineages, same.artifacts, keeps_cons absent answer⟩

/-! ## One request -/

/-- A request to the source that is made for another one: it asks about unknown subjects of that one only, and about
each of them once. -/
structure Opens (cache : Cache) (request asked : Request) : Prop where
  part : ∀ subject ∈ asked.subjects, subject ∈ request.subjects
  nodup : asked.subjects.Nodup
  unknown : ∀ subject ∈ asked.subjects, ¬cache.Knows subject

variable {σ : Type}

inductive Serves (source : Source σ) (cache : Cache) (state : σ) (request : Request) :
    Except StoreError request.Answer × (Cache × σ) → Prop where
  | known {answer : request.Answer} (held : cache.Holds request answer) :
      Serves source cache state request (.ok answer, (cache, state))
  | learned {asked : Request} {found : asked.Answer} {after : σ} {answer : request.Answer}
      (opens : cache.Opens request asked) (given : source asked state = (.ok found, after))
      (held : (learn asked cache found).Holds request answer) :
      Serves source cache state request (.ok answer, (learn asked cache found, after))
  | failed {asked : Request} {failure : StoreError} {after : σ} (opens : cache.Opens request asked)
      (given : source asked state = (.error failure, after)) :
      Serves source cache state request (.error failure, (cache.counted, after))

theorem serves_consult {source : Source σ} {cache : Cache} {request : Request} (opens : cache.Opens request request)
    {add : Cache → request.Answer → Cache} (adds : add cache.counted = learn request cache)
    (held : ∀ found, (learn request cache found).Holds request found) (state : σ) :
    Serves source cache state request (consult source request add (cache, state)) := by
  change add { cache with storeCalls := cache.storeCalls + 1 } = learn request cache at adds
  rcases given : source request state with ⟨failure | found, after⟩
  · simp only [consult, given]
    exact .failed opens given
  · simp only [consult, given, adds]
    exact .learned opens given (held found)

theorem opens_self {cache : Cache} {request : Request} {subject : Subject} (single : request.subjects = [subject])
    (unknown : ¬cache.Knows subject) : cache.Opens request request where
  part _ member := member
  nodup := by
    rw [single]
    exact List.nodup_singleton subject
  unknown other member := by
    rw [single, List.mem_singleton] at member
    rwa [member]

theorem opens_missing (cache : Cache) (ids : List Int) :
    cache.Opens (.byId ids) (.byId (missing cache.artifacts ids)) where
  part subject member := by
    obtain ⟨id, asked, rfl⟩ := List.mem_map.mp member
    exact List.mem_map_of_mem (mem_missing.mp asked).1
  nodup := (nodup_distinctAscending _).map fun _ _ same => Subject.artifact.inj same
  unknown subject member := by
    obtain ⟨id, asked, rfl⟩ := List.mem_map.mp member
    simp [Knows, (mem_missing.mp asked).2]

theorem serves_through (source : Source σ) (cache : Cache) (state : σ) (request : Request) :
    Serves source cache state request (through source request (cache, state)) := by
  cases request with
  | artifacts query =>
      cases known : cache.queries.lookup query.key with
      | some found =>
          simp only [through, known]
          exact .known known
      | none =>
          simp only [through, known]
          refine serves_consult (opens_self rfl ?_) rfl (fun found => ?_) state
          · simp [Knows, known]
          · exact List.lookup_cons_self
  | lineage anchor =>
      cases known : cache.lineages.lookup anchor with
      | some found =>
          simp only [through, known]
          exact .known known
      | none =>
          simp only [through, known]
          refine serves_consult (opens_self rfl ?_) rfl (fun found => ?_) state
          · simp [Knows, known]
          · exact List.lookup_cons_self
  | byId ids =>
      by_cases complete : (missing cache.artifacts ids).isEmpty
      · simp only [through, complete, if_true]
        exact .known rfl
      · simp only [through, complete, Bool.false_eq_true, if_false, consult]
        rcases given : source (.byId (missing cache.artifacts ids)) state with ⟨failure | found, after⟩
        · exact .failed (opens_missing cache ids) given
        · exact .learned (opens_missing cache ids) given rfl
  | context typeName name =>
      cases known : cache.contexts.lookup (typeName, name) with
      | some found =>
          simp only [through, known]
          exact .known known
      | none =>
          simp only [through, known]
          refine serves_consult (opens_self rfl ?_) rfl (fun found => ?_) state
          · simp [Knows, known]
          · exact List.lookup_cons_self

def Keyed (cache : Cache) : Prop :=
  ∀ id a, cache.artifacts.lookup id = some a → a.id = id

theorem keyed_empty : Keyed empty :=
  fun _ _ found => nomatch found

theorem keyed_remember {cache : Cache} (keyed : cache.Keyed) (found : List Artifact) {id : Int} {a : Artifact}
    (held : (remember cache.artifacts found).lookup id = some a) : a.id = id := by
  rw [lookup_remember, Option.or_eq_some_iff] at held
  rcases held with before | ⟨_, new⟩
  · exact keyed id a before
  · simpa using List.find?_some new

theorem keyed_learn {cache : Cache} (keyed : cache.Keyed) (request : Request) (answer : request.Answer) :
    (learn request cache answer).Keyed := by
  cases request with
  | artifacts query => exact fun _ _ => keyed_remember keyed answer
  | lineage anchor => exact keyed
  | byId ids => exact fun _ _ => keyed_remember keyed answer
  | context typeName name => exact keyed

theorem Serves.keyed {source : Source σ} {cache after : Cache} {state last : σ} {request : Request}
    {reply : Except StoreError request.Answer} (serves : Serves source cache state request (reply, (after, last)))
    (keyed : cache.Keyed) : after.Keyed := by
  cases serves with
  | known held => exact keyed
  | learned opens given held => exact keyed_learn keyed _ _
  | failed opens given => exact keyed

theorem Serves.extends {source : Source σ} {cache after : Cache} {state last : σ} {request : Request}
    {reply : Except StoreError request.Answer} (serves : Serves source cache state request (reply, (after, last))) :
    Extends cache after := by
  cases serves with
  | known held => exact Extends.refl cache
  | learned opens given held => exact extends_learn opens.unknown _
  | failed opens given => exact ⟨keeps_refl _, keeps_refl _, keeps_refl _, keeps_refl _⟩

theorem Serves.holds {source : Source σ} {cache after : Cache} {state last : σ} {request : Request}
    {answer : request.Answer} (serves : Serves source cache state request (.ok answer, (after, last))) :
    after.Holds request answer := by
  cases serves with
  | known held => exact held
  | learned opens given held => exact held

end Cache

end InputResolution
