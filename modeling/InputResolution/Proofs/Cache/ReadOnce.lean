import InputResolution.Proofs.Cache.Growth
import InputResolution.Proofs.Cache

/-!
How often a source is asked. The source may be any at all, also one that answers a request differently each time. What
an answer settled is not requested again: a query, a lineage anchor, a context, and every artifact that the answer
held. So identical reads agree. Only an id that was left without an artifact is requested again, and the answer to the
same read may then have grown.
-/

namespace InputResolution

namespace Exchange

def subjects (exchange : Exchange) : List Subject :=
  exchange.request.subjects

/-- What the exchange settles; a failure settles nothing. -/
def settled (exchange : Exchange) : List Subject :=
  match exchange.reply with
  | .ok answer => exchange.request.settled answer
  | .error _ => []

def artifacts : Exchange → List Artifact
  | ⟨.artifacts _, .ok found⟩ => found
  | ⟨.byId _, .ok found⟩ => found
  | _ => []

def Succeeds (exchange : Exchange) : Prop :=
  ∃ answer, exchange.reply = .ok answer

theorem succeeds_iff {request : Request} {reply : Except StoreError request.Answer} :
    Succeeds ⟨request, reply⟩ ↔ ∃ answer, reply = .ok answer :=
  Iff.rfl

def Settles (exchange : Exchange) (subject : Subject) : Prop :=
  subject ∈ exchange.subjects → subject ∈ exchange.settled

/-- An answer can leave out artifacts, nothing else. -/
theorem Succeeds.settles {exchange : Exchange} (succeeds : exchange.Succeeds) {subject : Subject}
    (remembered : ∀ id, subject ≠ .artifact id) : exchange.Settles subject := by
  obtain ⟨request, reply⟩ := exchange
  obtain ⟨answer, rfl⟩ := succeeds_iff.mp succeeds
  intro asked
  cases request with
  | artifacts query =>
      cases List.mem_singleton.mp asked
      exact List.mem_cons_self
  | lineage anchor => exact asked
  | byId ids =>
      obtain ⟨id, _, rfl⟩ := List.mem_map.mp asked
      exact absurd rfl (remembered id)
  | context typeName name => exact asked

/-- A later exchange on the same request is the same. Only where the earlier one left out an artifact, the later one may
give more artifacts around those. -/
def Agrees (earlier later : Exchange) : Prop :=
  earlier.request = later.request →
    later = earlier ∨
      (∃ id, ¬earlier.Settles (.artifact id)) ∧ earlier.artifacts.Sublist later.artifacts

end Exchange

/-- The source under observation: beside the state stand the exchanges with it so far. -/
def Source.noted {σ : Type} (source : Source σ) : Source (List Exchange × σ) := fun request observed =>
  let reply := source request observed.2
  (reply.1, (observed.1 ++ [⟨request, reply.1⟩], reply.2))

def requested (log : List Exchange) (subject : Subject) : Nat :=
  (log.flatMap Exchange.subjects).count subject

/-- No exchange asks twice about one subject, or about a subject that an earlier one settled. -/
structure SettledOnce (log : List Exchange) : Prop where
  nodup : ∀ exchange ∈ log, exchange.subjects.Nodup
  settled : log.Pairwise fun earlier later => ∀ subject ∈ earlier.settled, subject ∉ later.subjects

/-- A subject that every exchange about it settles was asked about at most once. -/
theorem SettledOnce.requested_le_one {log : List Exchange} (once : SettledOnce log) {subject : Subject}
    (settles : ∀ exchange ∈ log, exchange.Settles subject) : requested log subject ≤ 1 := by
  induction log with
  | nil => exact Nat.zero_le 1
  | cons first rest ih =>
      obtain ⟨apart, others⟩ := List.pairwise_cons.mp once.settled
      have split : requested (first :: rest) subject = first.subjects.count subject + requested rest subject := by
        simp [requested]
      rw [split]
      by_cases asked : subject ∈ first.subjects
      · have here := List.nodup_iff_count_le_one.mp (once.nodup first List.mem_cons_self) subject
        have nowhere : requested rest subject = 0 := by
          rw [requested, List.count_eq_zero, List.mem_flatMap]
          rintro ⟨later, member, again⟩
          exact apart later member subject (settles first List.mem_cons_self asked) again
        omega
      · have here := List.count_eq_zero.mpr asked
        have least := ih ⟨fun exchange member => once.nodup exchange (List.mem_cons_of_mem first member), others⟩
          fun exchange member => settles exchange (List.mem_cons_of_mem first member)
        omega

namespace Cache

variable {σ : Type} {source : Source σ} {cache after : Cache} {log noted : List Exchange} {state last : σ}
  {request : Request} {subject : Subject}

theorem serves_session {rest : List Request} {exchanges : List Exchange}
    (ran : (through source).session (request :: rest) (cache, state) = (exchanges, (after, last))) :
    ∃ reply next other others, Serves source cache state request (reply, (next, other)) ∧
      (through source).session rest (next, other) = (others, (after, last)) ∧
      exchanges = ⟨request, reply⟩ :: others := by
  have serves := serves_through source cache state request
  rcases answered : through source request (cache, state) with ⟨reply, next, other⟩
  rw [answered] at serves
  rw [Source.session_cons answered] at ran
  obtain ⟨same, ends⟩ := Prod.mk.inj ran
  exact ⟨reply, next, other, _, serves, Prod.ext rfl ends, same.symm⟩

/-! ## What the source is asked -/

/-- The cache knows whatever was settled, and nothing of it was requested again. -/
structure Tracks (log : List Exchange) (cache : Cache) : Prop where
  once : SettledOnce log
  known : ∀ exchange ∈ log, ∀ subject ∈ exchange.settled, cache.Knows subject

theorem tracks_nil (cache : Cache) : Tracks [] cache :=
  ⟨⟨fun _ member => (nomatch member), List.Pairwise.nil⟩, fun _ member => nomatch member⟩

/-- The cache may pass on one more request about what it does not know. -/
theorem Tracks.append (tracks : Tracks log cache) {asked : Request} (opens : cache.Opens request asked)
    {reply : Except StoreError asked.Answer}
    (knows : ∀ subject, cache.Knows subject ∨ subject ∈ Exchange.settled ⟨asked, reply⟩ → after.Knows subject) :
    Tracks (log ++ [⟨asked, reply⟩]) after := by
  refine ⟨⟨?_, ?_⟩, ?_⟩
  · intro exchange member
    rcases List.mem_append.mp member with before | new
    · exact tracks.once.nodup exchange before
    · rw [List.mem_singleton.mp new]
      exact opens.nodup
  · refine List.pairwise_append.mpr ⟨tracks.once.settled, List.pairwise_singleton _ _, ?_⟩
    intro earlier before later new subject settled asks
    rw [List.mem_singleton.mp new] at asks
    exact opens.unknown subject asks (tracks.known earlier before subject settled)
  · intro exchange member subject settled
    rcases List.mem_append.mp member with before | new
    · exact knows subject (Or.inl (tracks.known exchange before subject settled))
    · rw [List.mem_singleton.mp new] at settled
      exact knows subject (Or.inr settled)

theorem Serves.tracks {reply : Except StoreError request.Answer}
    (serves : Serves source.noted cache (log, state) request (reply, (after, (noted, last))))
    (tracks : Tracks log cache) : Tracks noted after := by
  cases serves with
  | known held => exact tracks
  | @learned asked found _ _ opens given held =>
      obtain ⟨replied, rest⟩ := Prod.mk.inj given
      cases rest
      rw [replied]
      exact tracks.append opens fun subject => (knows_learn asked cache found subject).mpr
  | @failed asked failure _ opens given =>
      obtain ⟨replied, rest⟩ := Prod.mk.inj given
      cases rest
      rw [replied]
      refine tracks.append opens fun subject either => ?_
      rcases either with before | impossible
      · cases subject <;> exact before
      · cases impossible

theorem tracks_session {requests : List Request} {exchanges : List Exchange} (tracks : Tracks log cache)
    (ran : (through source.noted).session requests (cache, (log, state)) = (exchanges, (after, (noted, last)))) :
    Tracks noted after := by
  induction requests generalizing cache log state exchanges with
  | nil =>
      cases ran
      exact tracks
  | cons request rest ih =>
      obtain ⟨reply, next, ⟨grown, other⟩, others, serves, following, _⟩ := serves_session ran
      exact ih (serves.tracks tracks) following

/-! ## What the answers settle -/

theorem Holds.knows {answer : request.Answer} (holds : cache.Holds request answer) (keyed : cache.Keyed)
    (asked : subject ∈ request.subjects) (settled : subject ∈ request.settled answer) : cache.Knows subject := by
  cases request with
  | artifacts query =>
      cases List.mem_singleton.mp asked
      exact Option.isSome_of_eq_some holds
  | lineage anchor =>
      cases List.mem_singleton.mp asked
      exact Option.isSome_of_eq_some holds
  | byId ids =>
      obtain ⟨a, member, rfl⟩ := List.mem_map.mp settled
      rw [← show cache.byId ids = answer from holds] at member
      obtain ⟨id, _, held⟩ := List.mem_filterMap.mp member
      rw [keyed id a held]
      exact Option.isSome_of_eq_some held
  | context typeName name =>
      cases List.mem_singleton.mp asked
      exact Option.isSome_of_eq_some holds

theorem Serves.settles {answer : request.Answer}
    (serves : Serves source.noted cache (log, state) request (.ok answer, (after, (noted, last)))) (keyed : cache.Keyed)
    (settles : Exchange.Settles ⟨request, .ok answer⟩ subject) (before : ∀ exchange ∈ log, exchange.Settles subject) :
    ∀ exchange ∈ noted, exchange.Settles subject := by
  cases serves with
  | known held => exact before
  | @learned asked found _ _ opens given held =>
      obtain ⟨replied, rest⟩ := Prod.mk.inj given
      cases rest
      rw [replied]
      intro exchange member asks
      rcases List.mem_append.mp member with old | new
      · exact before exchange old asks
      · cases List.mem_singleton.mp new
        have wanted := opens.part subject asks
        have knows := held.knows (keyed_learn keyed asked found) wanted (settles wanted)
        exact ((knows_learn asked cache found subject).mp knows).resolve_left (opens.unknown subject asks)

theorem settles_session {requests : List Request} {exchanges : List Exchange}
    (ran : (through source.noted).session requests (cache, (log, state)) = (exchanges, (after, (noted, last))))
    (keyed : cache.Keyed) (succeeded : ∀ exchange ∈ exchanges, exchange.Succeeds)
    (settles : ∀ exchange ∈ exchanges, exchange.Settles subject) (before : ∀ exchange ∈ log, exchange.Settles subject) :
    ∀ exchange ∈ noted, exchange.Settles subject := by
  induction requests generalizing cache log state exchanges with
  | nil =>
      cases ran
      exact before
  | cons request rest ih =>
      obtain ⟨reply, next, ⟨grown, other⟩, others, serves, following, rfl⟩ := serves_session ran
      obtain ⟨replied, later⟩ := List.forall_mem_cons.mp succeeded
      obtain ⟨answer, rfl⟩ := Exchange.succeeds_iff.mp replied
      obtain ⟨here, there⟩ := List.forall_mem_cons.mp settles
      exact ih following (serves.keyed keyed) later there (serves.settles keyed here before)

/-! ## What a read is told again -/

theorem byId_sublist (extended : Extends cache after) (ids : List Int) : (cache.byId ids).Sublist (after.byId ids) := by
  induction ids with
  | nil => exact List.Sublist.slnil
  | cons id rest ih =>
      simp only [byId, List.filterMap_cons]
      cases before : cache.artifacts.lookup id with
      | some a =>
          rw [extended.artifacts id a before]
          exact ih.cons_cons a
      | none =>
          cases after.artifacts.lookup id with
          | some a => exact ih.cons a
          | none => exact ih

theorem byId_extended (extended : Extends cache after) {ids : List Int}
    (known : ∀ id ∈ ids, cache.Knows (.artifact id)) : after.byId ids = cache.byId ids := by
  refine List.filterMap_congr fun id member => ?_
  obtain ⟨a, held⟩ := Option.isSome_iff_exists.mp (known id member)
  rw [held, extended.artifacts id a held]

theorem Holds.agrees {first second : request.Answer} (held : cache.Holds request first) (keyed : cache.Keyed)
    (extended : Extends cache after) (again : after.Holds request second) :
    Exchange.Agrees ⟨request, .ok first⟩ ⟨request, .ok second⟩ := by
  intro _
  cases request with
  | artifacts query =>
      cases Option.some.inj ((extended.queries _ _ held).symm.trans again)
      exact Or.inl rfl
  | lineage anchor =>
      cases Option.some.inj ((extended.lineages _ _ held).symm.trans again)
      exact Or.inl rfl
  | byId ids =>
      obtain rfl : cache.byId ids = first := held
      obtain rfl : after.byId ids = second := again
      -- The ids of a complete answer are all known, and what is known never changes.
      by_cases settles : ∀ id, Exchange.Settles ⟨.byId ids, .ok (cache.byId ids)⟩ (.artifact id)
      · have held : cache.Holds (.byId ids) (cache.byId ids) := rfl
        have known : ∀ id ∈ ids, cache.Knows (.artifact id) := by
          intro id member
          have asked : .artifact id ∈ Request.subjects (.byId ids) := List.mem_map_of_mem member
          exact held.knows keyed asked (settles id asked)
        rw [byId_extended extended known]
        exact Or.inl rfl
      · exact Or.inr ⟨not_forall.mp settles, byId_sublist extended ids⟩
  | context typeName name =>
      cases Option.some.inj ((extended.contexts _ _ held).symm.trans again)
      exact Or.inl rfl

/-- Every answer in a session is held by some cache that extends the one at the start. -/
theorem session_holds {requests : List Request} {exchanges : List Exchange}
    (ran : (through source).session requests (cache, state) = (exchanges, (after, last))) :
    ∀ request answer, ⟨request, .ok answer⟩ ∈ exchanges →
      ∃ later, Extends cache later ∧ later.Holds request answer := by
  induction requests generalizing cache state exchanges with
  | nil =>
      cases ran
      exact fun _ _ member => nomatch member
  | cons request rest ih =>
      obtain ⟨reply, next, other, others, serves, following, rfl⟩ := serves_session ran
      intro again answer member
      rcases List.mem_cons.mp member with same | afterwards
      · cases same
        exact ⟨next, serves.extends, serves.holds⟩
      · obtain ⟨later, extended, held⟩ := ih following again answer afterwards
        exact ⟨later, serves.extends.trans extended, held⟩

theorem session_agrees {requests : List Request} {exchanges : List Exchange}
    (ran : (through source).session requests (cache, state) = (exchanges, (after, last))) (keyed : cache.Keyed)
    (succeeded : ∀ exchange ∈ exchanges, exchange.Succeeds) : exchanges.Pairwise Exchange.Agrees := by
  induction requests generalizing cache state exchanges with
  | nil =>
      cases ran
      exact List.Pairwise.nil
  | cons request rest ih =>
      obtain ⟨reply, next, other, others, serves, following, rfl⟩ := serves_session ran
      obtain ⟨replied, later⟩ := List.forall_mem_cons.mp succeeded
      obtain ⟨first, rfl⟩ := Exchange.succeeds_iff.mp replied
      have kept := serves.keyed keyed
      refine List.pairwise_cons.mpr ⟨?_, ih following kept later⟩
      rintro ⟨again, reply⟩ member same
      cases same
      obtain ⟨second, rfl⟩ := Exchange.succeeds_iff.mp (later _ member)
      obtain ⟨held, extended, holds⟩ := session_holds following request second member
      exact serves.holds.agrees kept extended holds rfl

/-- In a session of reads that all succeed, whatever the source is and however its answers change, nothing that an
answer settled is requested again, and identical reads agree. Each query, lineage anchor and context is requested at
most once, and so is each artifact id that no read left without its artifact. -/
theorem session_reads_once {requests : List Request} {exchanges : List Exchange}
    (ran : (through source.noted).session requests (empty, ([], state)) = (exchanges, (cache, (log, last))))
    (succeeded : ∀ exchange ∈ exchanges, exchange.Succeeds) :
    SettledOnce log ∧ exchanges.Pairwise Exchange.Agrees ∧
      (∀ subject, (∀ id, subject ≠ .artifact id) → requested log subject ≤ 1) ∧
      (∀ id, (∀ exchange ∈ exchanges, exchange.Settles (.artifact id)) → requested log (.artifact id) ≤ 1) := by
  have once := (tracks_session (tracks_nil empty) ran).once
  have bound : ∀ subject, (∀ exchange ∈ exchanges, exchange.Settles subject) → requested log subject ≤ 1 := by
    intro subject settles
    exact once.requested_le_one (settles_session ran keyed_empty succeeded settles fun _ member => nomatch member)
  refine ⟨once, session_agrees ran keyed_empty succeeded, ?_, fun id => bound (.artifact id)⟩
  intro subject remembered
  exact bound subject fun exchange member => (succeeded exchange member).settles remembered

/-- A source that has nothing when it is first asked and two spans of examples from then on. -/
def filling : Source Nat := fun request calls =>
  (if calls = 0 then Snapshot.empty else neighbourSpans).source request (calls + 1)

def fillingRun (requests : List Request) : List Exchange × Cache × List Exchange × Nat :=
  (through filling.noted).session requests (empty, ([], 0))

theorem session_reads_once_filling :
    let run := fillingRun [.byId [1], .artifacts (Query.ofType "Examples"), .byId [1, 2], .byId [2]]
    (∀ exchange ∈ run.1, exchange.Succeeds) ∧ SettledOnce run.2.2.1 ∧ run.1.Pairwise Exchange.Agrees ∧
      requested run.2.2.1 (.query (Query.ofType "Examples").key) ≤ 1 ∧ requested run.2.2.1 (.artifact 2) ≤ 1 := by
  intro run
  have succeeded : ∀ exchange ∈ run.1, exchange.Succeeds := by
    refine List.forall_mem_cons.mpr ⟨⟨_, rfl⟩, List.forall_mem_cons.mpr ⟨⟨_, rfl⟩, ?_⟩⟩
    exact List.forall_mem_cons.mpr ⟨⟨_, rfl⟩, List.forall_mem_singleton.mpr ⟨_, rfl⟩⟩
  have settles : ∀ exchange ∈ run.1, exchange.Settles (.artifact 2) := by
    unfold Exchange.Settles
    decide
  obtain ⟨once, agrees, remembered, complete⟩ := session_reads_once (Prod.ext rfl rfl) succeeded
  exact ⟨succeeded, once, agrees, remembered _ (fun _ => nofun), complete 2 settles⟩

/-- An id that was left without an artifact is requested again, and the same read then has another answer. -/
theorem missing_id_requested_again :
    let run := fillingRun [.byId [1], .byId [1]]
    run.1 = [⟨.byId [1], .ok []⟩, ⟨.byId [1], .ok (neighbourSpans.artifacts.take 1)⟩] ∧
      requested run.2.2.1 (.artifact 1) = 2 :=
  ⟨rfl, rfl⟩

end Cache

end InputResolution
