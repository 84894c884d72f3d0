import InputResolution.Proofs.Cache.ReadOnce
import InputResolution.Proofs.Reading

/-!
The reads of a plan, one after the other. A plan whose requests go through a cache makes the same reads and has the same
result whether it is observed or not, and no read is made after one that failed: either all reads succeeded, or the
last one failed and its failure is the result.
-/

namespace InputResolution

namespace Exchange

def Fails (exchange : Exchange) (failure : StoreError) : Prop :=
  exchange.reply = .error failure

theorem Fails.not_succeeds {exchange : Exchange} {failure : StoreError} (fails : exchange.Fails failure) :
    ¬exchange.Succeeds := by
  rintro ⟨answer, succeeds⟩
  cases fails.symm.trans succeeds

end Exchange

section Logs

variable {α : Type} {log later : List Exchange}

/-- The reads end in this result: all of them succeeded if there is a value, and otherwise all but the last one, which
failed with the failure of the result. -/
def EndsIn (log : List Exchange) : Except StoreError α → Prop
  | .ok _ => ∀ exchange ∈ log, exchange.Succeeds
  | .error failure => ∃ before request, log = before ++ [⟨request, .error failure⟩] ∧
      ∀ exchange ∈ before, exchange.Succeeds

theorem EndsIn.append {result : Except StoreError α} (ends : EndsIn later result)
    (succeeded : ∀ exchange ∈ log, exchange.Succeeds) : EndsIn (log ++ later) result := by
  cases result with
  | ok b => exact fun exchange member => (List.mem_append.mp member).elim (succeeded exchange) (ends exchange)
  | error failure =>
      obtain ⟨before, request, rfl, others⟩ := ends
      refine ⟨log ++ before, request, (List.append_assoc _ _ _).symm, fun exchange member => ?_⟩
      exact (List.mem_append.mp member).elim (succeeded exchange) (others exchange)

/-- A read that failed is the last one, and its failure is the result. -/
theorem EndsIn.of_fails {result : Except StoreError α} (ends : EndsIn log result) {exchange : Exchange}
    (member : exchange ∈ log) {failure : StoreError} (fails : exchange.Fails failure) :
    result = .error failure ∧ ∃ before, log = before ++ [exchange] ∧ ∀ earlier ∈ before, earlier.Succeeds := by
  cases result with
  | ok a => exact absurd (ends exchange member) fails.not_succeeds
  | error cause =>
      obtain ⟨before, request, rfl, others⟩ := ends
      rcases List.mem_append.mp member with early | last
      · exact absurd (others exchange early) fails.not_succeeds
      · cases List.mem_singleton.mp last
        cases fails
        exact ⟨rfl, before, rfl, others⟩

end Logs

namespace Cache

variable {α β σ : Type}

/-- A request or a plan makes these reads: with the source observed they are noted behind what was noted before, and
besides nothing changes. -/
structure Makes (made : List Exchange) (plain : Except StoreError α × (Cache × σ))
    (observed : List Exchange → Except StoreError α × (Cache × (List Exchange × σ))) : Prop where
  ends : EndsIn made plain.1
  noted : ∀ log, observed log = (plain.1, (plain.2.1, (log ++ made, plain.2.2)))

theorem makes_nothing (a : α) (cache : Cache) (state : σ) :
    Makes [] (.ok a, (cache, state)) fun log => (.ok a, (cache, (log, state))) :=
  ⟨List.forall_mem_nil _, fun log => by rw [List.append_nil]⟩

/-! ## One request -/

theorem makes_consult (source : Source σ) (request : Request) (learn : Cache → request.Answer → Cache) (cache : Cache)
    (state : σ) : Makes [⟨request, (source request state).1⟩] (consult source request learn (cache, state)) fun log =>
      consult source.noted request learn (cache, (log, state)) := by
  rcases given : source request state with ⟨failure | answer, after⟩
  · simp only [consult, Source.noted, given]
    exact ⟨⟨[], request, rfl, List.forall_mem_nil _⟩, fun log => rfl⟩
  · simp only [consult, Source.noted, given]
    exact ⟨List.forall_mem_singleton.mpr ⟨answer, rfl⟩, fun log => rfl⟩

/-- A request is answered from the cache without a read, or by one read. -/
theorem makes_through (source : Source σ) (request : Request) (cache : Cache) (state : σ) :
    ∃ made, Makes made (through source request (cache, state)) fun log =>
      through source.noted request (cache, (log, state)) := by
  cases request with
  | artifacts query =>
      simp only [through]
      cases cache.queries.lookup query.key with
      | some found => exact ⟨_, makes_nothing found cache state⟩
      | none => exact ⟨_, makes_consult source _ _ cache state⟩
  | lineage anchor =>
      simp only [through]
      cases cache.lineages.lookup anchor with
      | some found => exact ⟨_, makes_nothing found cache state⟩
      | none => exact ⟨_, makes_consult source _ _ cache state⟩
  | byId ids =>
      by_cases complete : (missing cache.artifacts ids).isEmpty
      · simp only [through, complete, if_true]
        exact ⟨_, makes_nothing (cache.byId ids) cache state⟩
      · simp only [through, complete, Bool.false_eq_true, if_false]
        obtain ⟨ends, noted⟩ := makes_consult source (.byId (missing cache.artifacts ids)) learnArtifacts cache state
        rcases asked : consult source (.byId (missing cache.artifacts ids)) learnArtifacts (cache, state) with
          ⟨failure | answer, after⟩
        all_goals
          rw [asked] at ends noted
          simp only [noted]
          exact ⟨_, ends, fun log => rfl⟩
  | context typeName name =>
      simp only [through]
      cases cache.contexts.lookup (typeName, name) with
      | some found => exact ⟨_, makes_nothing found cache state⟩
      | none => exact ⟨_, makes_consult source _ _ cache state⟩

/-! ## Plans -/

variable {source : Source σ}

theorem makes_run (source : Source σ) (reading : Reading α) (cache : Cache) (state : σ) :
    ∃ made, Makes made (reading.run (through source) (cache, state)) fun log =>
      reading.run (through source.noted) (cache, (log, state)) := by
  induction reading generalizing cache state with
  | done a => exact ⟨[], makes_nothing a cache state⟩
  | ask request next ih =>
      obtain ⟨first, ends, noted⟩ := makes_through source request cache state
      rcases answered : through source request (cache, state) with ⟨failure | answer, after, last⟩
      · rw [answered] at ends noted
        simp only [Reading.run, answered, noted]
        exact ⟨first, ends, fun log => rfl⟩
      · rw [answered] at ends noted
        simp only [Reading.run, answered, noted]
        obtain ⟨rest, restEnds, restNoted⟩ := ih answer after last
        refine ⟨first ++ rest, restEnds.append ends, fun log => ?_⟩
        rw [← List.append_assoc]
        exact restNoted (log ++ first)

def reads (source : Source σ) (reading : Reading α) (cache : Cache) (state : σ) : List Exchange :=
  (reading.run (through source.noted) (cache, ([], state))).2.2.1

theorem makes_reads (source : Source σ) (reading : Reading α) (cache : Cache) (state : σ) :
    Makes (reads source reading cache state) (reading.run (through source) (cache, state)) fun log =>
      reading.run (through source.noted) (cache, (log, state)) := by
  obtain ⟨made, makes⟩ := makes_run source reading cache state
  rwa [reads, makes.noted []]

@[simp]
theorem reads_done (source : Source σ) (a : α) (cache : Cache) (state : σ) :
    reads source (.done a) cache state = [] := rfl

/-- The second plan makes its reads after those of the first, with what the cache learned from them. -/
theorem reads_bind (first : Reading α) (next : α → Reading β) {cache after : Cache} {state last : σ} {a : α}
    (ran : first.run (through source) (cache, state) = (.ok a, (after, last))) :
    reads source (first >>= next) cache state = reads source first cache state ++ reads source (next a) after last := by
  rw [reads, Reading.run_bind, (makes_reads source first cache state).noted [], ran]
  simp only [(makes_reads source (next a) after last).noted, List.nil_append]

theorem reads_bind_of_failure (first : Reading α) (next : α → Reading β) {cache after : Cache} {state last : σ}
    {failure : StoreError} (ran : first.run (through source) (cache, state) = (.error failure, (after, last))) :
    reads source (first >>= next) cache state = reads source first cache state := by
  rw [reads, Reading.run_bind, (makes_reads source first cache state).noted [], ran]
  simp only [List.nil_append]

end Cache

end InputResolution
