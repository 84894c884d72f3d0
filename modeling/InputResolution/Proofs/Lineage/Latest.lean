import InputResolution.Proofs.Lineage.Disorder

/-!
The latest execution of a kind. Ids tell the executions of a snapshot apart, so at most one is the latest of those that
are wanted, and there is one as soon as any is wanted. A search that finds just the wanted executions ends with it,
whatever their order.
-/

namespace InputResolution

namespace Snapshot

/-- The snapshot holds the execution, it is wanted, and no other that is wanted comes after it in creation order. -/
structure Latest (s : Snapshot) (wanted : Execution → Prop) (e : Execution) : Prop where
  held : e ∈ s.executions
  fits : wanted e
  last : ∀ other ∈ s.executions, wanted other → other.creationKey ≤ e.creationKey

variable {s : Snapshot} {wanted : Execution → Prop} {e other : Execution} {found : List Execution}

theorem Latest.unique (latest : s.Latest wanted e) (also : s.Latest wanted other) (distinct : s.DistinctExecutions) :
    e = other := by
  refine distinct.apart e latest.held other also.held (le_antisymm ?_ ?_)
  · exact also.last e latest.held latest.fits
  · exact latest.last other also.held also.fits

theorem Latest.of_imp {narrower : Execution → Prop} (latest : s.Latest wanted e) (fits : narrower e)
    (implied : ∀ other, narrower other → wanted other) : s.Latest narrower e :=
  ⟨latest.held, fits, fun other held asked => latest.last other held (implied other asked)⟩

theorem latest_congr {same : Execution → Prop} (agree : ∀ e, wanted e ↔ same e) :
    s.Latest wanted e ↔ s.Latest same e :=
  ⟨fun latest => latest.of_imp ((agree e).mp latest.fits) fun other => (agree other).mpr,
    fun latest => latest.of_imp ((agree e).mpr latest.fits) fun other => (agree other).mp⟩

section Search

variable (members : ∀ e, e ∈ found ↔ e ∈ s.executions ∧ wanted e)
include members

theorem latest_of_latestBy? (chosen : latestBy? Execution.creationKey found = some e) : s.Latest wanted e := by
  have greatest := isGreatest?_latestBy? Execution.creationKey found
  rw [chosen] at greatest
  obtain ⟨held, fits⟩ := (members e).mp greatest.1
  exact ⟨held, fits, fun other among asked => greatest.2 other ((members other).mpr ⟨among, asked⟩)⟩

theorem latestBy?_eq_none_iff :
    latestBy? Execution.creationKey found = none ↔ ∀ e ∈ s.executions, ¬wanted e := by
  constructor
  · intro missing e held asked
    have member := (members e).mpr ⟨held, asked⟩
    rw [eq_nil_of_latestBy? missing] at member
    cases member
  · intro unwanted
    cases chosen : latestBy? Execution.creationKey found with
    | none => rfl
    | some e =>
        obtain ⟨held, asked⟩ := (members e).mp (mem_of_latestBy? chosen)
        exact absurd asked (unwanted e held)

theorem latestBy?_eq_some_iff (distinct : s.DistinctExecutions) :
    latestBy? Execution.creationKey found = some e ↔ s.Latest wanted e := by
  refine ⟨latest_of_latestBy? members, fun latest => ?_⟩
  cases chosen : latestBy? Execution.creationKey found with
  | none => exact absurd latest.fits ((latestBy?_eq_none_iff members).mp chosen e latest.held)
  | some other => exact congrArg some ((latest_of_latestBy? members chosen).unique latest distinct)

end Search

/-- No execution is wanted, or one of those that are is the latest. -/
theorem latest_cases (s : Snapshot) (wanted : Execution → Prop) :
    (∀ e ∈ s.executions, ¬wanted e) ∨ ∃ e, s.Latest wanted e := by
  classical
  have members : ∀ e, e ∈ s.executions.filter (fun e => decide (wanted e)) ↔ e ∈ s.executions ∧ wanted e := by
    simp
  cases chosen : latestBy? Execution.creationKey (s.executions.filter fun e => decide (wanted e)) with
  | none => exact Or.inl ((latestBy?_eq_none_iff members).mp chosen)
  | some latest => exact Or.inr ⟨latest, latest_of_latestBy? members chosen⟩

/-- Examples of the spans 1, 2 and 5, and the models 4 to 6. The last of these was trained first, on span 1; the other
two were trained later and together, on spans 1 and 2. An evaluation is the latest execution, but produced nothing. -/
def twoTrainings : Snapshot where
  artifacts := [(1, "Examples", [("span", .int 1)]), (2, "Examples", [("span", .int 2)]),
    (3, "Examples", [("span", .int 5)]), (4, "Model", []), (5, "Model", []), (6, "Model", [])].map
      fun (id, typeName, properties) =>
        ⟨id, typeName, "", .live, SortedMap.ofList properties, Instant.ofSeconds id⟩
  executions := [
    ⟨3, "Evaluator", Instant.ofSeconds 9, OrderedMap.ofList [("model", [5, 6]), ("examples", [3])], OrderedMap.empty, []⟩,
    ⟨2, "Trainer", Instant.ofSeconds 8, OrderedMap.ofList [("examples", [2, 1]), ("base", [6, 2])],
      OrderedMap.ofList [("model", [5]), ("best", [4, 5])], []⟩,
    ⟨1, "Trainer", Instant.ofSeconds 7, OrderedMap.ofList [("examples", [1])], OrderedMap.ofList [("model", [6])], []⟩]
  contexts := []

end Snapshot

def Execution.ProducedAny (artifacts : List Artifact) (e : Execution) : Prop :=
  ∃ a ∈ artifacts, e.produced a.id = true

instance (artifacts : List Artifact) (e : Execution) : Decidable (e.ProducedAny artifacts) :=
  inferInstanceAs (Decidable (∃ a ∈ artifacts, e.produced a.id = true))

namespace Lineage

variable {s : Snapshot} {artifact : Int} {trainer : Execution}

theorem latestProducer_eq_some_iff (distinct : s.DistinctExecutions) :
    (latestProducer artifact).value s.answer = some trainer ↔ s.Latest (fun e => e.produced artifact = true) trainer :=
  Snapshot.latestBy?_eq_some_iff ((mem_producers s artifact).value s.admits_answer) distinct

end Lineage

end InputResolution
