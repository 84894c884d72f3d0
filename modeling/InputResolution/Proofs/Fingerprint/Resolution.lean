import InputResolution.Proofs.Assembly.Alike
import InputResolution.Proofs.Evaluation.UnknownKeys

/-!
Fingerprints stand for resolutions. Contexts that are alike need the same nodes and evaluate them in the same order by
the same reads, and what they then put together is alike. So contexts with one fingerprint have results that differ only
in what a fingerprint does not cover.
-/

namespace InputResolution.ResolutionContext

open Assembly

variable {a b context : ResolutionContext} {σ : Type}

theorem Alike.mem_roots_iff (alike : a.Alike b) {id : Nat} : id ∈ a.roots ↔ id ∈ b.roots := by
  rw [mem_roots, mem_roots]
  apply Rearranged.exists_mem_iff alike.slots
  intro first second same node
  exact (covered_eq_iff.mp same).2.1 ▸ node

theorem Alike.valid_iff (alike : a.Alike b) : a.Valid ↔ b.Valid := by
  have slots : (∀ entry ∈ a.slots.entries, a.Binds entry.2) ↔ ∀ entry ∈ b.slots.entries, b.Binds entry.2 := by
    unfold Binds
    rw [alike.graph]
    apply Rearranged.forall_mem_iff alike.slots
    intro first second same binds
    rwa [← (covered_eq_iff.mp same).2.1]
  constructor
  · rintro ⟨graph, each⟩
    exact ⟨alike.graph ▸ graph, slots.mp each⟩
  · rintro ⟨graph, each⟩
    exact ⟨alike.graph ▸ graph, slots.mpr each⟩

/-- The slots need the same nodes, so they are evaluated in one order. -/
theorem Alike.order_eq (alike : a.Alike b) {order other : List Nat} (first : a.graph.ancestors a.roots = .ok order)
    (second : b.graph.ancestors b.roots = .ok other) : order = other := by
  obtain ⟨ascending, reached⟩ := Graph.ancestors_spec first
  obtain ⟨otherAscending, otherReached⟩ := Graph.ancestors_spec second
  refine ascending.eq_of_mem_iff otherAscending fun id => ?_
  rw [reached, otherReached, alike.graph]
  exact ⟨Graph.Reaches.mono fun _ member => .root (alike.mem_roots_iff.mp member),
    Graph.Reaches.mono fun _ member => .root (alike.mem_roots_iff.mpr member)⟩

/-! ## Contexts that are not valid -/

theorem kind_of_checkBinding_eq_error {slot : String} {binding : SlotBinding} {cause : ResolveError}
    (failed : context.checkBinding slot binding = .error cause) : cause.kind = .invalidGraph := by
  unfold checkBinding at failed
  split at failed
  · cases failed
    rfl
  · split at failed
    · cases failed
      rfl
    · cases failed

theorem kind_of_checkBindings_eq_error {entries : List (String × SlotBinding)} {cause : ResolveError}
    (failed : (entries.forM fun entry => context.checkBinding entry.1 entry.2) = .error cause) :
    cause.kind = .invalidGraph := by
  rw [List.forM_eq_forM] at failed
  induction entries with
  | nil => cases failed
  | cons entry rest ih =>
      rw [List.forM_cons] at failed
      rcases Steps.bind_eq_error.mp failed with here | ⟨_, _, later⟩
      · exact kind_of_checkBinding_eq_error here
      · exact ih later

theorem Alike.kind_eq (alike : a.Alike b) {cause other : ResolveError} (first : a.validate = .error cause)
    (second : b.validate = .error other) : cause.kind = other.kind := by
  unfold validate at first second
  rw [alike.graph] at first
  rcases Steps.bind_eq_error.mp first with graph | ⟨_, accepted, slots⟩
  · rcases Steps.bind_eq_error.mp second with otherGraph | ⟨_, accepted, _⟩
    · cases graph.symm.trans otherGraph
      rfl
    · cases graph.symm.trans accepted
  · rcases Steps.bind_eq_error.mp second with graph | ⟨_, _, otherSlots⟩
    · cases graph.symm.trans accepted
    · exact (kind_of_checkBindings_eq_error slots).trans (kind_of_checkBindings_eq_error otherSlots).symm

/-! ## Resolutions -/

/-- What is finished from one trace is alike. -/
theorem Alike.finish (alike : a.Alike b) (valid : a.Valid) {source : Source σ} {seeding : Seeding} {state : σ}
    {trace : Trace} (traces : a.Traces source seeding state trace) :
    ResultsAlike (a.finish trace.result) (b.finish trace.result) := by
  obtain ⟨_, sound, _, complete, _⟩ := valid.of_traces traces
  unfold Trace.result
  cases ended : trace.halt with
  | none => exact assemble_alike alike.slots (valid.assembles sound (complete ended)).filled
  | some halt => cases halt <;> exact .refl _

theorem Alike.resolve (alike : a.Alike b) (source : Source σ) (seeding : Seeding) (state : σ) :
    ResultsAlike (a.resolve source seeding state).1 (b.resolve source seeding state).1 ∧
      (a.resolve source seeding state).2 = (b.resolve source seeding state).2 := by
  by_cases valid : a.Valid
  · have otherValid := alike.valid_iff.mp valid
    obtain ⟨order, found, _⟩ := valid.scheduled
    obtain ⟨other, otherFound, _⟩ := otherValid.scheduled
    cases alike.order_eq found otherFound
    have planned := trace_eq_ok valid found seeding
    have otherPlanned := trace_eq_ok otherValid otherFound seeding
    rw [← alike.graph] at otherPlanned
    rw [resolve_eq_conclude planned, resolve_eq_conclude otherPlanned]
    rcases ran : (a.graph.trace seeding [] order).run (Cache.through source) (Cache.empty, state) with
      ⟨failure | trace, cache, after⟩
    · exact ⟨.refl _, rfl⟩
    · exact ⟨alike.finish valid ⟨order, cache, after, found, ran⟩, rfl⟩
  · have otherInvalid := mt alike.valid_iff.mpr valid
    rw [← validate_eq_ok] at valid otherInvalid
    cases refused : a.validate with
    | ok => exact absurd refused valid
    | error cause =>
        cases otherRefused : b.validate with
        | ok => exact absurd otherRefused otherInvalid
        | error other =>
            rw [resolve_of_refused refused, resolve_of_refused otherRefused]
            exact ⟨.error (alike.kind_eq refused otherRefused), rfl⟩

/-- If no two texts have one digest, then a fingerprint stands for the nodes of the graph and for the names, the nodes
and the counts of the slots. Contexts with one fingerprint are resolved by the same reads, to outcomes with the same
artifacts for each slot, or to errors of one kind. -/
theorem fingerprint_eq_iff {hash : String → String} (injective : Function.Injective hash) (a b : ResolutionContext) :
    (a.fingerprintWith hash = b.fingerprintWith hash ↔ a.Alike b) ∧
      (a.fingerprintWith hash = b.fingerprintWith hash →
        ∀ {σ : Type} (source : Source σ) (seeding : Seeding) (state : σ),
          ResultsAlike (a.resolve source seeding state).1 (b.resolve source seeding state).1 ∧
            (a.resolve source seeding state).2 = (b.resolve source seeding state).2) :=
  ⟨⟨alike_of_fingerprint_eq injective, fingerprint_eq_of_alike hash⟩,
    fun same _ source seeding state => (alike_of_fingerprint_eq injective same).resolve source seeding state⟩

def requiredFirst : ResolutionContext where
  graph := ⟨[⟨0, .input (Query.ofType "Examples"), [], .list⟩]⟩
  slots := OrderedMap.ofList [("required", SlotBinding.required 0), ("optional", SlotBinding.optional 0)]

def optionalFirst : ResolutionContext where
  graph := requiredFirst.graph
  slots := OrderedMap.ofList
    [("optional", ⟨0, 0, some ⟨"all_spans", [], OrderedMap.empty⟩⟩), ("required", SlotBinding.required 0)]

theorem fingerprint_eq_iff_optionalFirst :
    Function.Injective (id : String → String) ∧ requiredFirst.fingerprintWith id = optionalFirst.fingerprintWith id ∧
      ResultsAlike (requiredFirst.resolve (Snapshot.threeSpans.source : Source Nat) ⟨none, fun _ => 0⟩ 7).1
        (optionalFirst.resolve (Snapshot.threeSpans.source : Source Nat) ⟨none, fun _ => 0⟩ 7).1 := by
  obtain ⟨covers, resolves⟩ := fingerprint_eq_iff Function.injective_id requiredFirst optionalFirst
  have same := covers.mpr ⟨rfl, by decide⟩
  exact ⟨Function.injective_id, same, (resolves same _ _ _).1⟩

end InputResolution.ResolutionContext
