import InputResolution.Proofs.Cache.Reads
import InputResolution.Proofs.Evaluation.UnknownKeys
import InputResolution.Proofs.Lineage.EvaluatedModel

/-!
The reads of an evaluation, node by node. Each node is visited once, in ascending order, until one has no value; the
reads of the evaluation are those of the visits. So a failure ends everything with the error that it turns into, a skip
leaves later nodes unread, and operations that have nothing to look up make no read.
-/

namespace InputResolution

/-- A node as it is evaluated: the values known before, the reads that are made for it and what comes of them. -/
structure Visit where
  node : Nat
  known : List (Nat × NodeValue)
  reads : List Exchange
  outcome : Except StoreError (Evaluated NodeValue)

namespace Graph

variable {σ : Type}

def visit (source : Source σ) (seeding : Seeding) (g : Graph) (known : List (Nat × NodeValue)) (id : Nat)
    (cache : Cache) (state : σ) : Visit where
  node := id
  known := known
  reads := Cache.reads source (g.step seeding known id) cache state
  outcome := ((g.step seeding known id).run (Cache.through source) (cache, state)).1

def visits (source : Source σ) (seeding : Seeding) (g : Graph) (known : List (Nat × NodeValue)) :
    List Nat → Cache → σ → List Visit
  | [], _, _ => []
  | id :: rest, cache, state =>
      g.visit source seeding known id cache state ::
        match (g.step seeding known id).run (Cache.through source) (cache, state) with
        | (.ok (.ok value), (after, last)) => g.visits source seeding ((id, value) :: known) rest after last
        | _ => []

variable {source : Source σ} {seeding : Seeding} {g : Graph}

theorem reads_trace (order : List Nat) (known : List (Nat × NodeValue)) (cache : Cache) (state : σ) :
    Cache.reads source (g.trace seeding known order) cache state =
      (g.visits source seeding known order cache state).flatMap Visit.reads := by
  induction order generalizing known cache state with
  | nil => rfl
  | cons id rest ih =>
      rw [trace, visits, List.flatMap_cons]
      rcases ran : (g.step seeding known id).run (Cache.through source) (cache, state) with
        ⟨failure | halt | value, after, last⟩
      · rw [Cache.reads_bind_of_failure _ _ ran, List.flatMap_nil, List.append_nil, visit]
      · rw [Cache.reads_bind _ _ ran]
        rfl
      · rw [Cache.reads_bind _ _ ran]
        exact congrArg _ (ih ((id, value) :: known) after last)

/-- The nodes that are visited are the first of the order. -/
theorem nodes_visits (order : List Nat) (known : List (Nat × NodeValue)) (cache : Cache) (state : σ) :
    ((g.visits source seeding known order cache state).map Visit.node).Sublist order := by
  induction order generalizing known cache state with
  | nil => exact List.Sublist.slnil
  | cons id rest ih =>
      rw [visits, List.map_cons]
      apply List.Sublist.cons_cons
      split
      · exact ih _ _ _
      · exact List.nil_sublist rest

theorem exists_visit {order : List Nat} {known : List (Nat × NodeValue)} {cache : Cache} {state : σ} {visited : Visit}
    (member : visited ∈ g.visits source seeding known order cache state) :
    ∃ before held, visited = g.visit source seeding visited.known visited.node before held := by
  induction order generalizing known cache state with
  | nil => cases member
  | cons id rest ih =>
      rw [visits] at member
      rcases List.mem_cons.mp member with rfl | later
      · exact ⟨cache, state, rfl⟩
      · split at later
        · exact ih later
        · cases later

/-- A visit that halts is the last one, and the trace ends with it. -/
theorem last_of_halt {order : List Nat} {known : List (Nat × NodeValue)} {cache : Cache} {state : σ} {visited : Visit}
    (member : visited ∈ g.visits source seeding known order cache state) {halt : Halt}
    (halts : visited.outcome = .ok (.error halt)) :
    (∃ before, g.visits source seeding known order cache state = before ++ [visited]) ∧
      ((g.trace seeding known order).run (Cache.through source) (cache, state)).1 = .ok ⟨visited.known, some halt⟩ := by
  induction order generalizing known cache state with
  | nil => cases member
  | cons id rest ih =>
      rw [visits] at member ⊢
      rw [trace, Reading.run_bind]
      rcases ran : (g.step seeding known id).run (Cache.through source) (cache, state) with
        ⟨failure | other | value, after, last⟩
      all_goals
        rw [ran] at member
        rcases List.mem_cons.mp member with rfl | later
      · cases (congrArg Prod.fst ran).symm.trans halts
      · cases later
      · cases (congrArg Prod.fst ran).symm.trans halts
        exact ⟨⟨[], rfl⟩, rfl⟩
      · cases later
      · cases (congrArg Prod.fst ran).symm.trans halts
      · obtain ⟨⟨before, split⟩, ended⟩ := ih later
        exact ⟨⟨_ :: before, congrArg _ split⟩, ended⟩

end Graph

/-! ## Operations with nothing to look up -/

namespace Lineage

theorem trainingRange_nil (examplesType : String) : trainingRange [] examplesType = .done [] := rfl

theorem latestTrained_nil : latestTrained [] = .done [] := rfl

theorem evaluatorInputs_of_early {examples : List Artifact} {params : SpanDriven}
    (early : ∀ e ∈ examples, ∀ span, e.span? = some span → span < params.startSpan) (models : List Artifact) :
    evaluatorInputs examples models params = .done ⟨[], []⟩ := by
  rw [evaluatorInputs, max?_filter_of_lt early]
  rfl

end Lineage

namespace Node

/-- The operation asks about lineage, but its inputs hold nothing that it could ask about: no model, no artifact or no
example from the start on. -/
def Rests (node : Node) (values : List NodeValue) : Prop :=
  match node.op with
  | .trainingRange _ => values[0]? = some (.list [])
  | .latestTrained => values[0]? = some (.list [])
  | .evaluatorInputs params => ∃ examples, values[0]? = some (.list examples) ∧
      ∀ e ∈ examples, ∀ span, e.span? = some span → span < params.startSpan
  | _ => False

theorem listInput_eq {node : Node} {values : List NodeValue} {index : Nat} {artifacts : List Artifact}
    (held : values[index]? = some (.list artifacts)) : node.listInput values index = .ok artifacts := by
  simp only [listInput, input, held]
  rfl

theorem Rests.value_eq {node : Node} {values : List NodeValue} (rests : node.Rests values) (seeding : Seeding) :
    ∃ outcome, node.value seeding values = .done outcome := by
  obtain ⟨id, op, inputs, shape⟩ := node
  cases op with
  | trainingRange examplesType =>
      simp only [value, listInput_eq rests, proceed, Lineage.trainingRange_nil]
      exact ⟨_, rfl⟩
  | latestTrained =>
      simp only [value, listInput_eq rests, proceed, Lineage.latestTrained_nil]
      exact ⟨_, rfl⟩
  | evaluatorInputs params =>
      obtain ⟨examples, held, early⟩ := rests
      simp only [value, listInput_eq held, proceed, Lineage.evaluatorInputs_of_early early]
      split <;> exact ⟨_, rfl⟩
  | _ => cases rests

end Node

/-! ## A resolution -/

def StoreError.report : StoreError → ErrorReport
  | unavailable text => ⟨.storeUnavailable, text⟩
  | corrupt text => ⟨.internal, "corrupt store record: " ++ text⟩

theorem ResolveError.report_store (failure : StoreError) : (store failure).report = failure.report := by
  cases failure <;> rfl

namespace ResolutionContext

variable {σ : Type} {context : ResolutionContext} {seeding : Seeding}

def visits (source : Source σ) (seeding : Seeding) (context : ResolutionContext) (state : σ) : List Visit :=
  match context.graph.ancestors context.roots with
  | .ok order => context.graph.visits source seeding [] order Cache.empty state
  | .error _ => []

/-- The source is unavailable only by its own account. -/
theorem Valid.kind_of_finish (valid : context.Valid) {source : Source σ} {state : σ} {trace : Trace}
    (traces : context.Traces source seeding state trace) {cause : ResolveError}
    (failed : context.finish trace.result = .error cause) : cause.kind ≠ .storeUnavailable := by
  obtain ⟨_, sound, grounded, complete, ends⟩ := valid.of_traces traces
  unfold Trace.result at failed
  cases ended : trace.halt with
  | none =>
      rw [ended] at failed
      have uneven := assemble_eq_error (valid.assembles sound (complete ended)).filled failed
      intro unavailable
      cases unavailable.symm.trans uneven
  | some halt =>
      rw [ended] at failed
      obtain ⟨id, _, makes⟩ := ends halt ended
      cases halt with
      | skip reason => cases failed
      | error other =>
          obtain ⟨key, _, rfl⟩ := makes.selectsUnknown valid.graph sound.shaped grounded
          cases failed
          nofun

theorem Valid.unavailable_of_conclude (valid : context.Valid) {order : List Nat}
    (found : context.graph.ancestors context.roots = .ok order) {source : Source σ} {state : σ} {log : List Exchange}
    (ends : EndsIn log
      ((context.graph.trace seeding [] order).run (Cache.through source) (Cache.empty, state)).1) {cause : ResolveError}
    (failed : context.conclude
      ((context.graph.trace seeding [] order).run (Cache.through source) (Cache.empty, state)).1 = .error cause)
    (kind : cause.kind = .storeUnavailable) :
    ∃ exchange ∈ log, ∃ text, exchange.Fails (.unavailable text) ∧ cause = .store (.unavailable text) := by
  rcases ran : (context.graph.trace seeding [] order).run (Cache.through source) (Cache.empty, state) with
    ⟨failure | trace, cache, after⟩
  · rw [ran] at ends failed
    obtain ⟨before, request, rfl, _⟩ := ends
    cases failed
    cases failure with
    | unavailable text => exact ⟨_, List.mem_append_right before (List.mem_singleton_self _), text, rfl, rfl⟩
    | corrupt text => cases kind
  · rw [ran] at failed
    exact absurd kind (valid.kind_of_finish ⟨order, cache, after, found, ran⟩ failed)

/-- How the reads of a resolution, its visits to nodes and its result belong together. -/
structure Accounts (context : ResolutionContext) (log : List Exchange) (visits : List Visit)
    (result : Except ResolveError Outcome) : Prop where
  attributed : log = visits.flatMap Visit.reads
  ascending : (visits.map Visit.node).Pairwise (· < ·)
  /-- A read that fails is the last one, and its failure is the result. -/
  failed : ∀ exchange ∈ log, ∀ failure, exchange.Fails failure →
    (∃ before, log = before ++ [exchange] ∧ ∀ earlier ∈ before, earlier.Succeeds) ∧ result = .error (.store failure)
  unavailable : ∀ cause, result = .error cause → cause.kind = .storeUnavailable →
    ∃ exchange ∈ log, ∃ text, exchange.Fails (.unavailable text) ∧ cause = .store (.unavailable text)
  /-- A visit that calls for a skip is the last one, and its reason is the result. -/
  skipped : ∀ visit ∈ visits, ∀ reason, visit.outcome = .ok (.error (.skip reason)) →
    (∀ other ∈ visits, other.node ≤ visit.node) ∧ result = .ok (.skip reason)
  /-- An operation that has nothing to look up makes no read. -/
  rested : ∀ visit ∈ visits, ∀ node values, context.graph.node? visit.node = some node →
    node.inputValues visit.known = .ok values → node.Rests values → visit.reads = []

/-- Against any source, whatever it answers to each read and whichever reads fail: a valid context is resolved as
without observation, and what was observed accounts for the result. -/
theorem resolve_accounts (valid : context.validate = .ok ()) (source : Source σ) (seeding : Seeding) (state : σ) :
    let observed := context.resolve source.noted seeding ([], state)
    observed.1 = (context.resolve source seeding state).1 ∧
      context.Accounts observed.2.1 (context.visits source seeding state) observed.1 ∧
      ∀ failure : StoreError, (ResolveError.store failure).report = failure.report := by
  have accepted := validate_eq_ok.mp valid
  obtain ⟨order, found, _⟩ := accepted.scheduled
  have planned := trace_eq_ok accepted found seeding
  have visits : context.visits source seeding state = context.graph.visits source seeding [] order Cache.empty state := by
    rw [ResolutionContext.visits, found]
  obtain ⟨ends, noted⟩ := Cache.makes_reads source (context.graph.trace seeding [] order) Cache.empty state
  rw [resolve_eq_conclude planned, resolve_eq_conclude planned, noted, visits, Graph.reads_trace, List.nil_append]
  rw [Graph.reads_trace] at ends
  have ascending : ((context.graph.visits source seeding [] order Cache.empty state).map Visit.node).Pairwise (· < ·) :=
    (Graph.ancestors_spec found).1.sublist (Graph.nodes_visits order [] Cache.empty state)
  refine ⟨rfl, ⟨rfl, ascending, ?_, ?_, ?_, ?_⟩, ResolveError.report_store⟩
  · intro exchange member failure fails
    obtain ⟨result, last⟩ := ends.of_fails member fails
    rw [result]
    exact ⟨last, rfl⟩
  · intro cause failed kind
    exact accepted.unavailable_of_conclude found ends failed kind
  · intro visit member reason skips
    obtain ⟨⟨before, split⟩, ended⟩ := Graph.last_of_halt member skips
    rw [ended, split]
    refine ⟨fun other among => ?_, rfl⟩
    rw [split, List.map_append, List.pairwise_append] at ascending
    rcases List.mem_append.mp among with earlier | same
    · exact (ascending.2.2 _ (List.mem_map_of_mem earlier) _ List.mem_cons_self).le
    · rw [List.mem_singleton.mp same]
  · intro visit member node values present inputs rests
    obtain ⟨cache, held, same⟩ := Graph.exists_visit member
    obtain ⟨outcome, value⟩ := rests.value_eq seeding
    rw [same]
    change Cache.reads source (context.graph.step seeding visit.known visit.node) cache held = []
    rw [Graph.step_eq present inputs, value, Cache.reads_done]

def guardedTraining : ResolutionContext where
  graph := ⟨[⟨0, .input (Query.ofType "Examples"), [], .list⟩, ⟨1, .skipIfEmpty, [0], .list⟩,
    ⟨2, .input (Query.ofType "Model"), [], .list⟩, ⟨3, .trainingRange "Examples", [2], .list⟩]⟩
  slots := OrderedMap.ofList [("examples", SlotBinding.required 1), ("trained", SlotBinding.required 3)]

def refusing (artifacts : List Artifact) : Source Nat := fun request calls =>
  match request with
  | .artifacts _ => (.ok artifacts, calls + 1)
  | .lineage _ => (.error (.unavailable "connection refused"), calls + 1)
  | .byId _ => (.ok [], calls + 1)
  | .context _ _ => (.ok none, calls + 1)

theorem resolve_accounts_guardedTraining :
    guardedTraining.validate = .ok () ∧
      (guardedTraining.resolve (refusing Cache.neighbourSpans.artifacts) ⟨none, fun _ => 0⟩ 7).1 =
        .error (.store (.unavailable "connection refused")) ∧
      (guardedTraining.resolve (refusing []) ⟨none, fun _ => 0⟩ 7).1 = .ok (.skip (.emptyResult 1)) := by
  have valid : guardedTraining.validate = .ok () := by rfl
  have order : guardedTraining.graph.ancestors guardedTraining.roots = .ok [0, 1, 2, 3] := by decide +kernel
  obtain ⟨same, accounts, _⟩ := resolve_accounts valid (refusing Cache.neighbourSpans.artifacts) ⟨none, fun _ => 0⟩ 7
  obtain ⟨alike, others, _⟩ := resolve_accounts valid (refusing []) ⟨none, fun _ => 0⟩ 7
  rw [← same, ← alike]
  refine ⟨valid, ?_, ?_⟩
  · refine (accounts.failed ⟨.lineage (.artifact 2), .error (.unavailable "connection refused")⟩ ?_ _ rfl).2
    rw [accounts.attributed, visits, order]
    exact List.mem_of_getLast? (by rfl)
  · obtain ⟨visited, member, skips⟩ : ∃ visited ∈ guardedTraining.visits (refusing []) ⟨none, fun _ => 0⟩ 7,
        visited.outcome = .ok (.error (.skip (.emptyResult 1))) := by
      rw [visits, order]
      exact ⟨_, List.mem_of_getLast? (by rfl), rfl⟩
    exact (others.skipped visited member _ skips).2

end ResolutionContext

end InputResolution
