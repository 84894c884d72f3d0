import InputResolution.Proofs.OrderedMap
import InputResolution.Proofs.Reading
import InputResolution.Proofs.ResolutionContext
import InputResolution.Resolution

/-!
Evaluation step by step, with a trace. The trace keeps the values of the nodes that were evaluated, the newest first,
and what ended the evaluation early, if anything did. The result of an evaluation is that of its trace, and a
resolution is finished from it.
-/

namespace InputResolution

structure Trace where
  values : List (Nat × NodeValue)
  halt : Option Halt

def Trace.result (trace : Trace) : Evaluated (List (Nat × NodeValue)) :=
  match trace.halt with
  | none => .ok trace.values
  | some halt => .error halt

namespace Graph

def step (seeding : Seeding) (g : Graph) (known : List (Nat × NodeValue)) (id : Nat) : Reading (Evaluated NodeValue) :=
  match g.node? id with
  | none => return .error (.error (.unknownNode id))
  | some node => Node.proceed (node.inputValues known) (node.value seeding)

def trace (seeding : Seeding) (g : Graph) (known : List (Nat × NodeValue)) : List Nat → Reading Trace
  | [] => return ⟨known, none⟩
  | id :: rest => do
      match ← g.step seeding known id with
      | .error halt => return ⟨known, some halt⟩
      | .ok value => g.trace seeding ((id, value) :: known) rest

theorem evaluate_cons (seeding : Seeding) (g : Graph) (known : List (Nat × NodeValue)) (id : Nat) (rest : List Nat) :
    g.evaluate seeding known (id :: rest) = (do
      match ← g.step seeding known id with
      | .error halt => return .error halt
      | .ok value => g.evaluate seeding ((id, value) :: known) rest) := by
  rw [evaluate, step]
  cases g.node? id with
  | none => rfl
  | some node =>
      dsimp only
      cases node.inputValues known <;> rfl

theorem evaluate_eq_trace (seeding : Seeding) (g : Graph) (known : List (Nat × NodeValue)) (order : List Nat) :
    g.evaluate seeding known order = do
      let trace ← g.trace seeding known order
      return trace.result := by
  induction order generalizing known with
  | nil => rfl
  | cons id rest ih =>
      rw [evaluate_cons, trace, bind_assoc]
      congr 1
      funext outcome
      cases outcome with
      | error halt => rfl
      | ok value => exact ih ((id, value) :: known)

theorem step_eq {g : Graph} {id : Nat} {node : Node} (found : g.node? id = some node) {known : List (Nat × NodeValue)}
    {values : List NodeValue} (ready : node.inputValues known = .ok values) (seeding : Seeding) :
    g.step seeding known id = node.value seeding values := by
  simp only [step, found, ready, Node.proceed]

end Graph

namespace Node

theorem inputValues_eq_ok {node : Node} {known : List (Nat × NodeValue)} {values : List NodeValue} :
    node.inputValues known = .ok values ↔
      List.Forall₂ (fun input value => known.lookup input = some value) node.inputs values := by
  unfold inputValues
  rw [Steps.mapM_eq_ok]
  constructor
  · apply List.Forall₂.imp
    intro input value found
    split at found
    · next known => rw [known, Except.ok.inj found]
    · cases found
  · apply List.Forall₂.imp
    intro input value known
    rw [known]

theorem exists_inputValues {node : Node} {known : List (Nat × NodeValue)}
    (done : ∀ input ∈ node.inputs, input ∈ known.map Prod.fst) : ∃ values, node.inputValues known = .ok values := by
  simp only [inputValues_eq_ok]
  generalize node.inputs = inputs at done
  induction inputs with
  | nil => exact ⟨[], List.Forall₂.nil⟩
  | cons input rest ih =>
      obtain ⟨values, others⟩ := ih fun other member => done other (List.mem_cons_of_mem input member)
      obtain ⟨value, found⟩ := exists_lookup (done input List.mem_cons_self)
      exact ⟨value :: values, List.Forall₂.cons found others⟩

end Node

namespace ResolutionContext

variable {σ : Type}

def trace (seeding : Seeding) (context : ResolutionContext) : Except ResolveError (Reading Trace) := do
  context.validate
  let order ← context.graph.ancestors context.roots
  .ok (context.graph.trace seeding [] order)

theorem resolution_eq_trace (seeding : Seeding) (context : ResolutionContext) :
    context.resolution seeding =
      (context.trace seeding).map fun reading => do
        let trace ← reading
        return context.finish trace.result := by
  unfold resolution trace
  cases context.validate with
  | error cause => rfl
  | ok =>
      cases context.graph.ancestors context.roots with
      | error cause => rfl
      | ok order =>
          apply congrArg Except.ok
          rw [Graph.evaluate_eq_trace, bind_assoc]
          rfl

theorem trace_eq_ok {context : ResolutionContext} (valid : context.Valid) {order : List Nat}
    (found : context.graph.ancestors context.roots = .ok order) (seeding : Seeding) :
    context.trace seeding = .ok (context.graph.trace seeding [] order) := by
  rw [trace, validate_eq_ok.mpr valid, found]
  rfl

/-- What is not valid is refused before any request. -/
theorem resolve_of_refused {context : ResolutionContext} {cause : ResolveError}
    (refused : context.validate = .error cause) (source : Source σ) (seeding : Seeding) (state : σ) :
    context.resolve source seeding state = (.error cause, state) := by
  rw [resolve, resolution, refused]
  rfl

def conclude (context : ResolutionContext) : Except StoreError Trace → Except ResolveError Outcome
  | .ok trace => context.finish trace.result
  | .error failure => .error (.store failure)

theorem resolve_eq_conclude {context : ResolutionContext} {seeding : Seeding} {reading : Reading Trace}
    (planned : context.trace seeding = .ok reading) (source : Source σ) (state : σ) :
    context.resolve source seeding state =
      (context.conclude (reading.run (Cache.through source) (Cache.empty, state)).1,
        (reading.run (Cache.through source) (Cache.empty, state)).2.2) := by
  have resolution := resolution_eq_trace seeding context
  rw [planned] at resolution
  rw [resolve, resolution]
  simp only [Except.map, Reading.run_bind]
  rcases reading.run (Cache.through source) (Cache.empty, state) with ⟨failure | trace, cache, after⟩
  · rfl
  · rfl

theorem resolve_eq_finish {context : ResolutionContext} {seeding : Seeding} {reading : Reading Trace}
    (planned : context.trace seeding = .ok reading) {source : Source σ} {state after : σ} {trace : Trace}
    {cache : Cache}
    (ran : reading.run (Cache.through source) (Cache.empty, state) = (.ok trace, (cache, after))) :
    context.resolve source seeding state = (context.finish trace.result, after) := by
  rw [resolve_eq_conclude planned, ran]
  rfl

end ResolutionContext

end InputResolution
