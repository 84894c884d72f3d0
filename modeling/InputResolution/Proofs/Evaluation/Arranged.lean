import InputResolution.Proofs.Evaluation.Trace
import InputResolution.Proofs.Shuffle

/-!
Evaluations whose shuffles arrange their lists in any way. A seeding is one way to do so, and a resolution with it is
the resolution with its arrangement.
-/

namespace InputResolution

structure Arrangement where
  arrange : Node → List Artifact → List Artifact
  perm : ∀ node artifacts, (arrange node artifacts).Perm artifacts

def Arrangement.identity : Arrangement :=
  ⟨fun _ artifacts => artifacts, fun _ artifacts => List.Perm.refl artifacts⟩

/-! ## Seeds -/

def Seeding.arrangement (seeding : Seeding) : Arrangement where
  arrange node artifacts :=
    match node.op with
    | .shuffle own => shuffle (seeding.seedOf node.id own) artifacts
    | _ => artifacts
  perm node artifacts := by
    split
    · exact shuffle_perm _ artifacts
    · exact List.Perm.refl artifacts

/-! ## Evaluation -/

namespace Node

/-- The value of a node whose lists are shuffled by an arrangement. No other operation looks at a seed. -/
def arranged (arrangement : Arrangement) (node : Node) (values : List NodeValue) : Reading (Evaluated NodeValue) :=
  match node.op with
  | .shuffle _ => node.fromList values fun xs => .list (arrangement.arrange node xs)
  | _ => node.value ⟨none, fun _ => 0⟩ values

theorem value_eq_arranged (seeding : Seeding) (node : Node) (values : List NodeValue) :
    node.value seeding values = node.arranged seeding.arrangement values := by
  obtain ⟨id, op, inputs, shape⟩ := node
  cases op <;> rfl

end Node

namespace Graph

def stepArranged (arrangement : Arrangement) (g : Graph) (known : List (Nat × NodeValue)) (id : Nat) :
    Reading (Evaluated NodeValue) :=
  match g.node? id with
  | none => return .error (.error (.unknownNode id))
  | some node => Node.proceed (node.inputValues known) (node.arranged arrangement)

def evaluateArranged (arrangement : Arrangement) (g : Graph) (known : List (Nat × NodeValue)) :
    List Nat → Reading (Evaluated (List (Nat × NodeValue)))
  | [] => return .ok known
  | id :: rest => do
      match ← g.stepArranged arrangement known id with
      | .error halt => return .error halt
      | .ok value => g.evaluateArranged arrangement ((id, value) :: known) rest

theorem step_eq_stepArranged (seeding : Seeding) (g : Graph) (known : List (Nat × NodeValue)) (id : Nat) :
    g.step seeding known id = g.stepArranged seeding.arrangement known id := by
  unfold step stepArranged
  cases g.node? id with
  | none => rfl
  | some node =>
      have values : node.value seeding = node.arranged seeding.arrangement := funext (node.value_eq_arranged seeding)
      exact congrArg (Node.proceed (node.inputValues known)) values

theorem evaluate_eq_evaluateArranged (seeding : Seeding) (g : Graph) (known : List (Nat × NodeValue))
    (order : List Nat) : g.evaluate seeding known order = g.evaluateArranged seeding.arrangement known order := by
  induction order generalizing known with
  | nil => rfl
  | cons id rest ih =>
      rw [evaluate_cons, evaluateArranged, step_eq_stepArranged]
      congr 1
      funext outcome
      cases outcome with
      | error halt => rfl
      | ok value => exact ih ((id, value) :: known)

end Graph

/-! ## Resolution -/

namespace ResolutionContext

variable {σ : Type}

def resolutionArranged (arrangement : Arrangement) (context : ResolutionContext) :
    Except ResolveError (Reading (Except ResolveError Outcome)) := do
  context.validate
  let order ← context.graph.ancestors context.roots
  .ok do
    let values ← context.graph.evaluateArranged arrangement [] order
    return context.finish values

def resolveArranged (source : Source σ) (arrangement : Arrangement) (context : ResolutionContext) (state : σ) :
    Except ResolveError Outcome × σ :=
  match context.resolutionArranged arrangement with
  | .error cause => (.error cause, state)
  | .ok reading =>
      match reading.run (Cache.through source) (Cache.empty, state) with
      | (.ok result, (_, after)) => (result, after)
      | (.error failure, (_, after)) => (.error (.store failure), after)

/-- Whether and in which order nodes are evaluated does not depend on the arrangement. -/
theorem resolutionArranged_cases (context : ResolutionContext) :
    (∃ cause, ∀ arrangement, context.resolutionArranged arrangement = .error cause) ∨
      ∃ order, ∀ arrangement, context.resolutionArranged arrangement = .ok do
        let values ← context.graph.evaluateArranged arrangement [] order
        return context.finish values := by
  unfold resolutionArranged
  cases context.validate with
  | error cause => exact Or.inl ⟨cause, fun _ => rfl⟩
  | ok =>
      cases context.graph.ancestors context.roots with
      | error cause => exact Or.inl ⟨cause, fun _ => rfl⟩
      | ok order => exact Or.inr ⟨order, fun _ => rfl⟩

theorem resolveArranged_eq {context : ResolutionContext} {arrangement : Arrangement}
    {reading : Reading (Except ResolveError Outcome)} (planned : context.resolutionArranged arrangement = .ok reading)
    {source : Source σ} {state after : σ} {result : Except ResolveError Outcome} {cache : Cache}
    (ran : reading.run (Cache.through source) (Cache.empty, state) = (.ok result, (cache, after))) :
    context.resolveArranged source arrangement state = (result, after) := by
  simp only [resolveArranged, planned, ran]

theorem resolve_eq_resolveArranged (source : Source σ) (seeding : Seeding) (context : ResolutionContext) (state : σ) :
    context.resolve source seeding state = context.resolveArranged source seeding.arrangement state := by
  have planned : context.resolution seeding = context.resolutionArranged seeding.arrangement := by
    simp only [resolution, resolutionArranged, Graph.evaluate_eq_evaluateArranged]
  unfold resolve resolveArranged
  generalize context.resolution seeding = plan, context.resolutionArranged seeding.arrangement = other at planned ⊢
  cases planned
  rfl

end ResolutionContext

end InputResolution
