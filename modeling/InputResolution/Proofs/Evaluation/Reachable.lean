import InputResolution.Proofs.Cache.ReadOnce
import InputResolution.Proofs.Evaluation.Shapes

/-!
Nodes that no slot needs. Graphs that agree on every node that the roots reach have the same reachable nodes, and every
step of their evaluation is the same. So the plan of a resolution depends on the needed nodes alone, and no read, no
skip and no error comes from any other node.

A drawn seed is not part of what a context says. Plans are compared where no shuffle draws one.
-/

namespace InputResolution

/-! ## Seeds -/

/-- If the node is a shuffle, its seed need not be drawn. -/
def Node.Seeded (seeding : Seeding) (node : Node) : Prop :=
  ∀ own, node.op = .shuffle own → (own <|> seeding.common).isSome

theorem Seeding.seedOf_eq {seeding other : Seeding} (common : other.common = seeding.common) {own : Option UInt64}
    (given : (own <|> seeding.common).isSome) (node : Nat) : other.seedOf node own = seeding.seedOf node own := by
  obtain ⟨seed, known⟩ := Option.isSome_iff_exists.mp given
  simp only [seedOf, common, known, Option.getD_some]

/-- Seedings with one common seed do the same at a node that has its seed. -/
theorem Node.Seeded.value_eq {seeding other : Seeding} {node : Node} (seeded : node.Seeded seeding)
    (common : other.common = seeding.common) (values : List NodeValue) :
    node.value other values = node.value seeding values := by
  obtain ⟨id, op, inputs, shape⟩ := node
  cases op with
  | shuffle own => simp only [Node.value, Seeding.seedOf_eq common (seeded own rfl)]
  | _ => rfl

/-! ## Graphs -/

namespace Graph

variable {g h : Graph} {roots : List Nat}

/-- The second graph has the same nodes wherever the roots lead in the first one. -/
def AgreesFrom (g h : Graph) (roots : List Nat) : Prop :=
  ∀ id, g.Reaches roots id → h.node? id = g.node? id

theorem AgreesFrom.reaches_iff (agrees : g.AgreesFrom h roots) {id : Nat} :
    h.Reaches roots id ↔ g.Reaches roots id := by
  constructor
  · intro reached
    induction reached with
    | root member => exact .root member
    | input _ found member ih => exact ih.input ((agrees _ ih).symm.trans found) member
  · intro reached
    induction reached with
    | root member => exact .root member
    | input before found member ih => exact ih.input ((agrees _ before).trans found) member

theorem AgreesFrom.order_eq (agrees : g.AgreesFrom h roots) {order other : List Nat}
    (found : g.ancestors roots = .ok order) (otherFound : h.ancestors roots = .ok other) : other = order := by
  obtain ⟨ascending, reached⟩ := ancestors_spec found
  obtain ⟨otherAscending, otherReached⟩ := ancestors_spec otherFound
  refine otherAscending.eq_of_mem_iff ascending fun id => ?_
  rw [otherReached, reached, agrees.reaches_iff]

theorem step_congr {seeding other : Seeding} {id : Nat} (same : h.node? id = g.node? id)
    (seeded : ∀ node, g.node? id = some node → node.Seeded seeding) (common : other.common = seeding.common)
    (known : List (Nat × NodeValue)) : h.step other known id = g.step seeding known id := by
  rw [step, step, same]
  cases found : g.node? id with
  | none => rfl
  | some node =>
      have values : node.value other = node.value seeding := funext ((seeded node found).value_eq common)
      simp only [values]

theorem evaluate_congr {seeding other : Seeding} {order : List Nat}
    (steps : ∀ id ∈ order, ∀ known, h.step other known id = g.step seeding known id)
    (known : List (Nat × NodeValue)) : h.evaluate other known order = g.evaluate seeding known order := by
  induction order generalizing known with
  | nil => rfl
  | cons id rest ih =>
      obtain ⟨here, later⟩ := List.forall_mem_cons.mp steps
      rw [evaluate_cons, evaluate_cons, here]
      congr 1
      funext outcome
      cases outcome with
      | error halt => rfl
      | ok value => exact ih later ((id, value) :: known)

end Graph

/-! ## Resolutions -/

namespace ResolutionContext

variable {a b : ResolutionContext} {seeding other : Seeding} {σ : Type}

def Seeded (seeding : Seeding) (context : ResolutionContext) : Prop :=
  ∀ id node, context.Needs id → context.graph.node? id = some node → node.Seeded seeding

/-- A valid context is resolved by evaluating the nodes that it needs. -/
theorem Valid.resolution_eq {context : ResolutionContext} (valid : context.Valid) {order : List Nat}
    (found : context.graph.ancestors context.roots = .ok order) (seeding : Seeding) :
    context.resolution seeding =
      .ok (context.graph.evaluate seeding [] order >>= fun values => pure (context.finish values)) := by
  simp only [resolution, validate_eq_ok.mpr valid, found]
  rfl

/-- Valid contexts with the same slots and the same needed nodes are resolved by one plan of reads. -/
theorem Valid.resolution_congr (valid : a.Valid) (otherValid : b.Valid) (slots : b.slots = a.slots)
    (agrees : a.graph.AgreesFrom b.graph a.roots) (seeded : a.Seeded seeding)
    (common : other.common = seeding.common) : b.resolution other = a.resolution seeding := by
  have roots : b.roots = a.roots := congrArg (fun m => m.values.map SlotBinding.node) slots
  obtain ⟨order, found, _⟩ := valid.scheduled
  obtain ⟨otherOrder, otherFound, _⟩ := otherValid.scheduled
  rw [valid.resolution_eq found, otherValid.resolution_eq otherFound]
  rw [roots] at otherFound
  cases agrees.order_eq found otherFound
  have needed := (Graph.ancestors_spec found).2
  have evaluated : b.graph.evaluate other [] order = a.graph.evaluate seeding [] order := by
    refine Graph.evaluate_congr (fun id member => ?_) []
    have need := (needed id).mp member
    exact Graph.step_congr (agrees id need) (fun node here => seeded id node need here) common
  have finished : b.finish = a.finish := by
    funext result
    unfold finish
    rw [slots]
  rw [evaluated, finished]

/-- Only needed nodes matter. Two valid contexts with the same slots, whose graphs agree on every node that the slots
need, are resolved by the same reads to the same result, however the rest of their graphs differs. -/
theorem resolve_eq_of_agreesFrom (accepted : a.validate = .ok ()) (otherAccepted : b.validate = .ok ())
    (slots : b.slots = a.slots) (agrees : ∀ id, a.Needs id → b.graph.node? id = a.graph.node? id)
    (seeded : a.Seeded seeding) (common : other.common = seeding.common) (source : Source σ) (state : σ) :
    b.resolve source other state = a.resolve source seeding state ∧
      (b.resolve source.noted other ([], state)).2.1 = (a.resolve source.noted seeding ([], state)).2.1 := by
  have valid := validate_eq_ok.mp accepted
  have plan := valid.resolution_congr (validate_eq_ok.mp otherAccepted) slots agrees seeded common
  constructor <;> simp only [resolve, plan]

def besideModels : ResolutionContext where
  graph := ⟨[⟨0, .input (Query.ofType "Examples"), [], .list⟩, ⟨1, .input (Query.ofType "Model"), [], .list⟩,
    ⟨2, .shuffle (some 5), [0], .list⟩]⟩
  slots := OrderedMap.ofList [("examples", SlotBinding.required 2)]

def besideDraws : ResolutionContext where
  graph := ⟨[⟨0, .input (Query.ofType "Examples"), [], .list⟩, ⟨1, .shuffle none, [0], .list⟩,
    ⟨2, .shuffle (some 5), [0], .list⟩, ⟨3, .latestTrained, [1], .list⟩]⟩
  slots := besideModels.slots

theorem resolve_eq_of_agreesFrom_besideDraws :
    besideModels.validate = .ok () ∧ besideDraws.validate = .ok () ∧ besideDraws.slots = besideModels.slots ∧
      (∀ id, besideModels.Needs id → besideDraws.graph.node? id = besideModels.graph.node? id) ∧
      besideModels.Seeded ⟨none, fun _ => 0⟩ ∧
      besideDraws.resolve Snapshot.threeSpans.source ⟨none, fun _ => 8⟩ 7 =
        besideModels.resolve Snapshot.threeSpans.source ⟨none, fun _ => 0⟩ 7 := by
  have needed : ∀ id, besideModels.Needs id → id = 0 ∨ id = 2 := fun id need => by
    simpa using Graph.Reaches.mem_of_closed [0, 2] (by decide) (by decide) need
  have agrees : ∀ id, besideModels.Needs id → besideDraws.graph.node? id = besideModels.graph.node? id := by
    intro id need
    rcases needed id need with rfl | rfl <;> rfl
  have seeded : besideModels.Seeded ⟨none, fun _ => 0⟩ := by
    rintro id node need found own shuffles
    rcases needed id need with rfl | rfl
    · cases found
      cases shuffles
    · cases found
      cases shuffles
      rfl
  have accepted : besideModels.validate = .ok () := rfl
  have otherAccepted : besideDraws.validate = .ok () := rfl
  have common : (⟨none, fun _ => 8⟩ : Seeding).common = (⟨none, fun _ => 0⟩ : Seeding).common := rfl
  exact ⟨accepted, otherAccepted, rfl, agrees, seeded,
    (resolve_eq_of_agreesFrom accepted otherAccepted rfl agrees seeded common _ 7).1⟩

end ResolutionContext

end InputResolution
