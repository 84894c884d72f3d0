import InputResolution.Proofs.Evaluation.Guarded
import InputResolution.Proofs.Evaluation.Reachable
import InputResolution.Proofs.Evaluation.UnknownKeys
import InputResolution.Proofs.Shuffle

/-!
Seeds of shuffles. A common seed stands in for the seeds that shuffles do not have: to resolve with it is to write it
into these shuffles and then to resolve with any seed at all. A shuffle arranges the positions of its list by its seed
alone, so it does not matter to it which other shuffles there are.
-/

namespace InputResolution

/-! ## Writing a seed into shuffles -/

section Operator

variable (seed : UInt64) (op : Operator)

def Operator.withSeed (seed : UInt64) : Operator → Operator
  | .shuffle own => .shuffle (some (own.getD seed))
  | op => op

namespace Operator

@[simp]
theorem name_withSeed : (op.withSeed seed).name = op.name := by
  cases op <;> rfl

@[simp]
theorem validate_withSeed : (op.withSeed seed).validate = op.validate := by
  cases op <;> rfl

@[simp]
theorem arity_withSeed : (op.withSeed seed).arity = op.arity := by
  cases op <;> rfl

@[simp]
theorem accepts_withSeed : (op.withSeed seed).accepts = op.accepts := by
  funext shape
  cases op <;> rfl

@[simp]
theorem outputShape_withSeed : (op.withSeed seed).outputShape = op.outputShape := by
  funext shapes
  cases op <;> rfl

end Operator

end Operator

def Node.withSeed (seed : UInt64) (node : Node) : Node :=
  { node with op := node.op.withSeed seed }

/-- What a node does with a common seed is what it does with that seed written into it, whatever the seeding is then. -/
theorem Node.value_withSeed (seed : UInt64) (drawn : Nat → UInt64) (other : Seeding) (node : Node)
    (values : List NodeValue) : (node.withSeed seed).value other values = node.value ⟨some seed, drawn⟩ values := by
  obtain ⟨id, op, inputs, shape⟩ := node
  cases op with
  | shuffle own => cases own <;> rfl
  | _ => rfl

namespace Graph

def withSeed (seed : UInt64) (g : Graph) : Graph :=
  ⟨g.nodes.map (Node.withSeed seed)⟩

variable (seed : UInt64) (g : Graph)

@[simp]
theorem node?_withSeed (id : Nat) : (g.withSeed seed).node? id = (g.node? id).map (Node.withSeed seed) :=
  List.getElem?_map

theorem inputShape_withSeed (id : Nat) (op : Operator) (input : Nat) :
    (g.withSeed seed).inputShape id (op.withSeed seed) input = g.inputShape id op input := by
  unfold inputShape
  rw [node?_withSeed, Operator.name_withSeed, Operator.accepts_withSeed]
  cases g.node? input <;> rfl

theorem validateNode_withSeed (position : Nat) (node : Node) :
    (g.withSeed seed).validateNode position (node.withSeed seed) = g.validateNode position node := by
  have inputs : (g.withSeed seed).inputShape node.id (node.op.withSeed seed) = g.inputShape node.id node.op :=
    funext (g.inputShape_withSeed seed node.id node.op)
  simp only [validateNode, checkNode, Node.withSeed, inputs, Operator.name_withSeed, Operator.validate_withSeed,
    Operator.arity_withSeed, Operator.outputShape_withSeed]

theorem validateFrom_withSeed (position : Nat) (nodes : List Node) :
    (g.withSeed seed).validateFrom position (nodes.map (Node.withSeed seed)) = g.validateFrom position nodes := by
  induction nodes generalizing position with
  | nil => rfl
  | cons node rest ih => rw [List.map_cons, validateFrom, validateFrom, validateNode_withSeed, ih]

theorem validate_withSeed : (g.withSeed seed).validate = g.validate :=
  g.validateFrom_withSeed seed 0 g.nodes

theorem collect_withSeed (seen waiting : List Nat) : (g.withSeed seed).collect seen waiting = g.collect seen waiting := by
  induction seen, waiting using collect.induct g with
  | case1 seen => rw [collect, collect]
  | case2 seen id waiting missing =>
      rw [collect_missing missing, collect_missing (by rw [node?_withSeed, missing]; rfl)]
  | case3 seen id waiting node present known ih =>
      have there : (g.withSeed seed).node? id = some (node.withSeed seed) := by rw [node?_withSeed, present]; rfl
      rw [collect_known present known, collect_known there known, ih]
  | case4 seen id waiting node present unknown ih =>
      have there : (g.withSeed seed).node? id = some (node.withSeed seed) := by rw [node?_withSeed, present]; rfl
      rw [collect_new present unknown, collect_new there unknown, ← ih]
      rfl

theorem ancestors_withSeed (roots : List Nat) : (g.withSeed seed).ancestors roots = g.ancestors roots := by
  have size : (g.withSeed seed).size = g.size := List.length_map _
  rw [ancestors, ancestors, collect_withSeed, size]

theorem step_withSeed (drawn : Nat → UInt64) (other : Seeding) (known : List (Nat × NodeValue)) (id : Nat) :
    (g.withSeed seed).step other known id = g.step ⟨some seed, drawn⟩ known id := by
  unfold step
  rw [node?_withSeed]
  cases g.node? id with
  | none => rfl
  | some node => exact congrArg (Node.proceed (node.inputValues known)) (funext (node.value_withSeed seed drawn other))

end Graph

namespace ResolutionContext

def withSeed (seed : UInt64) (context : ResolutionContext) : ResolutionContext :=
  { context with graph := context.graph.withSeed seed }

variable (seed : UInt64) (context : ResolutionContext)

theorem checkBinding_withSeed (slot : String) (binding : SlotBinding) :
    (context.withSeed seed).checkBinding slot binding = context.checkBinding slot binding := by
  unfold checkBinding withSeed
  rw [Graph.node?_withSeed]
  cases context.graph.node? binding.node <;> rfl

theorem validate_withSeed : (context.withSeed seed).validate = context.validate := by
  simp only [validate, checkBinding_withSeed]
  simp only [withSeed, Graph.validate_withSeed]

theorem resolution_withSeed (drawn : Nat → UInt64) (other : Seeding) :
    (context.withSeed seed).resolution other = context.resolution ⟨some seed, drawn⟩ := by
  have steps (order : List Nat) :
      (context.graph.withSeed seed).evaluate other [] order = context.graph.evaluate ⟨some seed, drawn⟩ [] order :=
    Graph.evaluate_congr (fun id _ known => context.graph.step_withSeed seed drawn other known id) []
  unfold resolution
  rw [validate_withSeed]
  simp only [withSeed, Graph.ancestors_withSeed, steps]
  rfl

variable {seed context}

def CarriesSeeds (context : ResolutionContext) : Prop :=
  ∀ id node own, context.Needs id → context.graph.node? id = some node → node.op = .shuffle own → own.isSome

theorem CarriesSeeds.seeded (carries : context.CarriesSeeds) (seeding : Seeding) : context.Seeded seeding := by
  intro id node needed found own shuffles
  obtain ⟨given, rfl⟩ := Option.isSome_iff_exists.mp (carries id node own needed found shuffles)
  rfl

/-- Where every shuffle has its seed there is none to be written. -/
theorem CarriesSeeds.agreesFrom_withSeed (carries : context.CarriesSeeds) (seed : UInt64) :
    context.graph.AgreesFrom (context.graph.withSeed seed) context.roots := by
  intro id needed
  rw [Graph.node?_withSeed]
  cases found : context.graph.node? id with
  | none => rfl
  | some node =>
      obtain ⟨place, op, inputs, shape⟩ := node
      cases op with
      | shuffle own =>
          obtain ⟨given, rfl⟩ := Option.isSome_iff_exists.mp (carries id _ own needed found rfl)
          rfl
      | _ => rfl

/-- If every shuffle has its seed, the plan of reads is the one that any common seed gives. -/
theorem CarriesSeeds.resolution_eq (carries : context.CarriesSeeds) (valid : context.Valid) (seeding : Seeding)
    (seed : UInt64) (drawn : Nat → UInt64) :
    context.resolution seeding = context.resolution ⟨some seed, drawn⟩ := by
  have otherValid : (context.withSeed seed).Valid :=
    validate_eq_ok.mp ((context.validate_withSeed seed).trans (validate_eq_ok.mpr valid))
  have written : (context.withSeed seed).resolution seeding = context.resolution seeding :=
    valid.resolution_congr otherValid rfl (carries.agreesFrom_withSeed seed) (carries.seeded seeding) rfl
  rw [← written, resolution_withSeed]

end ResolutionContext

/-! ## Permutations -/

/-- Every shuffle takes the list of its input in the order of the positions that its seed stands for. -/
def Trace.Shuffles (g : Graph) (seeding : Seeding) (trace : Trace) : Prop :=
  ∀ id node own value, g.node? id = some node → node.op = .shuffle own → trace.values.lookup id = some value →
    ∃ input taken shuffled, node.inputs = [input] ∧ trace.values.lookup input = some (.list taken) ∧
      value = .list shuffled ∧ Arranges (Shuffle.positions (seeding.seedOf id own) taken.length) taken shuffled

theorem Graph.Grounded.shuffles {g : Graph} {seeding : Seeding} {trace : Trace}
    (grounded : g.Grounded seeding trace.values) (valid : g.Valid) : trace.Shuffles g seeding := by
  intro id node own value found shuffles held
  have placed := valid.placed found
  have arity := (valid.fits found).arity
  rw [shuffles] at arity
  obtain ⟨input, only⟩ := List.length_eq_one_iff.mp arity
  obtain ⟨source, looked, gives⟩ := (grounded.made id value held).of_single found only
  have made : Except.ok value = (node.listInput [source] 0).map
      fun taken => .list (shuffle (seeding.seedOf node.id own) taken) := by
    rw [Node.value, shuffles] at gives
    exact gives.eq_of_done
  cases source with
  | list taken =>
      cases made
      rw [placed]
      exact ⟨input, taken, _, only, looked, rfl, arranges_shuffle _ taken⟩
  | listOfLists lists => cases made
  | dict entries => cases made

namespace ResolutionContext

variable {context : ResolutionContext} {σ : Type}

/-- A valid context is resolved with a common seed as it is, with that seed written into all shuffles that have none,
under any seeding. So if all needed shuffles have seeds, the seeding does not matter. Every shuffle arranges its list by
positions that its seed and the length settle: the seed of its own if it has one, else the common one, and no other
shuffle takes part in that. -/
theorem resolve_withSeed (accepted : context.validate = .ok ()) (source : Source σ) (state : σ) :
    (∀ seed drawn other,
      (context.withSeed seed).resolve source other state = context.resolve source ⟨some seed, drawn⟩ state) ∧
    (context.CarriesSeeds → ∀ seeding other,
      context.resolve source other state = context.resolve source seeding state) ∧
    ∀ seeding trace, context.Traces source seeding state trace → trace.Shuffles context.graph seeding := by
  have valid := validate_eq_ok.mp accepted
  refine ⟨?_, ?_, ?_⟩
  · intro seed drawn other
    rw [resolve, resolve, resolution_withSeed]
  · intro carries seeding other
    have plan : context.resolution other = context.resolution seeding :=
      (carries.resolution_eq valid other 0 fun _ => 0).trans (carries.resolution_eq valid seeding 0 fun _ => 0).symm
    rw [resolve, resolve, plan]
  · intro seeding trace traces
    obtain ⟨_, _, grounded, _⟩ := valid.of_traces traces
    exact grounded.shuffles valid.graph

def twoShuffles : ResolutionContext where
  graph := ⟨[⟨0, .input (Query.ofType "Examples"), [], .list⟩, ⟨1, .shuffle none, [0], .list⟩,
    ⟨2, .shuffle (some 5), [1], .list⟩]⟩
  slots := OrderedMap.ofList [("examples", SlotBinding.required 2)]

theorem resolve_withSeed_twoShuffles :
    twoShuffles.validate = .ok () ∧
      (twoShuffles.withSeed 8).resolve Snapshot.threeSpans.source ⟨some 3, fun _ => 0⟩ 7 =
        twoShuffles.resolve Snapshot.threeSpans.source ⟨some 8, fun _ => 0⟩ 7 ∧
      (twoShuffles.withSeed 8).CarriesSeeds ∧
      (twoShuffles.withSeed 8).resolve Snapshot.threeSpans.source ⟨none, fun _ => 1⟩ 7 =
        (twoShuffles.withSeed 8).resolve Snapshot.threeSpans.source ⟨some 3, fun _ => 0⟩ 7 ∧
      ∃ trace taken shuffled, twoShuffles.Traces Snapshot.threeSpans.source ⟨some 3, fun _ => 0⟩ 7 trace ∧
        trace.values.lookup 1 = some (.list taken) ∧ trace.values.lookup 2 = some (.list shuffled) ∧
        Arranges (Shuffle.positions 5 taken.length) taken shuffled := by
  have accepted : twoShuffles.validate = .ok () := by rfl
  have written : (twoShuffles.withSeed 8).validate = .ok () := by rfl
  have carries : (twoShuffles.withSeed 8).CarriesSeeds := by
    intro id node own _ found shuffles
    have bound : id < 3 := (List.getElem?_eq_some_iff.mp found).1
    interval_cases id <;> cases found <;> cases shuffles <;> rfl
  have order : twoShuffles.graph.ancestors twoShuffles.roots = .ok [0, 1, 2] := by decide +kernel
  have traces : twoShuffles.Traces Snapshot.threeSpans.source ⟨some 3, fun _ => 0⟩ 7 _ := ⟨_, _, _, order, rfl⟩
  obtain ⟨substitutes, _, shuffles⟩ := resolve_withSeed accepted Snapshot.threeSpans.source 7
  obtain ⟨input, taken, shuffled, only, looked, same, arranges⟩ := shuffles _ _ traces 2 _ _ _ rfl rfl rfl
  cases only
  exact ⟨accepted, substitutes 8 (fun _ => 0) ⟨some 3, fun _ => 0⟩, carries,
    (resolve_withSeed written Snapshot.threeSpans.source 7).2.1 carries _ _, _, taken, shuffled, traces, looked,
    congrArg some same, arranges⟩

end ResolutionContext

end InputResolution
