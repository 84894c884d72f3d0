import InputResolution.Proofs.Graph.Reachability
import Mathlib.Tactic

/-!
The search for ancestors on any graph at all, whether it has been validated or not. An id may wait many times, but its
inputs begin to wait only when it is seen first. So no search looks at more ids than there are roots and inputs of
nodes, and this holds in the presence of cycles, repetitions and misplaced nodes. A search fails exactly if it reaches
an id that no node has.
-/

namespace InputResolution.Graph

variable {g : Graph} {roots : List Nat}

/-! ## Turns -/

/-- The search that takes at most so many ids from those that wait; `none` if some are left. -/
def collectWithin (g : Graph) : Nat → List Nat → List Nat → Option (Except ResolveError (List Nat))
  | _, seen, [] => some (.ok seen)
  | 0, _, _ :: _ => none
  | turns + 1, seen, id :: waiting =>
      match g.node? id with
      | none => some (.error (.unknownNode id))
      | some node =>
          if seen.contains id then g.collectWithin turns seen waiting
          else g.collectWithin turns (id :: seen) (node.inputs.reverse ++ waiting)

def ancestorsWithin (g : Graph) (turns : Nat) (roots : List Nat) : Option (Except ResolveError (List Nat)) :=
  (g.collectWithin turns [] roots.reverse).map fun found =>
    found.map fun seen => (List.range g.size).filter fun id => seen.contains id

/-- The number of inputs of all nodes, each counted as often as it is given. -/
def inputCount (g : Graph) : Nat :=
  (g.nodes.map fun node => node.inputs.length).sum

theorem unseenFrom_nil (position : Nat) (nodes : List Node) :
    unseenFrom [] position nodes = (nodes.map fun node => node.inputs.length).sum := by
  induction nodes generalizing position with
  | nil => rfl
  | cons node rest ih => exact congrArg (node.inputs.length + ·) (ih (position + 1))

/-- Every turn takes from what waits and from the inputs of nodes that have not been seen. -/
theorem collectWithin_eq (turns : Nat) (seen waiting : List Nat)
    (enough : unseenFrom seen 0 g.nodes + waiting.length ≤ turns) :
    g.collectWithin turns seen waiting = some (g.collect seen waiting) := by
  induction turns generalizing seen waiting with
  | zero =>
      obtain rfl : waiting = [] := List.length_eq_zero_iff.mp (by omega)
      rw [collectWithin, collect]
  | succ turns ih =>
      cases waiting with
      | nil => rw [collectWithin, collect]
      | cons id waiting =>
          rw [List.length_cons] at enough
          rw [collectWithin]
          cases found : g.node? id with
          | none => rw [collect_missing found]
          | some node =>
              by_cases known : seen.contains id = true
              · rw [collect_known found known]
                exact (if_pos known).trans (ih seen waiting (by omega))
              · have released := g.unseenFrom_node seen id node found (Bool.not_eq_true _ ▸ known)
                rw [collect_new found known]
                refine (if_neg known).trans (ih (id :: seen) _ ?_)
                rw [List.length_append, List.length_reverse]
                omega

theorem ancestorsWithin_eq (g : Graph) (roots : List Nat) :
    g.ancestorsWithin (roots.length + g.inputCount) roots = some (g.ancestors roots) := by
  have enough : unseenFrom [] 0 g.nodes + roots.reverse.length ≤ roots.length + g.inputCount := by
    rw [unseenFrom_nil, List.length_reverse, inputCount]
    omega
  rw [ancestorsWithin, collectWithin_eq _ [] roots.reverse enough, ancestors]
  cases g.collect [] roots.reverse <;> rfl

/-! ## Dangling ids -/

theorem node?_eq_none_iff {id : Nat} : g.node? id = none ↔ g.size ≤ id :=
  List.getElem?_eq_none_iff

theorem ancestors_eq_error {cause : ResolveError} (failed : g.ancestors roots = .error cause) :
    ∃ id, g.Reaches roots id ∧ g.size ≤ id ∧ cause = .unknownNode id := by
  unfold ancestors at failed
  cases collected : g.collect [] roots.reverse with
  | ok seen =>
      rw [collected] at failed
      cases failed
  | error other =>
      rw [collected] at failed
      cases failed
      obtain ⟨id, reached, missing, named⟩ := collect_eq_error [] roots.reverse collected
      exact ⟨id, reaches_reverse.mp reached, node?_eq_none_iff.mp missing, named⟩

theorem lt_size_of_ancestors {order : List Nat} (found : g.ancestors roots = .ok order) {id : Nat} (member : id ∈ order) :
    id < g.size := by
  obtain ⟨seen, collected, same⟩ := Steps.bind_eq_ok.mp found
  cases Except.ok.inj same
  exact List.mem_range.mp (List.mem_filter.mp member).1

theorem not_ancestors_of_dangling {id : Nat} (reached : g.Reaches roots id) (dangles : g.size ≤ id) (order : List Nat) :
    g.ancestors roots ≠ .ok order := by
  intro found
  have inside := lt_size_of_ancestors found (((ancestors_spec found).2 id).mpr reached)
  omega

/-- On every graph and for all roots the search ends, after no more turns than there are roots and inputs. It ends with
an error of an invalid graph exactly if an id is reached that no node has, and the error names such an id. Otherwise it
finds the ids that are reached, each once and in ascending order. -/
theorem ancestors_law (g : Graph) (roots : List Nat) :
    g.ancestorsWithin (roots.length + g.inputCount) roots = some (g.ancestors roots) ∧
      ((∃ cause, g.ancestors roots = .error cause ∧ cause.kind = .invalidGraph) ↔
        ∃ id, g.Reaches roots id ∧ g.size ≤ id) ∧
      (∀ cause, g.ancestors roots = .error cause →
        ∃ id, g.Reaches roots id ∧ g.size ≤ id ∧ cause = .unknownNode id) ∧
      ((∀ id, g.Reaches roots id → id < g.size) →
        ∃ order, g.ancestors roots = .ok order ∧ order.Pairwise (· < ·) ∧ ∀ id, id ∈ order ↔ g.Reaches roots id) := by
  refine ⟨ancestorsWithin_eq g roots, ⟨?_, ?_⟩, fun cause => ancestors_eq_error, ?_⟩
  · intro failed
    obtain ⟨cause, failed, _⟩ := failed
    obtain ⟨id, reached, dangles, _⟩ := ancestors_eq_error failed
    exact ⟨id, reached, dangles⟩
  · intro dangling
    obtain ⟨id, reached, dangles⟩ := dangling
    cases result : g.ancestors roots with
    | ok order => exact absurd result (not_ancestors_of_dangling reached dangles order)
    | error cause =>
        obtain ⟨other, _, _, rfl⟩ := ancestors_eq_error result
        exact ⟨_, rfl, rfl⟩
  · intro inside
    cases result : g.ancestors roots with
    | ok order => exact ⟨order, rfl, ancestors_spec result⟩
    | error cause =>
        obtain ⟨id, reached, dangles, _⟩ := ancestors_eq_error result
        have below := inside id reached
        omega

def tangled : Graph :=
  ⟨[⟨5, .allSpans, [1, 0, 1], .list⟩, ⟨1, .latestTrained, [0], .list⟩, ⟨2, .allSpans, [1, 9], .list⟩]⟩

theorem ancestors_law_tangled :
    (∀ id, tangled.Reaches [1, 1] id → id < tangled.size) ∧
      (∃ order, tangled.ancestors [1, 1] = .ok order ∧ order.Pairwise (· < ·) ∧
        ∀ id, id ∈ order ↔ tangled.Reaches [1, 1] id) ∧
      tangled.ancestors [1, 1] = .ok [0, 1] ∧
      tangled.ancestorsWithin 8 [1, 1] = some (.ok [0, 1]) ∧
      tangled.ancestors [1, 2] = .error (.unknownNode 9) ∧
      ∃ id, tangled.Reaches [1, 2] id ∧ tangled.size ≤ id := by
  have within : ∀ id, tangled.Reaches [1, 1] id → id < tangled.size := by
    intro id reached
    have member := reached.mem_of_closed [0, 1] (by decide) (by decide)
    have below : ∀ other ∈ [0, 1], other < tangled.size := by decide
    exact below id member
  have found : tangled.ancestors [1, 1] = .ok [0, 1] := by cbv
  have failed : tangled.ancestors [1, 2] = .error (.unknownNode 9) := by cbv
  have ends := (ancestors_law tangled [1, 1]).1
  rw [found] at ends
  exact ⟨within, (ancestors_law tangled [1, 1]).2.2.2 within, found, ends, failed,
    (ancestors_law tangled [1, 2]).2.1.mp ⟨_, failed, rfl⟩⟩

end InputResolution.Graph
