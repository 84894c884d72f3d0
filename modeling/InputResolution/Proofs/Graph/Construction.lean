import InputResolution.Proofs.Graph.Validity
import Mathlib.Data.List.Induction

/-!
How valid graphs come about. Whether a node fits is settled by the nodes before it, so a graph is valid exactly if its
last node fits and the graph without it is valid. Hence the valid graphs are those that successive additions make out of
the empty graph.
-/

namespace InputResolution.Graph

variable {g next : Graph} {nodes later : List Node} {id : Nat} {op : Operator} {inputs : List Nat} {shape : Shape}

/-! ## The last node -/

theorem node?_append (bound : id < nodes.length) : (Graph.mk (nodes ++ later)).node? id = (Graph.mk nodes).node? id :=
  List.getElem?_append_left bound

theorem feeds_append {input : Nat} {source : Node} (bound : id ≤ nodes.length) :
    (Graph.mk (nodes ++ later)).Feeds id op input source ↔ (Graph.mk nodes).Feeds id op input source := by
  constructor
  · intro feeds
    have same : (Graph.mk (nodes ++ later)).node? input = (Graph.mk nodes).node? input :=
      node?_append (Nat.lt_of_lt_of_le feeds.before bound)
    exact ⟨feeds.before, same ▸ feeds.found, feeds.accepted⟩
  · intro feeds
    have same : (Graph.mk (nodes ++ later)).node? input = (Graph.mk nodes).node? input :=
      node?_append (Nat.lt_of_lt_of_le feeds.before bound)
    exact ⟨feeds.before, same.trans feeds.found, feeds.accepted⟩

/-- Whether a node fits depends on the nodes before it alone. -/
theorem fits_append (bound : id ≤ nodes.length) :
    (Graph.mk (nodes ++ later)).Fits id op inputs shape ↔ (Graph.mk nodes).Fits id op inputs shape := by
  have same : (Graph.mk (nodes ++ later)).Feeds id op = (Graph.mk nodes).Feeds id op := by
    funext input source
    exact propext (feeds_append bound)
  constructor
  · rintro ⟨parameters, arity, sources⟩
    exact ⟨parameters, arity, same ▸ sources⟩
  · rintro ⟨parameters, arity, sources⟩
    exact ⟨parameters, arity, same.symm ▸ sources⟩

/-- A graph is valid if its last node is in place and fits, and the graph without it is valid. -/
theorem valid_concat {node : Node} :
    (Graph.mk (nodes ++ [node])).Valid ↔ (Graph.mk nodes).Valid ∧ node.id = nodes.length ∧
      (Graph.mk nodes).Fits nodes.length node.op node.inputs node.outputShape := by
  constructor
  · intro valid
    refine ⟨?_, ?_⟩
    · intro position held found
      have bound : position < nodes.length := (List.getElem?_eq_some_iff.mp found).1
      obtain ⟨placed, fits⟩ := valid position held ((node?_append bound).trans found)
      exact ⟨placed, (fits_append (by omega)).mp fits⟩
    · obtain ⟨placed, fits⟩ := valid nodes.length node List.getElem?_concat_length
      rw [placed] at fits
      exact ⟨placed, (fits_append (Nat.le_refl _)).mp fits⟩
  · rintro ⟨valid, placed, fits⟩ position held found
    have bound : position < (nodes ++ [node]).length := (List.getElem?_eq_some_iff.mp found).1
    rw [List.length_append, List.length_singleton] at bound
    by_cases last : position = nodes.length
    · subst last
      have same : node = held := Option.some.inj (List.getElem?_concat_length.symm.trans found)
      subst same
      rw [placed]
      exact ⟨rfl, (fits_append (Nat.le_refl _)).mpr fits⟩
    · have earlier : position < nodes.length := by omega
      obtain ⟨heldPlaced, heldFits⟩ := valid position held ((node?_append earlier).symm.trans found)
      exact ⟨heldPlaced, (fits_append (by omega)).mpr heldFits⟩

/-! ## Additions -/

theorem addOp_eq_ok :
    g.addOp op inputs = .ok (id, next) ↔
      id = g.size ∧ ∃ shape, g.Fits g.size op inputs shape ∧
        next = ⟨g.nodes ++ [⟨g.size, op, inputs, shape⟩]⟩ := by
  unfold addOp
  rw [Steps.bind_eq_ok]
  constructor
  · rintro ⟨shape, checked, same⟩
    cases same
    exact ⟨rfl, shape, checkNode_eq_ok.mp checked, rfl⟩
  · rintro ⟨rfl, shape, fits, rfl⟩
    exact ⟨shape, checkNode_eq_ok.mpr fits, rfl⟩

def addAll (g : Graph) (calls : List (Operator × List Nat)) : Except ResolveError Graph :=
  calls.foldlM (fun g call => return (← g.addOp call.1 call.2).2) g

theorem addAll_cons_eq_ok {call : Operator × List Nat} {calls : List (Operator × List Nat)} :
    g.addAll (call :: calls) = .ok next ↔
      ∃ id between, g.addOp call.1 call.2 = .ok (id, between) ∧ between.addAll calls = .ok next := by
  unfold addAll
  rw [List.foldlM_cons, Steps.bind_eq_ok]
  constructor
  · rintro ⟨between, first, rest⟩
    obtain ⟨⟨id, _⟩, added, same⟩ := Steps.bind_eq_ok.mp first
    cases same
    exact ⟨id, _, added, rest⟩
  · rintro ⟨id, between, added, rest⟩
    exact ⟨between, Steps.bind_eq_ok.mpr ⟨(id, between), added, rfl⟩, rest⟩

theorem addAll_append_eq_ok {first second : List (Operator × List Nat)} :
    g.addAll (first ++ second) = .ok next ↔
      ∃ between, g.addAll first = .ok between ∧ between.addAll second = .ok next := by
  unfold addAll
  rw [List.foldlM_append, Steps.bind_eq_ok]

theorem valid_empty : empty.Valid :=
  fun _ _ impossible => nomatch impossible

/-- One addition keeps a graph valid. -/
theorem Valid.addOp (valid : g.Valid) (added : g.addOp op inputs = .ok (id, next)) : next.Valid := by
  obtain ⟨_, shape, fits, rfl⟩ := addOp_eq_ok.mp added
  exact valid_concat.mpr ⟨valid, rfl, fits⟩

theorem Valid.addAll {calls : List (Operator × List Nat)} (valid : g.Valid) (added : g.addAll calls = .ok next) :
    next.Valid := by
  induction calls generalizing g with
  | nil =>
      cases added
      exact valid
  | cons call rest ih =>
      obtain ⟨id, between, first, others⟩ := addAll_cons_eq_ok.mp added
      exact ih (valid.addOp first) others

def addition (node : Node) : Operator × List Nat :=
  (node.op, node.inputs)

/-- The nodes of a valid graph, added in their order, make the graph. -/
theorem Valid.addAll_nodes (valid : g.Valid) : empty.addAll (g.nodes.map addition) = .ok g := by
  obtain ⟨nodes⟩ := g
  induction nodes using List.reverseRecOn with
  | nil => rfl
  | append_singleton before node ih =>
      obtain ⟨validBefore, placed, fits⟩ := valid_concat.mp valid
      obtain ⟨position, op, inputs, shape⟩ := node
      cases placed
      rw [List.map_append, addAll_append_eq_ok]
      refine ⟨⟨before⟩, ih validBefore, addAll_cons_eq_ok.mpr ⟨before.length, _, ?_, rfl⟩⟩
      exact addOp_eq_ok.mpr ⟨rfl, shape, fits, rfl⟩

/-! ## Calls that may fail -/

inductive Addition where
  | op (op : Operator) (inputs : List Nat)
  | input (query : Query)

def Addition.perform (g : Graph) : Addition → Except ResolveError (Nat × Graph)
  | .op operator inputs => g.addOp operator inputs
  | .input query => g.addInput query

/-- The graph after a call; one that fails leaves it as it was. -/
def afterCall (g : Graph) (call : Addition) : Graph :=
  match call.perform g with
  | .ok (_, next) => next
  | .error _ => g

theorem Valid.afterCall (valid : g.Valid) (call : Addition) : (g.afterCall call).Valid := by
  unfold Graph.afterCall
  split
  · next id next performed =>
    cases call with
    | op operator inputs => exact valid.addOp performed
    | input query => exact valid.addOp performed
  · exact valid

theorem Valid.foldl_afterCall (valid : g.Valid) (calls : List Addition) : (calls.foldl Graph.afterCall g).Valid := by
  induction calls generalizing g with
  | nil => exact valid
  | cons call rest ih => exact ih (valid.afterCall call)

/-- Validation accepts a graph exactly if some additions to the empty graph, all of them successful, make it. So it
accepts every graph that calls have made, however many of them have failed. -/
theorem validate_eq_ok_iff_addAll :
    (∀ g : Graph, g.validate = .ok () ↔ ∃ calls, empty.addAll calls = .ok g) ∧
      ∀ calls : List Addition, (calls.foldl afterCall empty).validate = .ok () := by
  refine ⟨fun g => ?_, fun calls => validate_eq_ok.mpr (valid_empty.foldl_afterCall calls)⟩
  constructor
  · intro accepted
    exact ⟨g.nodes.map addition, (validate_eq_ok.mp accepted).addAll_nodes⟩
  · rintro ⟨calls, added⟩
    exact validate_eq_ok.mpr (valid_empty.addAll added)

/-- A node that refers to itself is not among those that can be added. -/
example : (Graph.mk [⟨0, .allSpans, [0], .list⟩]).validate = .error (.undefinedInput 0 0) := by decide

end InputResolution.Graph
