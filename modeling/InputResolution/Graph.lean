import InputResolution.Operator

/-!
Operator graphs. A node holds an operation and refers to its inputs by their ids; an id is the position of the node.
A node added to a graph may only refer to nodes before it, so ascending ids are an order of evaluation. A graph that
was read from a record need not be of that kind until it has been validated.
-/

namespace InputResolution

structure Node where
  id : Nat
  op : Operator
  inputs : List Nat
  outputShape : Shape
deriving DecidableEq

structure Graph where
  nodes : List Node
deriving DecidableEq

namespace Graph

def empty : Graph := ⟨[]⟩

def size (g : Graph) : Nat :=
  g.nodes.length

def isEmpty (g : Graph) : Bool :=
  g.nodes.isEmpty

/-- The node at this position, whatever id it carries. -/
def node? (g : Graph) (id : Nat) : Option Node :=
  g.nodes[id]?

def inputShape (g : Graph) (id : Nat) (op : Operator) (input : Nat) : Except ResolveError Shape :=
  if input < id then
    match g.node? input with
    | some node =>
        if op.accepts node.outputShape then .ok node.outputShape
        else .error (.unacceptedInput op.name node.outputShape input)
    | none => .error (.undefinedInput id input)
  else .error (.undefinedInput id input)

def checkNode (g : Graph) (id : Nat) (op : Operator) (inputs : List Nat) : Except ResolveError Shape := do
  op.validate
  if inputs.length ≠ op.arity then
    .error (.wrongArity op.name op.arity inputs.length)
  else
    let shapes ← inputs.mapM (g.inputShape id op)
    .ok (op.outputShape shapes)

def addOp (g : Graph) (op : Operator) (inputs : List Nat) : Except ResolveError (Nat × Graph) := do
  let shape ← g.checkNode g.size op inputs
  .ok (g.size, ⟨g.nodes ++ [⟨g.size, op, inputs, shape⟩]⟩)

def addInput (g : Graph) (query : Query) : Except ResolveError (Nat × Graph) :=
  g.addOp (.input query) []

def validateNode (g : Graph) (position : Nat) (node : Node) : Except ResolveError Unit :=
  if node.id ≠ position then .error (.misplacedNode position node.id)
  else do
    let shape ← g.checkNode node.id node.op node.inputs
    if shape ≠ node.outputShape then
      .error (.wrongOutputShape node.id node.outputShape node.op.name shape)
    else .ok ()

def validateFrom (g : Graph) : Nat → List Node → Except ResolveError Unit
  | _, [] => .ok ()
  | position, node :: rest => do
      g.validateNode position node
      g.validateFrom (position + 1) rest

/-- Checks that every node is at its place, refers only to nodes before it and declares what it produces. -/
def validate (g : Graph) : Except ResolveError Unit :=
  g.validateFrom 0 g.nodes

/-! ## Reachable nodes -/

/-- How many inputs stand in nodes from a position on that have not been seen. -/
def unseenFrom (seen : List Nat) : Nat → List Node → Nat
  | _, [] => 0
  | position, node :: rest =>
      (if seen.contains position then 0 else node.inputs.length) + unseenFrom seen (position + 1) rest

theorem unseenFrom_before (seen : List Nat) (id position : Nat) (before : id < position) (nodes : List Node) :
    unseenFrom (id :: seen) position nodes = unseenFrom seen position nodes := by
  induction nodes generalizing position with
  | nil => rfl
  | cons node rest ih =>
      have different : (position == id) = false := by simpa using (by omega : position ≠ id)
      simp only [unseenFrom, List.contains_cons, different, Bool.false_or]
      rw [ih (position + 1) (by omega)]

theorem unseenFrom_new (seen : List Nat) (id position : Nat) (new : seen.contains id = false) (node : Node)
    (nodes : List Node) (reached : position ≤ id) (found : nodes[id - position]? = some node) :
    unseenFrom (id :: seen) position nodes + node.inputs.length = unseenFrom seen position nodes := by
  induction nodes generalizing position with
  | nil => simp at found
  | cons first rest ih =>
      by_cases here : position = id
      · subst here
        simp only [Nat.sub_self, List.getElem?_cons_zero, Option.some.injEq] at found
        subst found
        simp only [unseenFrom, List.contains_cons, beq_self_eq_true, Bool.true_or, if_true, new,
          Bool.false_eq_true, if_false]
        rw [unseenFrom_before seen position (position + 1) (by omega)]
        omega
      · have different : (position == id) = false := by simpa using here
        have later : id - position = id - (position + 1) + 1 := by omega
        rw [later, List.getElem?_cons_succ] at found
        have := ih (position + 1) (by omega) found
        simp only [unseenFrom, List.contains_cons, different, Bool.false_or]
        omega

theorem unseenFrom_node (g : Graph) (seen : List Nat) (id : Nat) (node : Node) (found : g.node? id = some node)
    (new : seen.contains id = false) :
    unseenFrom (id :: seen) 0 g.nodes + node.inputs.length = unseenFrom seen 0 g.nodes :=
  unseenFrom_new seen id 0 new node g.nodes (Nat.zero_le id) found

/-- Follows inputs from the ids that wait, the first of them next, and collects the ids seen. -/
def collect (g : Graph) (seen : List Nat) : List Nat → Except ResolveError (List Nat)
  | [] => .ok seen
  | id :: waiting =>
      match _found : g.node? id with
      | none => .error (.unknownNode id)
      | some node =>
          if _known : seen.contains id then g.collect seen waiting
          else g.collect (id :: seen) (node.inputs.reverse ++ waiting)
termination_by waiting => unseenFrom seen 0 g.nodes + waiting.length
decreasing_by
  · simp
  · have := g.unseenFrom_node seen id node _found (by simpa using _known)
    simp only [List.length_append, List.length_reverse, List.length_cons]
    omega

/-- The ids that can be reached from the roots by following inputs, in ascending order. -/
def ancestors (g : Graph) (roots : List Nat) : Except ResolveError (List Nat) := do
  let seen ← g.collect [] roots.reverse
  .ok ((List.range g.size).filter fun id => seen.contains id)

end Graph

end InputResolution
