import InputResolution.Graph
import InputResolution.Proofs.Steps

/-!
What it means for a graph to be valid. Every node carries its position as its id, its parameters are in order, it has as
many inputs as its operation takes, each of them comes before it and has a shape that the operation accepts, and the
declared shape is the one that the operation produces from these.
-/

namespace InputResolution

namespace Graph

structure Feeds (g : Graph) (id : Nat) (op : Operator) (input : Nat) (source : Node) : Prop where
  before : input < id
  found : g.node? input = some source
  accepted : op.accepts source.outputShape = true

/-- A node with this id, operation and inputs fits into the graph and produces this shape. -/
structure Fits (g : Graph) (id : Nat) (op : Operator) (inputs : List Nat) (shape : Shape) : Prop where
  parameters : op.validate = .ok ()
  arity : inputs.length = op.arity
  sources : ∃ sources, List.Forall₂ (g.Feeds id op) inputs sources ∧
    op.outputShape (sources.map Node.outputShape) = shape

def Valid (g : Graph) : Prop :=
  ∀ position node, g.node? position = some node →
    node.id = position ∧ g.Fits node.id node.op node.inputs node.outputShape

theorem inputShape_eq_ok {g : Graph} {id input : Nat} {op : Operator} {shape : Shape} :
    g.inputShape id op input = .ok shape ↔ ∃ source, g.Feeds id op input source ∧ source.outputShape = shape := by
  unfold inputShape
  constructor
  · intro checked
    split at checked
    · next before =>
      split at checked
      · next source found =>
        split at checked
        · next accepted => exact ⟨source, ⟨before, found, accepted⟩, Except.ok.inj checked⟩
        · cases checked
      · cases checked
    · cases checked
  · rintro ⟨source, feeds, rfl⟩
    simp only [if_pos feeds.before, feeds.found, if_pos feeds.accepted]

theorem inputShapes_eq_ok {g : Graph} {id : Nat} {op : Operator} {inputs : List Nat} {shapes : List Shape} :
    inputs.mapM (g.inputShape id op) = .ok shapes ↔
      ∃ sources, List.Forall₂ (g.Feeds id op) inputs sources ∧ sources.map Node.outputShape = shapes := by
  rw [Steps.mapM_eq_ok]
  induction inputs generalizing shapes with
  | nil =>
      constructor
      · intro checked
        cases checked
        exact ⟨[], List.Forall₂.nil, rfl⟩
      · rintro ⟨sources, feeds, rfl⟩
        cases feeds
        exact List.Forall₂.nil
  | cons input rest ih =>
      constructor
      · intro checked
        cases checked with
        | cons head tail =>
            obtain ⟨source, feeds, rfl⟩ := inputShape_eq_ok.mp head
            obtain ⟨sources, others, rfl⟩ := ih.mp tail
            exact ⟨source :: sources, List.Forall₂.cons feeds others, rfl⟩
      · rintro ⟨sources, feeds, rfl⟩
        cases feeds with
        | cons head tail =>
            exact List.Forall₂.cons (inputShape_eq_ok.mpr ⟨_, head, rfl⟩) (ih.mpr ⟨_, tail, rfl⟩)

theorem checkNode_eq_ok {g : Graph} {id : Nat} {op : Operator} {inputs : List Nat} {shape : Shape} :
    g.checkNode id op inputs = .ok shape ↔ g.Fits id op inputs shape := by
  unfold checkNode
  rw [Steps.bind_eq_ok]
  constructor
  · rintro ⟨_, parameters, rest⟩
    split at rest
    · cases rest
    · next arity =>
      obtain ⟨shapes, found, same⟩ := Steps.bind_eq_ok.mp rest
      obtain ⟨sources, feeds, rfl⟩ := inputShapes_eq_ok.mp found
      exact ⟨parameters, not_not.mp arity, sources, feeds, Except.ok.inj same⟩
  · intro fits
    obtain ⟨sources, feeds, same⟩ := fits.sources
    refine ⟨(), fits.parameters, ?_⟩
    rw [if_neg (not_not.mpr fits.arity)]
    exact Steps.bind_eq_ok.mpr ⟨_, inputShapes_eq_ok.mpr ⟨sources, feeds, rfl⟩, congrArg Except.ok same⟩

theorem Fits.shape_unique {g : Graph} {id : Nat} {op : Operator} {inputs : List Nat} {shape other : Shape}
    (first : g.Fits id op inputs shape) (second : g.Fits id op inputs other) : shape = other :=
  Except.ok.inj ((checkNode_eq_ok.mpr first).symm.trans (checkNode_eq_ok.mpr second))

theorem validateNode_eq_ok {g : Graph} {position : Nat} {node : Node} :
    g.validateNode position node = .ok () ↔
      node.id = position ∧ g.Fits node.id node.op node.inputs node.outputShape := by
  unfold validateNode
  split
  · next misplaced =>
    constructor
    · intro impossible
      cases impossible
    · rintro ⟨placed, _⟩
      exact absurd placed misplaced
  · next placed =>
    rw [Steps.bind_eq_ok]
    constructor
    · rintro ⟨shape, checked, rest⟩
      split at rest
      · cases rest
      · next same =>
        rw [not_not] at same
        exact ⟨not_not.mp placed, same ▸ checkNode_eq_ok.mp checked⟩
    · rintro ⟨_, fits⟩
      exact ⟨node.outputShape, checkNode_eq_ok.mpr fits, by simp⟩

theorem validateFrom_eq_ok {g : Graph} {position : Nat} {nodes : List Node} :
    g.validateFrom position nodes = .ok () ↔
      ∀ index node, nodes[index]? = some node →
        node.id = position + index ∧ g.Fits node.id node.op node.inputs node.outputShape := by
  induction nodes generalizing position with
  | nil => simp [validateFrom]
  | cons first rest ih =>
      rw [validateFrom, Steps.bind_eq_ok]
      constructor
      · rintro ⟨_, head, tail⟩ index node found
        cases index with
        | zero =>
            rw [List.getElem?_cons_zero, Option.some.injEq] at found
            subst found
            exact validateNode_eq_ok.mp head
        | succ index =>
            rw [List.getElem?_cons_succ] at found
            obtain ⟨placed, fits⟩ := ih.mp tail index node found
            exact ⟨by omega, fits⟩
      · intro all
        refine ⟨(), validateNode_eq_ok.mpr (all 0 first rfl), ih.mpr ?_⟩
        intro index node found
        obtain ⟨placed, fits⟩ := all (index + 1) node (by rwa [List.getElem?_cons_succ])
        exact ⟨by omega, fits⟩

/-- Validation accepts exactly the valid graphs. -/
theorem validate_eq_ok {g : Graph} : g.validate = .ok () ↔ g.Valid := by
  unfold validate
  rw [validateFrom_eq_ok]
  simp only [Nat.zero_add]
  rfl

section Inputs

variable {g : Graph} {id : Nat} {node : Node}

theorem Valid.placed (valid : g.Valid) (found : g.node? id = some node) : node.id = id :=
  (valid id node found).1

theorem Valid.fits (valid : g.Valid) (found : g.node? id = some node) :
    g.Fits id node.op node.inputs node.outputShape := by
  have fits := (valid id node found).2
  rwa [valid.placed found] at fits

theorem Valid.source (valid : g.Valid) (found : g.node? id = some node) {input : Nat} (member : input ∈ node.inputs) :
    ∃ source, g.Feeds id node.op input source := by
  obtain ⟨sources, feeds, _⟩ := (valid.fits found).sources
  obtain ⟨source, _, here⟩ := Steps.exists_of_mem feeds member
  exact ⟨source, here⟩

theorem Valid.input_lt (valid : g.Valid) (found : g.node? id = some node) {input : Nat}
    (member : input ∈ node.inputs) : input < id := by
  obtain ⟨source, feeds⟩ := valid.source found member
  exact feeds.before

end Inputs

end Graph

end InputResolution
