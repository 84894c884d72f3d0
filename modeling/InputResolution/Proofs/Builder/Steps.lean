import InputResolution.Builder
import InputResolution.Proofs.Graph.Construction
import InputResolution.Proofs.OrderedMap
import InputResolution.Proofs.ResolutionContext

/-!
What the steps of a builder do. A step that succeeds is described by the builder that it leaves; no step ever takes a
node or a slot away, whether it succeeds or fails.
-/

namespace InputResolution.Builder

variable {α β : Type} {b after : Builder}

/-- What a call gives, and the builder that it leaves. -/
def does (call : Building α) (b : Builder) : Except ResolveError α × Builder :=
  StateT.run (ExceptT.run call) b

theorem does_pure (a : α) (b : Builder) : does (pure a) b = (.ok a, b) := rfl

theorem does_throw (cause : ResolveError) (b : Builder) : does (throw cause : Building α) b = (.error cause, b) := rfl

theorem does_get (b : Builder) : does get b = (.ok b, b) := rfl

theorem does_bind (first : Building α) (next : α → Building β) (b : Builder) :
    does (first >>= next) b =
      match does first b with
      | (.ok a, after) => does (next a) after
      | (.error cause, after) => (.error cause, after) := by
  unfold does
  simp only [ExceptT.run_bind, StateT.run_bind]
  rcases StateT.run (ExceptT.run first) b with ⟨a | cause, after⟩ <;> rfl

/-- A chain succeeds if both parts do, the second on the builder that the first leaves. -/
theorem does_bind_eq_ok {first : Building α} {next : α → Building β} {result : β} :
    does (first >>= next) b = (.ok result, after) ↔
      ∃ a between, does first b = (.ok a, between) ∧ does (next a) between = (.ok result, after) := by
  rw [does_bind]
  rcases does first b with ⟨cause | a, between⟩
  · simp
  · constructor
    · intro succeeded
      exact ⟨a, between, rfl, succeeded⟩
    · rintro ⟨_, _, same, succeeded⟩
      cases same
      exact succeeded

/-! ## Steps that succeed -/

theorem checkOwned_eq_ok {channel : Channel} :
    does (checkOwned channel) b = (.ok (), after) ↔ b.owns channel = true ∧ after = b := by
  unfold checkOwned
  rw [does_bind, does_get]
  dsimp only
  split
  · next owned => simp [does_pure, owned, eq_comm]
  · next foreign => simp [does_throw, foreign]

def withNode (b : Builder) (op : Operator) (inputs : List Nat) (shape : Shape) : Builder :=
  { b with graph := ⟨b.graph.nodes ++ [⟨b.graph.size, op, inputs, shape⟩]⟩ }

theorem node?_withNode (b : Builder) (op : Operator) (inputs : List Nat) (shape : Shape) :
    (b.withNode op inputs shape).graph.node? b.graph.size = some ⟨b.graph.size, op, inputs, shape⟩ :=
  List.getElem?_concat_length

theorem node?_withNode_before {op : Operator} {inputs : List Nat} {shape : Shape} {id : Nat} {node : Node}
    (found : b.graph.node? id = some node) : (b.withNode op inputs shape).graph.node? id = some node := by
  have bound := (List.getElem?_eq_some_iff.mp found).1
  exact (List.getElem?_append_left bound).trans found

theorem addNode_eq_ok {op : Operator} {inputs : List Nat} {node : Nat} :
    does (addNode op inputs) b = (.ok node, after) ↔
      node = b.graph.size ∧ ∃ shape, b.graph.Fits b.graph.size op inputs shape ∧
        after = b.withNode op inputs shape := by
  unfold addNode
  rw [does_bind, does_get]
  dsimp only
  cases added : b.graph.addOp op inputs with
  | error cause =>
      constructor
      · intro impossible
        cases impossible
      · rintro ⟨rfl, shape, fits, _⟩
        have succeeded := Graph.addOp_eq_ok.mpr ⟨rfl, shape, fits, rfl⟩
        rw [added] at succeeded
        cases succeeded
  | ok result =>
      obtain ⟨id, graph⟩ := result
      obtain ⟨rfl, shape, fits, rfl⟩ := Graph.addOp_eq_ok.mp added
      constructor
      · intro succeeded
        cases succeeded
        exact ⟨rfl, shape, fits, rfl⟩
      · rintro ⟨rfl, other, otherFits, rfl⟩
        rw [fits.shape_unique otherFits]
        rfl

theorem checkAll_eq_ok {channels : List Channel} :
    does (channels.forM checkOwned) b = (.ok ⟨⟩, after) ↔ (∀ c ∈ channels, b.owns c = true) ∧ after = b := by
  induction channels with
  | nil =>
      constructor
      · intro succeeded
        cases succeeded
        exact ⟨fun _ member => (nomatch member), rfl⟩
      · rintro ⟨_, rfl⟩
        rfl
  | cons channel rest ih =>
      rw [List.forM_eq_forM] at ih ⊢
      rw [List.forM_cons, does_bind_eq_ok]
      constructor
      · rintro ⟨_, between, head, tail⟩
        obtain ⟨owned, rfl⟩ := checkOwned_eq_ok.mp head
        obtain ⟨others, rfl⟩ := ih.mp tail
        exact ⟨List.forall_mem_cons.mpr ⟨owned, others⟩, rfl⟩
      · rintro ⟨all, rfl⟩
        obtain ⟨owned, others⟩ := List.forall_mem_cons.mp all
        exact ⟨⟨⟩, after, checkOwned_eq_ok.mpr ⟨owned, rfl⟩, ih.mpr ⟨others, rfl⟩⟩

theorem push_eq_ok {op : Operator} {inputs : List Channel} {node : Nat} :
    does (push op inputs) b = (.ok node, after) ↔
      (∀ c ∈ inputs, b.owns c = true) ∧ does (addNode op (inputs.map Channel.node)) b = (.ok node, after) := by
  unfold push
  rw [does_bind_eq_ok]
  constructor
  · rintro ⟨_, between, checked, added⟩
    obtain ⟨owned, rfl⟩ := checkAll_eq_ok.mp checked
    exact ⟨owned, added⟩
  · rintro ⟨owned, added⟩
    exact ⟨⟨⟩, b, checkAll_eq_ok.mpr ⟨owned, rfl⟩, added⟩

theorem issue_eq_ok {node : Nat} {made : Invocation} {channel : Channel} :
    does (issue node made) b = (.ok channel, after) ↔
      after = b ∧ ∃ found, b.graph.node? node = some found ∧
        channel = Channel.ofInvocation b.id node found.outputShape made := by
  unfold issue
  rw [does_bind, does_get]
  dsimp only
  cases b.graph.node? node with
  | none => simp [does_throw]
  | some found => simp [does_pure, eq_comm, and_comm]

def binding (channel : Channel) (minCount : Nat) : SlotBinding :=
  ⟨channel.node, minCount, channel.invocation⟩

theorem bindWithMinCount_eq_ok {slot : String} {channel : Channel} {minCount : Nat} :
    does (bindWithMinCount slot channel minCount) b = (.ok (), after) ↔
      b.owns channel = true ∧ b.slots.contains slot = false ∧
        after = { b with slots := b.slots.insert slot (binding channel minCount) } := by
  unfold bindWithMinCount
  rw [does_bind_eq_ok]
  constructor
  · rintro ⟨_, between, checked, rest⟩
    obtain ⟨owned, rfl⟩ := checkOwned_eq_ok.mp checked
    rw [does_bind, does_get] at rest
    dsimp only at rest
    split at rest
    · cases rest
    · next free =>
      cases rest
      exact ⟨owned, Bool.eq_false_iff.mpr free, rfl⟩
  · rintro ⟨owned, free, rfl⟩
    refine ⟨⟨⟩, b, checkOwned_eq_ok.mpr ⟨owned, rfl⟩, ?_⟩
    rw [does_bind, does_get]
    simp only [free, Bool.false_eq_true, if_false]
    rfl

end InputResolution.Builder
