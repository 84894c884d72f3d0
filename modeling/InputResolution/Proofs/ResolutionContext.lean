import InputResolution.Proofs.Graph.Construction
import InputResolution.Proofs.Graph.Reachability
import InputResolution.Proofs.OrderedMap
import InputResolution.ResolutionContext

/-!
Valid contexts: the graph is valid, and every slot is bound to one of its nodes that does not produce a dict. The nodes
that the slots of such a context need can always be put into an order of evaluation.

A context can be made if additions make its graph and its slots can then be bound one by one in their order. Besides what
validation checks this asks for names: a slot without one can stand in a record, and is accepted there, but no binding
makes it.
-/

namespace InputResolution.ResolutionContext

/-- A slot may be bound to a node of the graph whose shape is not that of a dict. -/
def Binds (context : ResolutionContext) (binding : SlotBinding) : Prop :=
  ∃ node, context.graph.node? binding.node = some node ∧ node.outputShape ≠ .dict

structure Valid (context : ResolutionContext) : Prop where
  graph : context.graph.Valid
  slots : ∀ entry ∈ context.slots.entries, context.Binds entry.2

variable {context : ResolutionContext}

theorem checkBinding_eq_ok {slot : String} {binding : SlotBinding} :
    context.checkBinding slot binding = .ok () ↔ context.Binds binding := by
  unfold checkBinding Binds
  cases found : context.graph.node? binding.node with
  | none => simp
  | some node => simp

theorem validate_eq_ok : context.validate = .ok () ↔ context.Valid := by
  unfold validate
  rw [Steps.bind_eq_ok]
  constructor
  · rintro ⟨_, graph, slots⟩
    refine ⟨Graph.validate_eq_ok.mp graph, ?_⟩
    intro entry member
    exact checkBinding_eq_ok.mp (Steps.forM_eq_ok.mp slots entry member)
  · intro valid
    refine ⟨(), Graph.validate_eq_ok.mpr valid.graph, ?_⟩
    exact Steps.forM_eq_ok.mpr fun entry member => checkBinding_eq_ok.mpr (valid.slots entry member)

def Needs (context : ResolutionContext) (id : Nat) : Prop :=
  context.graph.Reaches context.roots id

theorem mem_roots {id : Nat} : id ∈ context.roots ↔ ∃ entry ∈ context.slots.entries, entry.2.node = id := by
  simp [roots, OrderedMap.values]

theorem Valid.isSome_of_root (valid : context.Valid) {id : Nat} (member : id ∈ context.roots) :
    (context.graph.node? id).isSome := by
  obtain ⟨entry, slot, rfl⟩ := mem_roots.mp member
  obtain ⟨node, found, _⟩ := valid.slots entry slot
  rw [found]
  rfl

theorem Valid.scheduled (valid : context.Valid) :
    ∃ order, context.graph.ancestors context.roots = .ok order ∧ context.graph.Scheduled [] order :=
  valid.graph.scheduled fun _ => valid.isSome_of_root

/-! ## How contexts come about -/

variable {bound : ResolutionContext} {slot : String} {binding : SlotBinding}

theorem bind_eq_ok :
    context.bind slot binding = .ok bound ↔
      isBlank slot = false ∧ context.slots.contains slot = false ∧ context.Binds binding ∧
        bound = { context with slots := context.slots.insert slot binding } := by
  unfold bind
  split
  · next blank => simp [blank]
  · next named =>
    split
    · next taken => simp [taken]
    · next free =>
      rw [Steps.bind_eq_ok]
      constructor
      · rintro ⟨_, checked, same⟩
        cases same
        exact ⟨Bool.eq_false_iff.mpr named, Bool.eq_false_iff.mpr free, checkBinding_eq_ok.mp checked, rfl⟩
      · rintro ⟨_, _, binds, rfl⟩
        exact ⟨(), checkBinding_eq_ok.mpr binds, rfl⟩

def bindAll (context : ResolutionContext) (bindings : List (String × SlotBinding)) :
    Except ResolveError ResolutionContext :=
  bindings.foldlM (fun context entry => context.bind entry.1 entry.2) context

theorem bindAll_eq_ok {bindings : List (String × SlotBinding)} :
    context.bindAll bindings = .ok bound ↔
      bound.graph = context.graph ∧ bound.slots.entries = context.slots.entries ++ bindings ∧
        ∀ entry ∈ bindings, isBlank entry.1 = false ∧ context.Binds entry.2 := by
  induction bindings generalizing context with
  | nil =>
      constructor
      · intro made
        cases made
        exact ⟨rfl, (List.append_nil _).symm, fun _ member => nomatch member⟩
      · rintro ⟨graph, slots, _⟩
        rw [List.append_nil] at slots
        obtain ⟨boundGraph, boundSlots⟩ := bound
        cases graph
        cases OrderedMap.ext slots
        rfl
  | cons entry rest ih =>
      unfold bindAll at ih ⊢
      rw [List.foldlM_cons, Steps.bind_eq_ok]
      constructor
      · rintro ⟨between, first, others⟩
        obtain ⟨named, free, binds, rfl⟩ := bind_eq_ok.mp first
        obtain ⟨graph, slots, each⟩ := ih.mp others
        refine ⟨graph, ?_, List.forall_mem_cons.mpr ⟨⟨named, binds⟩, each⟩⟩
        rw [slots, OrderedMap.entries_insert free, List.append_assoc, List.singleton_append]
      · rintro ⟨graph, slots, each⟩
        obtain ⟨⟨named, binds⟩, others⟩ := List.forall_mem_cons.mp each
        -- the slots of the result have different names, so this one is new
        have free : context.slots.contains entry.1 = false := by
          rw [Bool.eq_false_iff]
          intro taken
          have distinct := bound.slots.nodup
          rw [slots, List.map_append, List.nodup_append] at distinct
          exact distinct.2.2 entry.1 (OrderedMap.contains_iff.mp taken) entry.1 List.mem_cons_self rfl
        refine ⟨_, bind_eq_ok.mpr ⟨named, free, binds, rfl⟩, ih.mpr ⟨graph, ?_, others⟩⟩
        rw [slots, OrderedMap.entries_insert free, List.append_assoc, List.singleton_append]

/-- The context is made by calls that succeed: additions that make its graph, and then a binding for each slot in the
order of the slots. -/
def Constructed (context : ResolutionContext) : Prop :=
  (∃ calls, Graph.empty.addAll calls = .ok context.graph) ∧
    (ofGraph context.graph).bindAll context.slots.entries = .ok context

def Named (context : ResolutionContext) : Prop :=
  ∀ entry ∈ context.slots.entries, isBlank entry.1 = false

theorem bindAll_slots_eq_ok :
    (ofGraph context.graph).bindAll context.slots.entries = .ok context ↔
      context.Named ∧ ∀ entry ∈ context.slots.entries, context.Binds entry.2 := by
  rw [bindAll_eq_ok]
  constructor
  · rintro ⟨_, _, each⟩
    exact ⟨fun entry member => (each entry member).1, fun entry member => (each entry member).2⟩
  · rintro ⟨named, binds⟩
    exact ⟨rfl, rfl, fun entry member => ⟨named entry member, binds entry member⟩⟩

/-- Calls make exactly those contexts that validation accepts and whose slots all have names. -/
theorem constructed_iff_validate :
    ∀ context : ResolutionContext, context.Constructed ↔ context.validate = .ok () ∧ context.Named := by
  intro context
  rw [validate_eq_ok]
  constructor
  · rintro ⟨⟨calls, added⟩, made⟩
    obtain ⟨named, binds⟩ := bindAll_slots_eq_ok.mp made
    exact ⟨⟨Graph.valid_empty.addAll added, binds⟩, named⟩
  · rintro ⟨valid, named⟩
    exact ⟨⟨_, valid.graph.addAll_nodes⟩, bindAll_slots_eq_ok.mpr ⟨named, valid.slots⟩⟩

def nameless : ResolutionContext where
  graph := ⟨[⟨0, .input (Query.ofType "Examples"), [], .list⟩]⟩
  slots := OrderedMap.ofList [("", SlotBinding.required 0)]

/-- Validation accepts a context that no calls make. -/
theorem nameless_not_constructed : nameless.validate = .ok () ∧ ¬nameless.Constructed := by
  refine ⟨by rfl, ?_⟩
  rintro ⟨_, made⟩
  have named := (bindAll_slots_eq_ok.mp made).1 ("", SlotBinding.required 0) List.mem_cons_self
  cases named

end InputResolution.ResolutionContext
