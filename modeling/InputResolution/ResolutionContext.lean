import InputResolution.Characters
import InputResolution.Graph
import InputResolution.Invocation

/-!
Resolution contexts: a graph and the slots that are bound to its nodes, in the order in which they were bound. A slot
states how many artifacts it needs, and may remember the invocation that made its node.
-/

namespace InputResolution

structure SlotBinding where
  node : Nat
  minCount : Nat
  invocation : Option Invocation

namespace SlotBinding

def required (node : Nat) : SlotBinding :=
  ⟨node, 1, none⟩

def optional (node : Nat) : SlotBinding :=
  ⟨node, 0, none⟩

def isRequired (binding : SlotBinding) : Bool :=
  decide (0 < binding.minCount)

end SlotBinding

structure ResolutionContext where
  graph : Graph
  slots : OrderedMap SlotBinding

namespace ResolutionContext

def ofGraph (graph : Graph) : ResolutionContext :=
  ⟨graph, OrderedMap.empty⟩

def roots (context : ResolutionContext) : List Nat :=
  context.slots.values.map SlotBinding.node

def checkBinding (context : ResolutionContext) (slot : String) (binding : SlotBinding) :
    Except ResolveError Unit :=
  match context.graph.node? binding.node with
  | none => .error (.slotOfUnknownNode slot binding.node)
  | some node => if node.outputShape = .dict then .error (.slotOfDict slot binding.node) else .ok ()

def bind (context : ResolutionContext) (slot : String) (binding : SlotBinding) :
    Except ResolveError ResolutionContext :=
  if isBlank slot then .error .blankSlotName
  else if context.slots.contains slot then .error (.slotTaken slot)
  else do
    context.checkBinding slot binding
    .ok { context with slots := context.slots.insert slot binding }

def validate (context : ResolutionContext) : Except ResolveError Unit := do
  context.graph.validate
  context.slots.entries.forM fun entry => context.checkBinding entry.1 entry.2

end ResolutionContext

end InputResolution
