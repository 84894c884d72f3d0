import InputResolution.Record.Operator
import InputResolution.ResolutionContext

/-!
Invocations, slots and resolution contexts as JSON. A slot without an invocation leaves that member out.
-/

namespace InputResolution

open Record

namespace Argument

def kinds : List String := ["input", "channel"]

def ofWritten? (spelling : Spelling) (written : Written) : Option Argument := do
  let (kind, record) ← tagged? spelling "kind" kinds written
  match kind with
  | "input" =>
      match ← fields? ["node", "type_name"] record with
      | [node, typeName] => return input (← required nat? node) (← required text? typeName)
      | _ => none
  | "channel" =>
      match ← fields? ["node", "operation"] record with
      | [node, operation] => return channel (← required nat? node) (← required text? operation)
      | _ => none
  | _ => none

def toJson : Argument → Json
  | input node typeName =>
      .object [("kind", .string "input"), ("node", ofNat node), ("type_name", .string typeName)]
  | channel node operation =>
      .object [("kind", .string "channel"), ("node", ofNat node), ("operation", .string operation)]

end Argument

namespace Invocation

def ofWritten? (spelling : Spelling) (written : Written) : Option Invocation := do
  match ← fields? ["function", "args", "kwargs"] written with
  | [function, args, kwargs] =>
      some {
        function := ← required text? function
        args := ← orElse [] (list? (Argument.ofWritten? spelling)) args
        kwargs := ← orElse OrderedMap.empty (map? Written.value?) kwargs }
  | _ => none

def toJson (call : Invocation) : Json :=
  .object [
    ("function", .string call.function),
    ("args", ofList Argument.toJson call.args),
    ("kwargs", ofMap id call.kwargs)]

end Invocation

namespace SlotBinding

def ofWritten? (written : Written) : Option SlotBinding := do
  match ← fields? ["node", "min_count", "invocation"] written with
  | [node, minCount, invocation] =>
      some {
        node := ← Record.required nat? node
        minCount := ← orElse 1 nat? minCount
        invocation := ← Record.optional (Invocation.ofWritten? .strict) invocation }
  | _ => none

def toJson (binding : SlotBinding) : Json :=
  .object ([("node", ofNat binding.node), ("min_count", ofNat binding.minCount)] ++
    binding.invocation.toList.map fun call => ("invocation", call.toJson))

end SlotBinding

namespace ResolutionContext

def ofWritten? (written : Written) : Option ResolutionContext := do
  match ← fields? ["graph", "slots"] written with
  | [graph, slots] =>
      some {
        graph := ← required Graph.ofWritten? graph
        slots := ← orElse OrderedMap.empty (map? SlotBinding.ofWritten?) slots }
  | _ => none

def toJson (context : ResolutionContext) : Json :=
  .object [("graph", context.graph.toJson), ("slots", ofMap SlotBinding.toJson context.slots)]

end ResolutionContext

end InputResolution
