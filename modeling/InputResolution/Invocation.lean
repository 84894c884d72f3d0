import InputResolution.Json
import InputResolution.OrderedMap
import InputResolution.ResolveError

/-!
Records of how an input was made: the function that was called, the nodes that it was called on and its named
parameters.

A channel is a handle to a node of a graph under construction, and belongs to the builder that issued it. A channel
that a function made remembers the invocation; one that stands for a query has none.
-/

namespace InputResolution

inductive Argument where
  | input (node : Nat) (typeName : String)
  | channel (node : Nat) (operation : String)
deriving DecidableEq

def Argument.node : Argument → Nat
  | input node _ => node
  | channel node _ => node

structure Invocation where
  function : String
  args : List Argument
  kwargs : OrderedMap Json

namespace Invocation

def kwarg? (call : Invocation) (name : String) : Option Json :=
  call.kwargs.get? name

end Invocation

structure Channel where
  builder : Nat
  node : Nat
  shape : Shape
  /-- How the channel appears as an argument of another invocation. -/
  arg : Argument
  invocation : Option Invocation
  allowsEmpty : Bool

namespace Channel

def ofQuery (builder node : Nat) (typeName : String) : Channel :=
  { builder, node, shape := .list, arg := .input node typeName, invocation := none, allowsEmpty := false }

def ofInvocation (builder node : Nat) (shape : Shape) (call : Invocation) : Channel :=
  { builder, node, shape, arg := .channel node call.function, invocation := some call, allowsEmpty := false }

def allowingEmpty (channel : Channel) : Channel :=
  { channel with allowsEmpty := true }

end Channel

end InputResolution
