import InputResolution.Cache
import InputResolution.Evaluation
import InputResolution.ResolutionContext

/-!
Resolving a context: it is validated, the nodes that its slots need are evaluated in ascending order of ids, and their
values are assembled. All reads go through a cache that lives as long as the resolution. A failure of the source ends
it with the error that the failure turns into.

In an outcome a list stands in every selection; sequences are combined by index and must have one length. A selection in
which some slot holds too few artifacts is left out. If none is left, the step is skipped, and the reason names the first
slot that was too short.
-/

namespace InputResolution

/-! ## Assembly -/

structure FilledSlot where
  name : String
  binding : SlotBinding
  value : NodeValue

structure SequenceSlot where
  slot : String
  length : Nat
deriving DecidableEq

namespace FilledSlot

def artifactsAt (slot : FilledSlot) (index : Nat) : List Artifact :=
  match slot.value with
  | .list artifacts => artifacts
  | .listOfLists lists => lists[index]?.getD []
  | .dict _ => []

def isShortAt (slot : FilledSlot) (index : Nat) : Bool :=
  (slot.artifactsAt index).length < slot.binding.minCount

end FilledSlot

namespace Assembly

/-- The first slot with a sequence among slots whose sequences agree in length. -/
def sequence? (value : Nat → Option NodeValue) :
    Option SequenceSlot → List (String × SlotBinding) →
      Except ResolveError (Option SequenceSlot × List FilledSlot)
  | first, [] => .ok (first, [])
  | first, (name, binding) :: rest => do
      match value binding.node with
      | none => .error (.slotNotEvaluated name)
      | some (.dict _) => .error (.slotWithDictValue name)
      | some (.list artifacts) =>
          let (found, slots) ← sequence? value first rest
          .ok (found, ⟨name, binding, .list artifacts⟩ :: slots)
      | some (.listOfLists lists) =>
          let first ←
            match first with
            | none => .ok ⟨name, lists.length⟩
            | some other =>
                if other.length = lists.length then .ok other
                else .error (.unevenSequences name lists.length other.slot other.length)
          let (found, slots) ← sequence? value (some first) rest
          .ok (found, ⟨name, binding, .listOfLists lists⟩ :: slots)

/-- The first slot that is too short at an index. -/
def shortSlot? (slots : List FilledSlot) (index : Nat) : Option String :=
  (slots.find? fun slot => slot.isShortAt index).map FilledSlot.name

def selectionAt (slots : List FilledSlot) (index : Nat) : Selection :=
  { artifacts := OrderedMap.ofList (slots.map fun slot => (slot.name, slot.artifactsAt index))
    invocations := OrderedMap.ofList
      (slots.filterMap fun slot => slot.binding.invocation.map fun call => (slot.name, call)) }

/-- The selections in order of their indices, without those in which a slot is too short. -/
def selections (slots : List FilledSlot) (count : Nat) : List Selection :=
  ((List.range count).filter fun index => (shortSlot? slots index).isNone).map (selectionAt slots)

def skipReason (slots : List FilledSlot) (count : Nat) : SkipReason :=
  match (List.range count).findSome? (shortSlot? slots) with
  | some slot => .requiredSlotEmpty slot
  | none => .noSelections

end Assembly

def assemble (slots : OrderedMap SlotBinding) (value : Nat → Option NodeValue) : Except ResolveError Outcome := do
  let (sequence, filled) ← Assembly.sequence? value none slots.entries
  let count := (sequence.map SequenceSlot.length).getD 1
  match Assembly.selections filled count with
  | [] => .ok (.skip (Assembly.skipReason filled count))
  | first :: rest => if sequence.isNone then .ok (.trigger first) else .ok (.triggerSequence (first :: rest))

/-! ## Resolution -/

namespace ResolutionContext

def finish (context : ResolutionContext) : Evaluated (List (Nat × NodeValue)) → Except ResolveError Outcome
  | .ok values => assemble context.slots fun id => values.lookup id
  | .error (.skip reason) => .ok (.skip reason)
  | .error (.error cause) => .error cause

/-- The reads of a resolution and its result, if the context is valid. -/
def resolution (seeding : Seeding) (context : ResolutionContext) :
    Except ResolveError (Reading (Except ResolveError Outcome)) := do
  context.validate
  let order ← context.graph.ancestors context.roots
  .ok do
    let values ← context.graph.evaluate seeding [] order
    return context.finish values

variable {σ : Type}

def resolve (source : Source σ) (seeding : Seeding) (context : ResolutionContext) (state : σ) :
    Except ResolveError Outcome × σ :=
  match context.resolution seeding with
  | .error cause => (.error cause, state)
  | .ok reading =>
      match reading.run (Cache.through source) (Cache.empty, state) with
      | (.ok result, (_, after)) => (result, after)
      | (.error failure, (_, after)) => (.error (.store failure), after)

end ResolutionContext

end InputResolution
