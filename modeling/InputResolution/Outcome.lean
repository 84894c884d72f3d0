import InputResolution.Metadata
import InputResolution.Invocation

/-!
What a resolution yields: one selection that triggers a step, a sequence of selections that triggers it once for each,
or a reason to skip it.
-/

namespace InputResolution

inductive SkipReason where
  | insufficientSpans (node found required : Nat)
  | missingRequiredSpan (node : Nat) (span : Int)
  | emptyResult (node : Nat)
  | requiredSlotEmpty (slot : String)
  | noSelections
deriving DecidableEq

def SkipReason.text : SkipReason → String
  | insufficientSpans node found required => s!"node #{node} found {found} span(s), {required} required"
  | missingRequiredSpan node span => s!"node #{node} is missing required span {span}"
  | emptyResult node => s!"node #{node} resolved no artifacts"
  | requiredSlotEmpty slot => s!"required slot '{slot}' is empty"
  | noSelections => "resolution produced no selections"

structure Selection where
  artifacts : OrderedMap (List Artifact)
  invocations : OrderedMap Invocation

inductive Outcome where
  | trigger (selection : Selection)
  | triggerSequence (selections : List Selection)
  | skip (reason : SkipReason)

namespace Outcome

def kind : Outcome → String
  | trigger _ => "trigger"
  | triggerSequence _ => "trigger_sequence"
  | skip _ => "skip"

def skipReason? : Outcome → Option SkipReason
  | skip reason => some reason
  | _ => none

def isSkip (outcome : Outcome) : Bool :=
  outcome.skipReason?.isSome

def selections : Outcome → List Selection
  | trigger selection => [selection]
  | triggerSequence selections => selections
  | skip _ => []

end Outcome

end InputResolution
