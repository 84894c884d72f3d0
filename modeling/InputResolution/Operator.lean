import InputResolution.Characters
import InputResolution.Metadata
import InputResolution.ResolveError
import InputResolution.Window

/-!
The operations that nodes of a graph can carry. An operation has a fixed number of inputs, says which shapes it takes
from them, and determines the shape that it produces. Its parameters are checked when a node is made, so that no
parameter can be at fault later on.
-/

namespace InputResolution

/-- What a word of 64 bits with a sign holds of an integer. Spans are subtracted in such words, so an overflow wraps
around. -/
def wrapped (i : Int) : Int :=
  (Int64.ofInt i).toInt

/-- How an evaluation follows the newest span: how many spans it waits, how far training has to lie behind, how many
spans it covers besides the newest, and the first span of all. -/
structure SpanDriven where
  waitSpans : Int
  trainingOffset : Int
  additionalSpans : Int
  startSpan : Int
deriving DecidableEq

namespace SpanDriven

/-- The newest span that is evaluated, given the newest span of all. -/
def windowEnd (params : SpanDriven) (newest : Int) : Int :=
  wrapped (newest - params.waitSpans)

def lookback (params : SpanDriven) (newest : Int) : Int :=
  wrapped (params.windowEnd newest - params.additionalSpans)

def windowStart (params : SpanDriven) (newest : Int) : Int :=
  max (params.lookback newest) params.startSpan

def trainingEnd (params : SpanDriven) (newest : Int) : Int :=
  wrapped (params.lookback newest - params.trainingOffset)

end SpanDriven

inductive Operator where
  | input (query : Query)
  | latestPipelineRunOutputs (pipeline outputKey : String)
  | latestCreated (n : Nat)
  | latestVersion (n : Nat)
  | allSpans
  | staticRange (range : StaticRange)
  | rollingRange (range : RollingRange)
  | sequentialRange (range : SequentialRange)
  | shuffle (seed : Option UInt64)
  | trainingRange (examplesType : String)
  | latestTrained
  | evaluatorInputs (params : SpanDriven)
  | select (key : String)
  | skipIfInsufficientSpans (minSpans : Nat) (requiredSpan : Option Int)
  | skipIfEmpty
deriving DecidableEq

namespace Operator

def defaultExamplesType : String := "Examples"

def name : Operator → String
  | input _ => "input"
  | latestPipelineRunOutputs _ _ => "latest_pipeline_run_outputs"
  | latestCreated _ => "latest_created"
  | latestVersion _ => "latest_version"
  | allSpans => "all_spans"
  | staticRange _ => "static_range"
  | rollingRange _ => "rolling_range"
  | sequentialRange _ => "sequential_rolling_range"
  | shuffle _ => "shuffle"
  | trainingRange _ => "training_range"
  | latestTrained => "latest_trained"
  | evaluatorInputs _ => "span_driven_evaluator_inputs"
  | select _ => "select"
  | skipIfInsufficientSpans _ _ => "skip_if_insufficient_spans"
  | skipIfEmpty => "skip_if_empty"

def arity : Operator → Nat
  | input _ => 0
  | latestPipelineRunOutputs _ _ => 0
  | evaluatorInputs _ => 2
  | _ => 1

def accepts : Operator → Shape → Bool
  | input _, _ => false
  | latestPipelineRunOutputs _ _, _ => false
  | select _, shape => shape = .dict
  | skipIfEmpty, shape => shape ≠ .dict
  | _, shape => shape = .list

def outputShape : Operator → List Shape → Shape
  | sequentialRange _, _ => .listOfLists
  | evaluatorInputs _, _ => .dict
  | skipIfEmpty, shapes => shapes.head?.getD .list
  | _, _ => .list

def checkNotNegative (name : String) (value : Int) : Except ResolveError Unit :=
  if value < 0 then .error (.negative name value) else .ok ()

def checkPositive (name : String) (value : Nat) : Except ResolveError Unit :=
  if value = 0 then .error (.zero name) else .ok ()

def checkStart (endSpan : Int) : Option Int → Except ResolveError Unit
  | none => .ok ()
  | some startSpan => do
      checkNotNegative "start_span" startSpan
      if endSpan < startSpan then .error (.startAfterEnd startSpan endSpan) else .ok ()

def validate : Operator → Except ResolveError Unit
  | input query => if isBlank query.typeName then .error .blankTypeName else .ok ()
  | latestPipelineRunOutputs pipeline outputKey =>
      if isBlank pipeline || isBlank outputKey then .error .blankPipelineOutput else .ok ()
  | latestCreated n => checkPositive "n" n
  | latestVersion n => checkPositive "n" n
  | staticRange range => do
      checkNotNegative "end_span" range.endSpan
      checkStart range.endSpan range.startSpan
  | rollingRange range => do
      checkNotNegative "start_span" range.startSpan
      checkPositive "num_spans" range.numSpans
  | sequentialRange range => do
      checkNotNegative "start_span" range.startSpan
      checkPositive "num_spans" range.numSpans
  | trainingRange examplesType => if isBlank examplesType then .error .blankExamplesType else .ok ()
  | evaluatorInputs params => do
      checkNotNegative "wait_spans_before_eval" params.waitSpans
      checkNotNegative "evaluation_training_offset" params.trainingOffset
      checkNotNegative "additional_spans_per_eval" params.additionalSpans
      checkNotNegative "start_span_number" params.startSpan
  | select key => if key = "" then .error .emptySelectKey else .ok ()
  | skipIfInsufficientSpans _ (some span) => checkNotNegative "required_span" span
  | skipIfInsufficientSpans _ none => .ok ()
  | allSpans => .ok ()
  | shuffle _ => .ok ()
  | latestTrained => .ok ()
  | skipIfEmpty => .ok ()

end Operator

end InputResolution
