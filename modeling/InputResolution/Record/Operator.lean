import InputResolution.Graph
import InputResolution.Record.Metadata

/-!
Operations with their parameters, nodes and graphs as JSON. An operation is tagged by its name in the member `kind`.
-/

namespace InputResolution

open Record

def Shape.ofWritten? (written : Written) : Option Shape :=
  (name? .strict written).bind fun name => [list, listOfLists, dict].find? fun shape => shape.name = name

def Shape.toJson (shape : Shape) : Json :=
  .string shape.name

namespace StaticRange

def ofWritten? (written : Written) : Option StaticRange := do
  match ← fields? ["start_span", "end_span", "keep_all_versions", "exclude_span_numbers"] written with
  | [startSpan, endSpan, keepAllVersions, excludedSpans] =>
      some {
        startSpan := ← optional int? startSpan
        endSpan := ← required int? endSpan
        keepAllVersions := ← orElse false bool? keepAllVersions
        excludedSpans := ← orElse [] (list? int?) excludedSpans }
  | _ => none

def members (range : StaticRange) : List (String × Json) := [
  ("start_span", ofOption .int range.startSpan),
  ("end_span", .int range.endSpan),
  ("keep_all_versions", .bool range.keepAllVersions),
  ("exclude_span_numbers", ofList .int range.excludedSpans)]

end StaticRange

namespace RollingRange

def ofWritten? (written : Written) : Option RollingRange := do
  match ← fields? ["start_span", "num_spans", "skip_num_recent_spans", "keep_all_versions"] written with
  | [startSpan, numSpans, skippedRecentSpans, keepAllVersions] =>
      some {
        startSpan := ← required int? startSpan
        numSpans := ← required nat? numSpans
        skippedRecentSpans := ← orElse 0 nat? skippedRecentSpans
        keepAllVersions := ← orElse false bool? keepAllVersions }
  | _ => none

def members (range : RollingRange) : List (String × Json) := [
  ("start_span", .int range.startSpan),
  ("num_spans", ofNat range.numSpans),
  ("skip_num_recent_spans", ofNat range.skippedRecentSpans),
  ("keep_all_versions", .bool range.keepAllVersions)]

end RollingRange

namespace SequentialRange

def ofWritten? (written : Written) : Option SequentialRange := do
  match ← fields? ["start_span", "num_spans", "skip_num_recent_spans", "keep_all_versions",
      "exclude_span_numbers"] written with
  | [startSpan, numSpans, skippedRecentSpans, keepAllVersions, excludedSpans] =>
      some {
        startSpan := ← required int? startSpan
        numSpans := ← required nat? numSpans
        skippedRecentSpans := ← orElse 0 nat? skippedRecentSpans
        keepAllVersions := ← orElse false bool? keepAllVersions
        excludedSpans := ← orElse [] (list? int?) excludedSpans }
  | _ => none

def members (range : SequentialRange) : List (String × Json) := [
  ("start_span", .int range.startSpan),
  ("num_spans", ofNat range.numSpans),
  ("skip_num_recent_spans", ofNat range.skippedRecentSpans),
  ("keep_all_versions", .bool range.keepAllVersions),
  ("exclude_span_numbers", ofList .int range.excludedSpans)]

end SequentialRange

namespace SpanDriven

def ofWritten? (written : Written) : Option SpanDriven := do
  match ← fields? ["wait_spans_before_eval", "evaluation_training_offset", "additional_spans_per_eval",
      "start_span_number"] written with
  | [waitSpans, trainingOffset, additionalSpans, startSpan] =>
      some {
        waitSpans := ← orElse 0 int? waitSpans
        trainingOffset := ← orElse 0 int? trainingOffset
        additionalSpans := ← orElse 0 int? additionalSpans
        startSpan := ← orElse 0 int? startSpan }
  | _ => none

def members (params : SpanDriven) : List (String × Json) := [
  ("wait_spans_before_eval", .int params.waitSpans),
  ("evaluation_training_offset", .int params.trainingOffset),
  ("additional_spans_per_eval", .int params.additionalSpans),
  ("start_span_number", .int params.startSpan)]

end SpanDriven

namespace Operator

def ofSeed (seed : UInt64) : Json :=
  ofNat seed.toNat

def seed? (written : Written) : Option UInt64 :=
  (nat? written).map Nat.toUInt64

def ofParameters? (name : String) (written : Written) : Option Operator := do
  match name with
  | "input" =>
      match ← fields? ["query"] written with
      | [query] => return input (← required (Query.ofWritten? .free) query)
      | _ => none
  | "latest_pipeline_run_outputs" =>
      match ← fields? ["pipeline_name", "output_key"] written with
      | [pipeline, outputKey] =>
          return latestPipelineRunOutputs (← required text? pipeline) (← required text? outputKey)
      | _ => none
  | "latest_created" =>
      match ← fields? ["n"] written with
      | [n] => return latestCreated (← required nat? n)
      | _ => none
  | "latest_version" =>
      match ← fields? ["n"] written with
      | [n] => return latestVersion (← required nat? n)
      | _ => none
  | "all_spans" => (empty? written).map fun _ => allSpans
  | "static_range" => (StaticRange.ofWritten? written).map staticRange
  | "rolling_range" => (RollingRange.ofWritten? written).map rollingRange
  | "sequential_rolling_range" => (SequentialRange.ofWritten? written).map sequentialRange
  | "shuffle" =>
      match ← fields? ["seed"] written with
      | [seed] => return shuffle (← optional seed? seed)
      | _ => none
  | "training_range" =>
      match ← fields? ["examples_type"] written with
      | [examplesType] => return trainingRange (← orElse defaultExamplesType text? examplesType)
      | _ => none
  | "latest_trained" => (empty? written).map fun _ => latestTrained
  | "span_driven_evaluator_inputs" => (SpanDriven.ofWritten? written).map evaluatorInputs
  | "select" =>
      match ← fields? ["key"] written with
      | [key] => return select (← required text? key)
      | _ => none
  | "skip_if_insufficient_spans" =>
      match ← fields? ["min_spans", "required_span"] written with
      | [minSpans, requiredSpan] =>
          return skipIfInsufficientSpans (← required nat? minSpans) (← optional int? requiredSpan)
      | _ => none
  | "skip_if_empty" => (empty? written).map fun _ => skipIfEmpty
  | _ => none

def ofWritten? (written : Written) : Option Operator := do
  let (name, parameters) ← tagged? .strict "kind" [] written
  ofParameters? name parameters

def parameters : Operator → List (String × Json)
  | input query => [("query", query.toJson)]
  | latestPipelineRunOutputs pipeline outputKey =>
      [("pipeline_name", .string pipeline), ("output_key", .string outputKey)]
  | latestCreated n => [("n", ofNat n)]
  | latestVersion n => [("n", ofNat n)]
  | allSpans => []
  | staticRange range => range.members
  | rollingRange range => range.members
  | sequentialRange range => range.members
  | shuffle seed => [("seed", ofOption ofSeed seed)]
  | trainingRange examplesType => [("examples_type", .string examplesType)]
  | latestTrained => []
  | evaluatorInputs params => params.members
  | select key => [("key", .string key)]
  | skipIfInsufficientSpans minSpans requiredSpan =>
      [("min_spans", ofNat minSpans), ("required_span", ofOption .int requiredSpan)]
  | skipIfEmpty => []

def toJson (op : Operator) : Json :=
  .object (("kind", .string op.name) :: op.parameters)

def kwargs (op : Operator) : List (String × Json) :=
  Json.byName op.parameters

end Operator

namespace Node

def ofWritten? (written : Written) : Option Node := do
  match ← fields? ["id", "op", "inputs", "output_shape"] written with
  | [id, op, inputs, outputShape] =>
      some {
        id := ← required nat? id
        op := ← required Operator.ofWritten? op
        inputs := ← orElse [] (list? nat?) inputs
        outputShape := ← required Shape.ofWritten? outputShape }
  | _ => none

def toJson (node : Node) : Json :=
  .object [
    ("id", ofNat node.id),
    ("op", node.op.toJson),
    ("inputs", ofList ofNat node.inputs),
    ("output_shape", node.outputShape.toJson)]

end Node

namespace Graph

def ofWritten? (written : Written) : Option Graph := do
  match ← fields? ["nodes"] written with
  | [nodes] => some ⟨← orElse [] (list? Node.ofWritten?) nodes⟩
  | _ => none

def toJson (g : Graph) : Json :=
  .object [("nodes", ofList Node.toJson g.nodes)]

end Graph

end InputResolution
