import InputResolution.Operator
import InputResolution.Reading

/-!
Questions that need lineage besides the properties of artifacts. The latest of several artifacts or executions is the
last one in creation order.
-/

namespace InputResolution.Lineage

/-- The type of the contexts that group the runs of a pipeline. -/
def pipelineContextType : String := "pipeline"

def producers (artifact : Int) : Reading (List Execution) := do
  let touching ← Reading.request (.lineage (.artifact artifact))
  return touching.filter fun e => e.produced artifact

def latestProducer (artifact : Int) : Reading (Option Execution) := do
  return latestBy? Execution.creationKey (← producers artifact)

/-- The inputs of an execution that have this type and a span, in span order. -/
def trainerInputs (trainer : Execution) (examplesType : String) : Reading (List Artifact) := do
  let inputs ← Reading.request (.byId (distinctAscending trainer.inputIds))
  return Window.spanSorted (inputs.filter fun a => a.typeName = examplesType)

/-- What the latest of the models was last trained on. -/
def trainingRange (models : List Artifact) (examplesType : String) : Reading (List Artifact) :=
  match latestBy? Artifact.creationKey models with
  | none => return []
  | some model => do
      match ← latestProducer model.id with
      | none => return []
      | some trainer => trainerInputs trainer examplesType

def addNew (known found : List Execution) : List Execution :=
  found.foldl (fun known e => if known.any fun other => other.id = e.id then known else known ++ [e]) known

def allProducers (artifacts : List Artifact) : Reading (List Execution) :=
  artifacts.foldlM (fun known a => return addNew known (← producers a.id)) []

/-- Those of the artifacts that the latest execution to produce any of them produced, in creation order. -/
def latestTrained (artifacts : List Artifact) : Reading (List Artifact) := do
  match latestBy? Execution.creationKey (← allProducers artifacts) with
  | none => return []
  | some latest =>
      let produced := artifacts.filter fun a => latest.produced a.id
      return (sortBy Artifact.creationKey produced).eraseRepsBy fun a b => a.id == b.id

def outputsOf (outputKey : String) (e : Execution) : List Int :=
  (e.outputs.get? outputKey).getD []

/-- What the latest run of a pipeline with outputs under this key put there, in the order of its event. -/
def latestPipelineRunOutputs (pipeline outputKey : String) : Reading (List Artifact) := do
  match ← Reading.request (.context pipelineContextType pipeline) with
  | none => return []
  | some context =>
      let runs ← Reading.request (.lineage (.context context.id))
      match latestBy? Execution.creationKey (runs.filter fun e => !(outputsOf outputKey e).isEmpty) with
      | none => return []
      | some run => Reading.request (.byId (outputsOf outputKey run))

structure EvaluatorInputs where
  examples : List Artifact
  model : List Artifact
deriving DecidableEq

def trainedModels : List Artifact → Reading (List (Execution × Artifact))
  | [] => return []
  | model :: rest => do
      let trainer ← latestProducer model.id
      let others ← trainedModels rest
      return (trainer.toList.map fun t => (t, model)) ++ others

def trainingKey (candidate : Execution × Artifact) : SortKey :=
  candidate.1.creationKey ++ candidate.2.creationKey

/-- The candidates by their training and then by their own creation, the latest first. -/
def latestFirst (candidates : List (Execution × Artifact)) : List (Execution × Artifact) :=
  (sortBy trainingKey candidates.reverse).reverse

def lastSpan? (artifacts : List Artifact) : Option Int :=
  (artifacts.filterMap Artifact.span?).max?

/-- The first candidate whose training saw spans, all of them below the cutoff. -/
def firstTrainedBefore (cutoff : Int) : List (Execution × Artifact) → Reading (List Artifact)
  | [] => return []
  | (trainer, model) :: rest => do
      let trainedOn ← trainerInputs trainer Operator.defaultExamplesType
      if (lastSpan? trainedOn).any (· < cutoff) then return [model] else firstTrainedBefore cutoff rest

def evaluatorInputs (examples models : List Artifact) (params : SpanDriven) : Reading EvaluatorInputs :=
  match ((examples.filterMap Artifact.span?).filter fun span => decide (params.startSpan ≤ span)).max? with
  | none => return ⟨[], []⟩
  | some newest => do
      let window := examples.filter fun a => a.span?.any fun span =>
        params.windowStart newest ≤ span && span ≤ params.windowEnd newest
      let candidates ← trainedModels models
      let model ← firstTrainedBefore (params.trainingEnd newest) (latestFirst candidates)
      return ⟨Window.latestVersions window, model⟩

end InputResolution.Lineage
