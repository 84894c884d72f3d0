import InputResolution.Builder
import InputResolution.Command
import InputResolution.Faults
import InputResolution.Main
import InputResolution.Proofs.Cache
import InputResolution.Proofs.Cache.ReadOnce
import InputResolution.Proofs.Cache.Reads
import InputResolution.Proofs.Cache.Growth
import InputResolution.Proofs.Cache.Disorder
import InputResolution.Proofs.Reading
import InputResolution.Proofs.Steps
import InputResolution.Proofs.Graph.Validity
import InputResolution.Proofs.Graph.Construction
import InputResolution.Proofs.Graph.Reachability
import InputResolution.Proofs.Graph.Search
import InputResolution.Proofs.ResolutionContext
import InputResolution.Proofs.Evaluation.Trace
import InputResolution.Proofs.Evaluation.Arranged
import InputResolution.Proofs.Assembly
import InputResolution.Proofs.Assembly.Law
import InputResolution.Proofs.Evaluation.Shapes
import InputResolution.Proofs.Builder.Steps
import InputResolution.Proofs.Builder.Calls
import InputResolution.Proofs.Builder.Failures
import InputResolution.Proofs.Evaluation.Grounded
import InputResolution.Proofs.Window.Versions
import InputResolution.Proofs.Window.Keys
import InputResolution.Proofs.Window.Permutation
import InputResolution.Proofs.Window.Deduplication
import InputResolution.Proofs.Window.DeduplicatedRanges
import InputResolution.Proofs.Window.StaticRange
import InputResolution.Proofs.Evaluation.Guarded
import InputResolution.Proofs.Evaluation.Meaning
import InputResolution.Proofs.Evaluation.UnknownKeys
import InputResolution.Proofs.Evaluation.Rearranged
import InputResolution.Proofs.Evaluation.OrderFree
import InputResolution.Proofs.Lineage.EvaluatorInputs
import InputResolution.Proofs.Lineage.Disorder
import InputResolution.Proofs.Builder.EvaluatorInputs
import InputResolution.Proofs.Builder.StaticRange
import InputResolution.Proofs.Builder.Guarded
import InputResolution.Proofs.Window.RollingRange
import InputResolution.Proofs.Builder.RollingRange
import InputResolution.Proofs.Builder.Growth
import InputResolution.Proofs.Builder.Channels
import InputResolution.Proofs.Evaluation.Failures
import InputResolution.Proofs.Builder.Sessions
import InputResolution.Proofs.Builder.Workshops
import InputResolution.Proofs.Json.CanonicalText
import InputResolution.Proofs.Record.Faithful
import InputResolution.Proofs.Record.Graph
import InputResolution.Proofs.Fingerprint
import InputResolution.Proofs.Assembly.Alike
import InputResolution.Proofs.Fingerprint.Resolution
import InputResolution.Proofs.Evaluation.Reachable
import InputResolution.Proofs.Snapshot.Changes
import InputResolution.Proofs.Lineage.Requests
import InputResolution.Proofs.Lineage.Latest
import InputResolution.Proofs.Lineage.LatestTrained
import InputResolution.Proofs.Lineage.TrainingRange
import InputResolution.Proofs.Lineage.EvaluatedModel
import InputResolution.Proofs.Lineage.PipelineRuns
import InputResolution.Proofs.Lineage.SpanArithmetic
import InputResolution.Proofs.Evaluation.Visits
import InputResolution.Proofs.Evaluation.Isolation
import InputResolution.Proofs.Instant.Calendar
import InputResolution.Proofs.Instant.Text
import InputResolution.Proofs.Record.Restored
import InputResolution.Proofs.Json.SameValue
import InputResolution.Proofs.Property
import InputResolution.Proofs.Record.Invocation
import InputResolution.Proofs.Record.Restored.Store
import InputResolution.Proofs.Record.Restored.Graph
import InputResolution.Proofs.Record.Restored.Context
import InputResolution.Proofs.Record.Restored.Outcome
import InputResolution.Proofs.Window.Arrivals
import InputResolution.Proofs.Window.RangesAgree
import InputResolution.Proofs.Window.LatestOf
import InputResolution.Proofs.Evaluation.Seeds
import InputResolution.Proofs.Shuffle
import InputResolution.Proofs.Command
