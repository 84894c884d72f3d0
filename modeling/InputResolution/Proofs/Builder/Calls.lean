import InputResolution.Proofs.Builder.Growth
import InputResolution.Proofs.ResolutionContext

/-!
Runs of calls. Whatever is called on a builder, and whether it succeeds or fails, the builder keeps its identity, its
nodes and its slots, and only adds to them. A context that is built holds the graph and the slots of the builder.
-/

namespace InputResolution.Builder

inductive Call where
  | query (q : Query)
  | artifactQuery (typeName : String)
  | latestCreated (input : Channel) (n : Nat)
  | latestVersion (input : Channel) (n : Nat)
  | allSpans (input : Channel)
  | staticRange (input : Channel) (range : StaticRange)
  | rollingRange (input : Channel) (range : RollingRange)
  | sequentialRange (input : Channel) (range : SequentialRange)
  | shuffle (input : Channel) (seed : Option UInt64)
  | trainingRange (models : Channel)
  | latestTrained (input : Channel) (raiseSkipSignal : Bool)
  | latestPipelineRunOutputs (pipeline : String) (outputKeys : List String)
  | evaluatorInputs (examples models : Channel) (params : SpanDriven)
  | bindWithMinCount (slot : String) (channel : Channel) (minCount : Nat)
  | bind (slot : String) (channel : Channel)
  | bindAll (channels : OrderedMap Channel)

def Call.perform : Call → Building Unit
  | query q => discard (Builder.query q)
  | artifactQuery typeName => discard (Builder.artifactQuery typeName)
  | latestCreated input n => discard (Builder.latestCreated input n)
  | latestVersion input n => discard (Builder.latestVersion input n)
  | allSpans input => discard (Builder.allSpans input)
  | staticRange input range => discard (Builder.staticRange input range)
  | rollingRange input range => discard (Builder.rollingRange input range)
  | sequentialRange input range => discard (Builder.sequentialRange input range)
  | shuffle input seed => discard (Builder.shuffle input seed)
  | trainingRange models => discard (Builder.trainingRange models)
  | latestTrained input raiseSkipSignal => discard (Builder.latestTrained input raiseSkipSignal)
  | latestPipelineRunOutputs pipeline outputKeys => discard (Builder.latestPipelineRunOutputs pipeline outputKeys)
  | evaluatorInputs examples models params => discard (Builder.evaluatorInputs examples models params)
  | bindWithMinCount slot channel minCount => Builder.bindWithMinCount slot channel minCount
  | bind slot channel => Builder.bind slot channel
  | bindAll channels => Builder.bindAll channels

/-- The builder after these calls, failed ones included. -/
def after (b : Builder) (calls : List Call) : Builder :=
  calls.foldl (fun b call => (does call.perform b).2) b

def Call.asks : Call → List Bound
  | bindWithMinCount slot channel minCount => [⟨slot, channel, some minCount⟩]
  | bind slot channel => [⟨slot, channel, none⟩]
  | bindAll channels => channels.entries.map Bound.ofChannel
  | _ => []

/-- A call adds nodes, and the slots of the bindings that it makes. -/
theorem grows_perform (b : Builder) (call : Call) :
    b.Grows ((b.bindEach call.asks).map Bound.entry) (does call.perform b).2 := by
  cases call with
  | query q => exact (addsNodes_query q).discard b
  | artifactQuery typeName => exact (addsNodes_query _).discard b
  | latestCreated input n => exact (addsNodes_single (by trivial)).discard b
  | latestVersion input n => exact (addsNodes_single (by trivial)).discard b
  | allSpans input => exact (addsNodes_single (by trivial)).discard b
  | staticRange input range => exact (addsNodes_staticRange input range).discard b
  | rollingRange input range => exact (addsNodes_rollingRange input range).discard b
  | sequentialRange input range => exact (addsNodes_single (by trivial)).discard b
  | shuffle input seed => exact (addsNodes_single (by trivial)).discard b
  | trainingRange models => exact (addsNodes_single (by trivial)).discard b
  | latestTrained input raiseSkipSignal => exact (addsNodes_latestTrained input raiseSkipSignal).discard b
  | latestPipelineRunOutputs pipeline keys => exact (addsNodes_latestPipelineRunOutputs pipeline keys).discard b
  | evaluatorInputs examples models params => exact (addsNodes_evaluatorInputs examples models params).discard b
  | bindWithMinCount slot channel minCount => exact grows_bound b ⟨slot, channel, some minCount⟩
  | bind slot channel => exact grows_bound b ⟨slot, channel, none⟩
  | bindAll channels => exact grows_bindEntries b channels.entries

theorem extends_after (b : Builder) (calls : List Call) : b.Extends (b.after calls) := by
  induction calls generalizing b with
  | nil => exact Extends.refl b
  | cons call rest ih => exact (grows_perform b call).extends.trans (ih _)

/-! ## Building a context -/

/-- A context that is built is valid and holds what the builder holds. -/
theorem build_eq_ok {b : Builder} {context : ResolutionContext} (built : b.build = .ok context) :
    context.graph = b.graph ∧ context.slots = b.slots ∧ context.validate = .ok () := by
  unfold build at built
  obtain ⟨bound, each, rest⟩ := Steps.bind_eq_ok.mp built
  obtain ⟨_, valid, same⟩ := Steps.bind_eq_ok.mp rest
  cases same
  obtain ⟨graph, slots, _⟩ := ResolutionContext.bindAll_eq_ok.mp each
  exact ⟨graph, OrderedMap.ext slots, valid⟩

theorem build_after_eq_ok {b : Builder} {calls : List Call} {context : ResolutionContext}
    (built : (b.after calls).build = .ok context) :
    context.validate = .ok () ∧ (∀ id node, b.graph.node? id = some node → context.graph.node? id = some node) ∧
      b.slots.entries <+: context.slots.entries := by
  obtain ⟨graph, slots, valid⟩ := build_eq_ok built
  have grown := extends_after b calls
  refine ⟨valid, fun id node found => ?_, slots ▸ grown.slots⟩
  rw [graph]
  exact grown.node?_eq found

end InputResolution.Builder
