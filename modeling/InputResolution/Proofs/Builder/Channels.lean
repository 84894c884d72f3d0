import InputResolution.Proofs.Builder.Calls

/-!
The channels of a builder. A call that succeeds issues channels, and each of them names a node of its own shape. This
node is never a dict, since the only operation that makes one is kept behind the channels for its keys. Later calls add
to the graph, so that a channel goes on to name the same node.
-/

namespace InputResolution

theorem Graph.Fits.shape_ne_dict {g : Graph} {id : Nat} {op : Operator} {inputs : List Nat} {shape : Shape}
    (fits : g.Fits id op inputs shape) (noJoint : ∀ params, op ≠ .evaluatorInputs params) : shape ≠ .dict := by
  obtain ⟨sources, feeds, rfl⟩ := fits.sources
  cases op with
  | evaluatorInputs params => exact absurd rfl (noJoint params)
  | skipIfEmpty =>
      obtain ⟨input, rfl⟩ := List.length_eq_one_iff.mp fits.arity
      cases feeds with
      | cons feed rest =>
          cases rest
          simpa [Operator.outputShape, Operator.accepts] using feed.accepted
  | _ => exact nofun

theorem OrderedMap.mem_values_insert {α : Type} {m : OrderedMap α} {key : String} {value held : α}
    (member : held ∈ (m.insert key value).values) : held = value ∨ held ∈ m.values := by
  obtain ⟨entries, distinct⟩ := m
  change held ∈ (insertEntry key value entries).map Prod.snd at member
  change _ ∨ held ∈ entries.map Prod.snd
  clear distinct
  induction entries with
  | nil => exact Or.inl (List.mem_singleton.mp member)
  | cons entry rest ih =>
      rw [insertEntry] at member
      split at member
      · exact (List.mem_cons.mp member).imp_right (List.mem_cons_of_mem _)
      · rcases List.mem_cons.mp member with rfl | later
        · exact Or.inr List.mem_cons_self
        · exact (ih later).imp_right (List.mem_cons_of_mem _)

namespace Builder

variable {α β : Type} {b between after : Builder} {channel : Channel} {made : Invocation}

/-- The channel is one of this builder's and names a node of its shape, which is not that of a dict. -/
structure Names (b : Builder) (channel : Channel) : Prop where
  builder : channel.builder = b.id
  node : ∃ node, b.graph.node? channel.node = some node ∧ node.outputShape = channel.shape
  noDict : channel.shape ≠ .dict
  argument : channel.arg.node = channel.node

theorem Names.extends (names : b.Names channel) (grown : b.Extends after) : after.Names channel where
  builder := names.builder.trans grown.id.symm
  node := names.node.imp fun _ named => named.imp_left grown.node?_eq
  noDict := names.noDict
  argument := names.argument

def NamesAll (b : Builder) (channels : List Channel) : Prop :=
  ∀ channel ∈ channels, b.Names channel

/-! ## What calls give -/

/-- What the call gives satisfies the condition in the builder that it leaves. -/
def Gives (condition : Builder → α → Prop) (call : Building α) : Prop :=
  ∀ b a after, does call b = (.ok a, after) → condition after a

theorem Gives.of_last {condition : Builder → β → Prop} {first : Building α} {next : α → Building β}
    (last : ∀ a, Gives condition (next a)) : Gives condition (first >>= next) := by
  intro b result after done
  obtain ⟨a, between, _, rest⟩ := does_bind_eq_ok.mp done
  exact last a between result after rest

theorem gives_throw (condition : Builder → α → Prop) (cause : ResolveError) :
    Gives condition (throw cause : Building α) := by
  intro b a after impossible
  cases impossible

theorem Gives.map {condition : Builder → α → Prop} {other : Builder → β → Prop} {call : Building α} {f : α → β}
    (gives : Gives condition call) (implies : ∀ b a, condition b a → other b (f a)) : Gives other (f <$> call) := by
  intro b result after done
  rw [map_eq_pure_bind] at done
  obtain ⟨a, between, first, rest⟩ := does_bind_eq_ok.mp done
  cases rest
  exact implies _ _ (gives b a _ first)

theorem gives_addNode_issue {op : Operator} (noJoint : ∀ params, op ≠ .evaluatorInputs params) (inputs : List Nat)
    (made : Invocation) : Gives Names (addNode op inputs >>= fun node => issue node made) := by
  intro b channel after done
  obtain ⟨node, between, added, issued⟩ := does_bind_eq_ok.mp done
  obtain ⟨rfl, shape, fits, rfl⟩ := addNode_eq_ok.mp added
  obtain ⟨rfl, found, here, rfl⟩ := issue_eq_ok.mp issued
  cases Option.some.inj ((node?_withNode b op inputs shape).symm.trans here)
  exact ⟨rfl, ⟨_, here, rfl⟩, fits.shape_ne_dict noJoint, rfl⟩

theorem gives_push_issue {op : Operator} (noJoint : ∀ params, op ≠ .evaluatorInputs params) (inputs : List Channel)
    (made : Invocation) : Gives Names (push op inputs >>= fun node => issue node made) := by
  unfold push
  rw [bind_assoc]
  exact Gives.of_last fun _ => gives_addNode_issue noJoint _ _

theorem gives_query (q : Query) : Gives Names (query q) := by
  intro b channel after done
  obtain ⟨node, between, added, given⟩ := does_bind_eq_ok.mp done
  obtain ⟨rfl, shape, fits, rfl⟩ := addNode_eq_ok.mp added
  cases given
  obtain ⟨_, _, rfl⟩ := fits.sources
  exact ⟨rfl, ⟨_, node?_withNode b (.input q) [] .list, rfl⟩, nofun, rfl⟩

theorem gives_single {op : Operator} {input : Channel} {kwargs : List (String × Json)}
    (noJoint : ∀ params, op ≠ .evaluatorInputs params) : Gives Names (single op input kwargs) :=
  gives_push_issue noJoint _ _

theorem gives_staticRange (input : Channel) (range : StaticRange) : Gives Names (staticRange input range) := by
  unfold staticRange
  cases range.startSpan with
  | none => exact gives_push_issue (by simp) _ _
  | some startSpan =>
      refine Gives.of_last fun node => ?_
      dsimp only
      split
      · exact gives_throw _ _
      · exact gives_addNode_issue (by simp) _ _

theorem gives_rollingRange (input : Channel) (range : RollingRange) : Gives Names (rollingRange input range) :=
  Gives.of_last fun _ => gives_addNode_issue (by simp) _ _

theorem gives_latestTrained (input : Channel) (raiseSkipSignal : Bool) :
    Gives Names (latestTrained input raiseSkipSignal) := by
  cases raiseSkipSignal with
  | true => exact Gives.of_last fun _ => gives_addNode_issue (by simp) _ _
  | false =>
      have issued : Gives Names (push .latestTrained [input] >>= fun trained => issue trained _) :=
        gives_push_issue (by simp) _ (call "latest_trained" [input] [("raise_skip_signal", .bool false)])
      have allowing : Gives Names (Channel.allowingEmpty <$> _) := issued.map fun _ _ names =>
        ⟨names.builder, names.node, names.noDict, names.argument⟩
      rw [map_eq_pure_bind, bind_assoc] at allowing
      exact allowing

/-! ## Several channels -/

theorem namesAll_of_issue {op : Operator} (noJoint : ∀ params, op ≠ .evaluatorInputs params) {inputs : List Nat}
    {issued : OrderedMap Channel} (names : b.NamesAll issued.values) (key : String) {next : Channel → Building α}
    {result : α} (done : does (addNode op inputs >>= fun node => issue node made >>= next) b = (.ok result, after)) :
    ∃ channel between, between.NamesAll (issued.insert key channel).values ∧
      does (next channel) between = (.ok result, after) := by
  rw [← bind_assoc] at done
  obtain ⟨channel, between, first, rest⟩ := does_bind_eq_ok.mp done
  refine ⟨channel, between, fun held member => ?_, rest⟩
  have here := gives_addNode_issue noJoint inputs made b channel between first
  obtain ⟨node, last, added, issuedNow⟩ := does_bind_eq_ok.mp first
  obtain ⟨rfl, shape, _, rfl⟩ := addNode_eq_ok.mp added
  obtain ⟨rfl, _⟩ := issue_eq_ok.mp issuedNow
  have grown := extends_withNode b op inputs shape
  rcases OrderedMap.mem_values_insert member with rfl | before
  · exact here
  · exact (names held before).extends grown

theorem namesAll_addOutputs {pipeline : String} {issued channels : OrderedMap Channel} {keys : List String}
    (names : b.NamesAll issued.values) (done : does (addOutputs pipeline issued keys) b = (.ok channels, after)) :
    after.NamesAll channels.values := by
  induction keys generalizing b issued with
  | nil =>
      cases done
      exact names
  | cons key rest ih =>
      rw [addOutputs] at done
      dsimp only at done
      split at done
      · cases done
      · obtain ⟨channel, between, more, later⟩ := namesAll_of_issue (by simp) names key done
        exact ih more later

theorem namesAll_addSelections {joint : Nat} {issued channels : OrderedMap Channel} {keys : List String}
    (names : b.NamesAll issued.values) (done : does (addSelections joint made issued keys) b = (.ok channels, after)) :
    after.NamesAll channels.values := by
  induction keys generalizing b issued with
  | nil =>
      cases done
      exact names
  | cons key rest ih =>
      obtain ⟨channel, between, more, later⟩ := namesAll_of_issue (by simp) names key done
      exact ih more later

theorem namesAll_empty (b : Builder) : b.NamesAll (OrderedMap.empty : OrderedMap Channel).values :=
  fun _ impossible => nomatch impossible

theorem gives_latestPipelineRunOutputs (pipeline : String) (keys : List String) :
    Gives (fun b channels => b.NamesAll channels.values) (latestPipelineRunOutputs pipeline keys) := by
  unfold latestPipelineRunOutputs
  split
  · exact gives_throw _ _
  · exact fun b _ _ done => namesAll_addOutputs (namesAll_empty b) done

theorem gives_evaluatorInputs (examples models : Channel) (params : SpanDriven) :
    Gives (fun b channels => b.NamesAll channels.values) (evaluatorInputs examples models params) :=
  Gives.of_last fun _ b _ _ done => namesAll_addSelections (namesAll_empty b) done

/-! ## All calls -/

def Call.channels : Call → List Channel
  | query _ => []
  | artifactQuery _ => []
  | latestCreated input _ => [input]
  | latestVersion input _ => [input]
  | allSpans input => [input]
  | staticRange input _ => [input]
  | rollingRange input _ => [input]
  | sequentialRange input _ => [input]
  | shuffle input _ => [input]
  | trainingRange models => [models]
  | latestTrained input _ => [input]
  | latestPipelineRunOutputs _ _ => []
  | evaluatorInputs examples models _ => [examples, models]
  | bindWithMinCount _ channel _ => [channel]
  | bind _ channel => [channel]
  | bindAll channels => channels.values

/-- The call with the channels that it issues. -/
def Call.issuing : Call → Building (List Channel)
  | query q => List.singleton <$> Builder.query q
  | artifactQuery typeName => List.singleton <$> Builder.artifactQuery typeName
  | latestCreated input n => List.singleton <$> Builder.latestCreated input n
  | latestVersion input n => List.singleton <$> Builder.latestVersion input n
  | allSpans input => List.singleton <$> Builder.allSpans input
  | staticRange input range => List.singleton <$> Builder.staticRange input range
  | rollingRange input range => List.singleton <$> Builder.rollingRange input range
  | sequentialRange input range => List.singleton <$> Builder.sequentialRange input range
  | shuffle input seed => List.singleton <$> Builder.shuffle input seed
  | trainingRange models => List.singleton <$> Builder.trainingRange models
  | latestTrained input raiseSkipSignal => List.singleton <$> Builder.latestTrained input raiseSkipSignal
  | latestPipelineRunOutputs pipeline outputKeys =>
      OrderedMap.values <$> Builder.latestPipelineRunOutputs pipeline outputKeys
  | evaluatorInputs examples models params => OrderedMap.values <$> Builder.evaluatorInputs examples models params
  | bindWithMinCount slot channel minCount => (fun _ => []) <$> Builder.bindWithMinCount slot channel minCount
  | bind slot channel => (fun _ => []) <$> Builder.bind slot channel
  | bindAll channels => (fun _ => []) <$> Builder.bindAll channels

theorem discard_map (f : α → β) (call : Building α) : discard (f <$> call) = discard call :=
  (comp_map f (Function.const β ()) call).symm

theorem discard_unit (call : Building Unit) : discard call = call :=
  id_map call

theorem perform_eq_discard (call : Call) : call.perform = discard call.issuing := by
  cases call <;> simp only [Call.issuing, discard_map, discard_unit] <;> rfl

theorem gives_issuing (call : Call) : Gives NamesAll call.issuing := by
  have one : ∀ (b : Builder) (channel : Channel), b.Names channel → b.NamesAll [channel] :=
    fun _ _ names => List.forall_mem_singleton.mpr names
  have none : ∀ call : Building Unit, Gives NamesAll ((fun _ => []) <$> call) := fun call =>
    have gives : Gives (fun _ _ => True) call := fun _ _ _ _ => trivial
    gives.map fun _ _ _ _ impossible => nomatch impossible
  cases call with
  | query q => exact (gives_query q).map one
  | artifactQuery typeName => exact (gives_query _).map one
  | latestCreated input n => exact (gives_single (by simp)).map one
  | latestVersion input n => exact (gives_single (by simp)).map one
  | allSpans input => exact (gives_single (by simp)).map one
  | staticRange input range => exact (gives_staticRange input range).map one
  | rollingRange input range => exact (gives_rollingRange input range).map one
  | sequentialRange input range => exact (gives_single (by simp)).map one
  | shuffle input seed => exact (gives_single (by simp)).map one
  | trainingRange models => exact (gives_single (by simp)).map one
  | latestTrained input raiseSkipSignal => exact (gives_latestTrained input raiseSkipSignal).map one
  | latestPipelineRunOutputs pipeline keys =>
      exact (gives_latestPipelineRunOutputs pipeline keys).map fun _ _ names => names
  | evaluatorInputs examples models params =>
      exact (gives_evaluatorInputs examples models params).map fun _ _ names => names
  | bindWithMinCount slot channel minCount => exact none _
  | bind slot channel => exact none _
  | bindAll channels => exact none _

end Builder

end InputResolution
