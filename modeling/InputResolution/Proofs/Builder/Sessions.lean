import InputResolution.Proofs.Builder.Channels
import InputResolution.Proofs.Evaluation.Failures

/-!
Builders in use. A session remembers what its builder has issued and which bindings were made. If each call is given
channels that the builder itself has issued, then the graph is valid whatever is called, no node selects an unknown key
and the slots are the bindings that were made. Hence a context that is built can be resolved, save that two slots may
hold sequences of different lengths.
-/

namespace InputResolution

structure Issue where
  channel : Channel
  node : Option Node

namespace Builder

variable {b after : Builder}

structure Honours (b : Builder) (issue : Issue) : Prop where
  names : b.Names issue.channel
  same : b.graph.node? issue.channel.node = issue.node

theorem Honours.extends {issue : Issue} (honours : b.Honours issue) (grown : b.Extends after) :
    after.Honours issue := by
  obtain ⟨node, found, _⟩ := honours.names.node
  exact ⟨honours.names.extends grown, (grown.node?_eq found).trans (found.symm.trans honours.same)⟩

theorem Names.honours {channel : Channel} (names : b.Names channel) :
    b.Honours ⟨channel, b.graph.node? channel.node⟩ :=
  ⟨names, rfl⟩

theorem Grows.valid {slots : List (String × SlotBinding)} (grown : b.Grows slots after) (valid : b.graph.Valid) :
    after.graph.Valid := by
  induction grown with
  | refl => exact valid
  | node _ fits _ ih => exact Graph.valid_concat.mpr ⟨ih, rfl, fits⟩
  | slot _ _ _ ih => exact ih

def AllOffered (b : Builder) : Prop :=
  ∀ node ∈ b.graph.nodes, node.op.Offered

theorem Grows.allOffered {slots : List (String × SlotBinding)} (grown : b.Grows slots after) (all : b.AllOffered) :
    after.AllOffered := by
  induction grown with
  | refl => exact all
  | node _ _ offered ih => exact List.forall_mem_append.mpr ⟨ih, List.forall_mem_singleton.mpr offered⟩
  | slot _ _ _ ih => exact ih

theorem AllOffered.not_selectsUnknown (all : b.AllOffered) (id : Nat) (key : String) :
    ¬b.graph.SelectsUnknown id key := by
  rintro ⟨⟨node, found, selects⟩, unknown⟩
  have offered := all node (List.mem_of_getElem? found)
  rw [selects] at offered
  exact unknown offered

theorem subset_of_bindEach (b : Builder) (bounds : List Bound) : b.bindEach bounds ⊆ bounds := by
  induction bounds generalizing b with
  | nil => exact List.Subset.refl _
  | cons bound rest ih =>
      rw [bindEach]
      split
      · exact List.cons_subset_cons _ (ih _)
      · exact List.nil_subset _

theorem channel_mem_of_asks {call : Call} {bound : Bound} (asked : bound ∈ call.asks) :
    bound.channel ∈ call.channels := by
  cases call with
  | bindWithMinCount slot channel minCount =>
      cases List.mem_singleton.mp asked
      exact List.mem_cons_self
  | bind slot channel =>
      cases List.mem_singleton.mp asked
      exact List.mem_cons_self
  | bindAll channels =>
      obtain ⟨entry, member, rfl⟩ := List.mem_map.mp asked
      exact List.mem_map_of_mem member
  | _ => exact nomatch asked

/-- A context can be built exactly if all slots are named and it is then valid. -/
theorem build_eq_ok_iff {context : ResolutionContext} :
    b.build = .ok context ↔ context = ⟨b.graph, b.slots⟩ ∧ context.Named ∧ context.Valid := by
  rw [← ResolutionContext.validate_eq_ok]
  constructor
  · intro built
    obtain ⟨graph, slots, valid⟩ := build_eq_ok built
    obtain ⟨bound, each, rest⟩ := Steps.bind_eq_ok.mp built
    obtain ⟨_, _, same⟩ := Steps.bind_eq_ok.mp rest
    cases same
    rw [← graph, ← slots] at each
    exact ⟨by rw [← graph, ← slots], (ResolutionContext.bindAll_slots_eq_ok.mp each).1, valid⟩
  · rintro ⟨rfl, named, valid⟩
    have binds := (ResolutionContext.validate_eq_ok.mp valid).slots
    exact Steps.bind_eq_ok.mpr ⟨_, ResolutionContext.bindAll_slots_eq_ok.mpr ⟨named, binds⟩,
      Steps.bind_eq_ok.mpr ⟨(), valid, rfl⟩⟩

end Builder

/-- A builder with what it has issued and the bindings that were made, in their order. -/
structure Session where
  builder : Builder
  issues : List Issue
  bounds : List Builder.Bound

namespace Session

variable {s : Session}

def start (id : Nat) : Session :=
  ⟨Builder.ofId id, [], []⟩

def channels (s : Session) : List Channel :=
  s.issues.map Issue.channel

/-- The channels that the call issues now; one that fails issues none. -/
def issued (s : Session) (call : Builder.Call) : List Channel :=
  match (Builder.does call.issuing s.builder).1 with
  | .ok channels => channels
  | .error _ => []

def call (s : Session) (call : Builder.Call) : Session :=
  let after := (Builder.does call.perform s.builder).2
  { builder := after
    issues := s.issues ++ (s.issued call).map fun channel => ⟨channel, after.graph.node? channel.node⟩
    bounds := s.bounds ++ s.builder.bindEach call.asks }

def Honours (s : Session) : Prop :=
  ∀ issue ∈ s.issues, s.builder.Honours issue

theorem namesAll_issued (s : Session) (call : Builder.Call) : (s.call call).builder.NamesAll (s.issued call) := by
  change (Builder.does call.perform s.builder).2.NamesAll _
  unfold issued
  rw [Builder.perform_eq_discard]
  rcases done : Builder.does call.issuing s.builder with ⟨cause | channels, after⟩
  · exact fun _ impossible => nomatch impossible
  · have left : (Builder.does (discard call.issuing) s.builder).2 = after := by
      change (Builder.does (call.issuing >>= fun _ => pure ()) s.builder).2 = after
      rw [Builder.does_bind, done]
      rfl
    rw [left]
    exact Builder.gives_issuing call _ _ _ done

/-- A call keeps the nodes of all channels, whichever channels it is given. -/
theorem Honours.call (honours : s.Honours) (call : Builder.Call) : (s.call call).Honours := by
  have grown := (Builder.grows_perform s.builder call).extends
  refine List.forall_mem_append.mpr ⟨fun issue member => (honours issue member).extends grown, ?_⟩
  intro issue member
  obtain ⟨channel, there, rfl⟩ := List.mem_map.mp member
  exact (namesAll_issued s call channel there).honours

theorem mem_bounds_call {call : Builder.Call} {bound : Builder.Bound} (member : bound ∈ (s.call call).bounds) :
    bound ∈ s.bounds ∨ bound ∈ call.asks :=
  (List.mem_append.mp member).imp_right fun now => s.builder.subset_of_bindEach _ now

/-- What holds while each call is given channels that were issued before. -/
structure Sound (s : Session) : Prop where
  honours : s.Honours
  graph : s.builder.graph.Valid
  offered : s.builder.AllOffered
  slots : s.builder.slots.entries = s.bounds.map Builder.Bound.entry
  own : ∀ bound ∈ s.bounds, bound.channel ∈ s.channels

theorem sound_start (id : Nat) : (start id).Sound where
  honours := fun _ impossible => nomatch impossible
  graph := Graph.valid_empty
  offered := fun _ impossible => nomatch impossible
  slots := rfl
  own := fun _ impossible => nomatch impossible

theorem channels_call (s : Session) (call : Builder.Call) : (s.call call).channels = s.channels ++ s.issued call := by
  simp [channels, Session.call, Function.comp_def]

theorem Sound.call (sound : s.Sound) {call : Builder.Call} (own : ∀ channel ∈ call.channels, channel ∈ s.channels) :
    (s.call call).Sound := by
  have grown := Builder.grows_perform s.builder call
  refine ⟨sound.honours.call call, grown.valid sound.graph, grown.allOffered sound.offered, ?_, ?_⟩
  · exact grown.entries_eq.trans (by rw [sound.slots]; exact List.map_append.symm)
  · intro bound member
    rw [channels_call]
    apply List.mem_append_left
    rcases mem_bounds_call member with before | asked
    · exact sound.own bound before
    · exact own _ (Builder.channel_mem_of_asks asked)

/-- The sessions that calls on a new builder lead to, each call given channels that were issued before it. -/
inductive Reached : Session → Prop where
  | start (id : Nat) : Reached (start id)
  | call {s : Session} {call : Builder.Call} (reached : Reached s)
      (own : ∀ channel ∈ call.channels, channel ∈ s.channels) : Reached (s.call call)

theorem Reached.sound (reached : s.Reached) : s.Sound := by
  induction reached with
  | start id => exact sound_start id
  | call _ own ih => exact ih.call own

/-- Apart from the names of slots the context is valid. -/
theorem Sound.valid (sound : s.Sound) : (ResolutionContext.mk s.builder.graph s.builder.slots).Valid := by
  refine ⟨sound.graph, fun entry member => ?_⟩
  change entry ∈ s.builder.slots.entries at member
  rw [sound.slots] at member
  obtain ⟨bound, made, rfl⟩ := List.mem_map.mp member
  obtain ⟨issue, issued, same⟩ := List.mem_map.mp (sound.own bound made)
  have names := (sound.honours issue issued).names
  obtain ⟨node, found, shape⟩ := names.node
  rw [same] at found
  exact ⟨node, found, shape ▸ names.noDict⟩

theorem Sound.build_eq_ok (sound : s.Sound) {context : ResolutionContext} :
    s.builder.build = .ok context ↔
      context = ⟨s.builder.graph, s.builder.slots⟩ ∧ ∀ bound ∈ s.bounds, isBlank bound.slot = false := by
  rw [Builder.build_eq_ok_iff]
  refine and_congr_right ?_
  rintro rfl
  rw [and_iff_left sound.valid, ResolutionContext.Named]
  dsimp only
  rw [sound.slots, List.forall_mem_map]
  rfl

/-- Whatever is called on a builder with channels that it has issued: each of these still names the node that it named at
first, with its own shape, which is no dict. A context can be built exactly if the name of every bound slot has a
character that is not blank. It has the bindings that were made, in their order, and against a source that never fails
its resolution fails for two slots with sequences of different lengths, and for nothing else, as long as words wrap
around. If arithmetic is checked the resolution can also stop at an overflow, but only if the parameters of an evaluation
add up to more than `2 ^ 63` above its start. -/
theorem Reached.safe (reached : s.Reached) :
    (∀ issue ∈ s.issues, ∃ node, issue.node = some node ∧ s.builder.graph.node? issue.channel.node = some node ∧
      node.outputShape = issue.channel.shape ∧ issue.channel.shape ≠ .dict ∧
      issue.channel.arg.node = issue.channel.node) ∧
    ((∃ context, s.builder.build = .ok context) ↔
      ∀ bound ∈ s.bounds, ∃ c ∈ bound.slot.toList, isBlankChar c = false) ∧
    ∀ context, s.builder.build = .ok context →
      context.slots.entries = s.bounds.map Builder.Bound.entry ∧
      ∀ {σ : Type} (source : Source σ), Reading.Answers source → ∀ seeding state,
        ∃ trace, context.Traces source seeding state trace ∧
          ((∃ cause, (context.resolve source seeding state).1 = .error cause) ↔
            trace.halt = none ∧ Assembly.Uneven (fun id => trace.values.lookup id) context.slots.entries) ∧
          (∀ cause, (context.resolve source seeding state).1 = .error cause → cause.kind = .inconsistentResultShape) ∧
          ((∀ id examples, trace.values.lookup id = some (.list examples) → SignedSpans examples) →
            trace.Overflows context.graph → ∃ node ∈ s.builder.graph.nodes, ∃ params, node.op = .evaluatorInputs params ∧
              params.startSpan + 9223372036854775808 <
                params.waitSpans + params.additionalSpans + params.trainingOffset) := by
  have sound := reached.sound
  refine ⟨fun issue member => ?_, ?_, ?_⟩
  · have honours := sound.honours issue member
    obtain ⟨node, found, shape⟩ := honours.names.node
    exact ⟨node, honours.same.symm.trans found, found, shape, honours.names.noDict, honours.names.argument⟩
  · simp only [sound.build_eq_ok, exists_eq_left, isBlank, List.all_eq_false, Bool.not_eq_true]
  · intro context built
    obtain ⟨rfl, _⟩ := sound.build_eq_ok.mp built
    refine ⟨sound.slots, fun source answers seeding state => ?_⟩
    obtain ⟨trace, traces⟩ := sound.valid.exists_traces answers seeding state
    obtain ⟨fails, kind⟩ := sound.valid.fails_iff_uneven sound.offered.not_selectsUnknown traces
    exact ⟨trace, traces, fails, kind, fun signed overflows => overflows.exists_node sound.graph signed⟩

def windows : Session :=
  let examples := Channel.ofQuery 1 0 "Examples"
  (((start 1).call (.artifactQuery "Examples")).call (.sequentialRange examples ⟨0, 1, 0, false, []⟩)).call
    (.sequentialRange examples ⟨0, 2, 0, false, []⟩)

def windowAt (place : Nat) : Channel :=
  windows.channels[place]?.getD (Channel.ofQuery 1 0 "Examples")

def bothWindows : Session :=
  (windows.call (.bind "single" (windowAt 1))).call (.bind "pair" (windowAt 2))

def windowsContext : ResolutionContext :=
  ⟨bothWindows.builder.graph, bothWindows.builder.slots⟩

theorem reached_bothWindows : bothWindows.Reached := by
  have first : windowAt 1 ∈ windows.channels := List.mem_of_getElem? (i := 1) rfl
  have second : windowAt 2 ∈ windows.channels := List.mem_of_getElem? (i := 2) rfl
  refine .call (.call (.call (.call (.call (.start 1) nofun) ?_) ?_) ?_) ?_
  · exact List.forall_mem_singleton.mpr List.mem_cons_self
  · exact List.forall_mem_singleton.mpr List.mem_cons_self
  · exact List.forall_mem_singleton.mpr first
  · exact List.forall_mem_singleton.mpr second

theorem Reached.safe_bothWindows :
    bothWindows.Reached ∧ bothWindows.builder.build = .ok windowsContext ∧
      Reading.Answers (Snapshot.threeSpans.source : Source Nat) ∧
      ∃ trace cause, windowsContext.Traces (Snapshot.threeSpans.source : Source Nat) ⟨none, fun _ => 0⟩ 7 trace ∧
        (windowsContext.resolve (Snapshot.threeSpans.source : Source Nat) ⟨none, fun _ => 0⟩ 7).1 = .error cause ∧
        cause.kind = .inconsistentResultShape ∧
        Assembly.Uneven (fun id => trace.values.lookup id) windowsContext.slots.entries := by
  have answers : Reading.Answers (Snapshot.threeSpans.source : Source Nat) := fun _ _ => ⟨_, _, rfl⟩
  obtain ⟨_, buildable, resolves⟩ := reached_bothWindows.safe
  have named : ∀ bound ∈ bothWindows.bounds, ∃ c ∈ bound.slot.toList, isBlankChar c = false := by
    intro bound member
    rcases mem_bounds_call member with before | asked
    · rcases mem_bounds_call before with none | asked
      · cases none
      · cases List.mem_singleton.mp asked
        exact ⟨'s', by decide, by decide⟩
    · cases List.mem_singleton.mp asked
      exact ⟨'p', by decide, by decide⟩
  obtain ⟨context, built⟩ := buildable.mpr named
  obtain ⟨rfl, _⟩ : context = windowsContext ∧ _ := reached_bothWindows.sound.build_eq_ok.mp built
  obtain ⟨trace, traces, fails, kind, _⟩ :=
    (resolves windowsContext built).2 Snapshot.threeSpans.source answers ⟨none, fun _ => 0⟩ 7
  have failed : (windowsContext.resolve (Snapshot.threeSpans.source : Source Nat) ⟨none, fun _ => 0⟩ 7).1 =
      .error (.unevenSequences "pair" 2 "single" 3) := by with_unfolding_all rfl
  exact ⟨reached_bothWindows, built, answers, trace, _, traces, failed, kind _ failed, (fails.mp ⟨_, failed⟩).2⟩

/-! ## An overflow -/

def farBack : SpanDriven :=
  ⟨0, 2, 9223372036854775807, 0⟩

def joint : Session :=
  (((start 1).call (.artifactQuery "Examples")).call (.artifactQuery "Model")).call
    (.evaluatorInputs (Channel.ofQuery 1 0 "Examples") (Channel.ofQuery 1 1 "Model") farBack)

def jointChannels : OrderedMap Channel :=
  OrderedMap.ofList (["examples", "model"].zip (joint.channels.drop 2))

def lookingBack : Session :=
  joint.call (.bindAll jointChannels)

def lookingBackContext : ResolutionContext :=
  ⟨lookingBack.builder.graph, lookingBack.builder.slots⟩

def trainedOnFirst : Snapshot :=
  let (first, s) := Snapshot.empty.putSpanned "Examples" 0 0
  let (model, s) := s.putArtifact "Model" []
  (s.putExecution "Trainer" [("examples", [first.id])] [("model", [model.id])] []).2

theorem reached_lookingBack : lookingBack.Reached := by
  refine .call (.call (.call (.call (.start 1) nofun) nofun) ?_) ?_
  · exact List.forall_mem_cons.mpr ⟨List.mem_cons_self, List.forall_mem_singleton.mpr (List.mem_of_getElem? (i := 1) rfl)⟩
  · intro channel member
    have listed : (Builder.Call.bindAll jointChannels).channels = joint.channels.drop 2 := by rfl
    rw [listed] at member
    exact List.mem_of_mem_drop member

/-- A context that was built meets an overflow. Where words wrap around, the model is evaluated on what it was trained on;
where arithmetic is checked, nothing is resolved. -/
theorem lookingBack_overflows :
    lookingBack.Reached ∧ lookingBack.builder.build = .ok lookingBackContext ∧
      ∃ trace selection model, lookingBackContext.Traces (trainedOnFirst.source : Source Nat) ⟨none, fun _ => 0⟩ 7 trace ∧
        trace.Overflows lookingBackContext.graph ∧
        (lookingBackContext.resolve (trainedOnFirst.source : Source Nat) ⟨none, fun _ => 0⟩ 7).1 =
          .ok (.trigger selection) ∧
        selection.artifacts.get? "model" = some [model] ∧
        selection.artifacts.get? "examples" =
          some ((Lineage.trainingRange [model] "Examples").value trainedOnFirst.answer) := by
  have built : lookingBack.builder.build = .ok lookingBackContext := by rfl
  have valid := ResolutionContext.validate_eq_ok.mp (Builder.build_eq_ok built).2.2
  have order : lookingBackContext.graph.ancestors lookingBackContext.roots = .ok [0, 1, 2, 3, 4] := by decide +kernel
  obtain ⟨trace, cache, after, ran, overflows, selection, model, triggers, chosen, shown⟩ : ∃ trace cache after,
      (lookingBackContext.graph.trace ⟨none, fun _ => 0⟩ [] [0, 1, 2, 3, 4]).run
        (Cache.through (trainedOnFirst.source : Source Nat)) (Cache.empty, 7) = (.ok trace, (cache, after)) ∧
      trace.Overflows lookingBackContext.graph ∧
      ∃ selection model, lookingBackContext.finish trace.result = .ok (.trigger selection) ∧
        selection.artifacts.get? "model" = some [model] ∧
        selection.artifacts.get? "examples" =
          some ((Lineage.trainingRange [model] "Examples").value trainedOnFirst.answer) := by
    refine ⟨_, _, _, by rfl, ?_, _, _, by rfl, by rfl, by rfl⟩
    exact ⟨2, _, _, by decide, rfl, .cons rfl (.cons rfl .nil), _, 0, rfl, by decide +kernel, by decide⟩
  have resolved := ResolutionContext.resolve_eq_finish (ResolutionContext.trace_eq_ok valid order _) ran
  exact ⟨reached_lookingBack, built, trace, selection, model, ⟨_, cache, after, order, ran⟩, overflows,
    (congrArg Prod.fst resolved).trans triggers, chosen, shown⟩

end Session

end InputResolution
