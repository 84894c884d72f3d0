import InputResolution.Proofs.Builder.Steps

/-!
How a builder grows. A call adds nodes that fit at the end of the graph and slots under new names at the end of the
slots, and does nothing else; this holds whether it succeeds or fails. What a builder keeps through all calls is read off
these two kinds of steps.
-/

namespace InputResolution

/-- An operation that functions of a builder make use of: keys are selected from joint inputs alone. -/
def Operator.Offered : Operator → Prop
  | .select key => key ∈ ["examples", "model"]
  | _ => True

namespace Builder

variable {α β : Type} {b between after : Builder}

/-- A later builder: the same one with nodes and slots added at the end. -/
structure Extends (before after : Builder) : Prop where
  id : after.id = before.id
  graph : before.graph.nodes <+: after.graph.nodes
  slots : before.slots.entries <+: after.slots.entries

theorem Extends.refl (b : Builder) : b.Extends b :=
  ⟨rfl, List.prefix_refl _, List.prefix_refl _⟩

theorem Extends.trans {first second third : Builder} (early : first.Extends second) (late : second.Extends third) :
    first.Extends third :=
  ⟨late.id.trans early.id, early.graph.trans late.graph, early.slots.trans late.slots⟩

theorem Extends.node?_eq {before after : Builder} (grown : before.Extends after) {id : Nat} {node : Node}
    (found : before.graph.node? id = some node) : after.graph.node? id = some node := by
  obtain ⟨added, same⟩ := grown.graph
  have bound := (List.getElem?_eq_some_iff.mp found).1
  rw [Graph.node?, ← same, List.getElem?_append_left bound]
  exact found

/-- Steps that lead from a builder to a later one, with the slots that they add. -/
inductive Grows (b : Builder) : List (String × SlotBinding) → Builder → Prop where
  | refl : Grows b [] b
  | node {slots : List (String × SlotBinding)} {c : Builder} {op : Operator} {inputs : List Nat} {shape : Shape}
      (grown : Grows b slots c) (fits : c.graph.Fits c.graph.size op inputs shape) (offered : op.Offered) :
      Grows b slots (c.withNode op inputs shape)
  | slot {slots : List (String × SlotBinding)} {c : Builder} {name : String} {channel : Channel} {minCount : Nat}
      (grown : Grows b slots c) (owned : c.owns channel = true) (free : c.slots.contains name = false) :
      Grows b (slots ++ [(name, binding channel minCount)])
        { c with slots := c.slots.insert name (binding channel minCount) }

theorem Grows.trans {first second : List (String × SlotBinding)} (early : b.Grows first between)
    (late : between.Grows second after) : b.Grows (first ++ second) after := by
  induction late with
  | refl =>
      rw [List.append_nil]
      exact early
  | node _ fits offered ih => exact ih.node fits offered
  | slot _ owned free ih =>
      rw [← List.append_assoc]
      exact ih.slot owned free

theorem Grows.entries_eq {slots : List (String × SlotBinding)} (grown : b.Grows slots after) :
    after.slots.entries = b.slots.entries ++ slots := by
  induction grown with
  | refl => rw [List.append_nil]
  | node _ _ _ ih => exact ih
  | slot _ _ free ih => rw [OrderedMap.entries_insert free, ih, List.append_assoc]

theorem extends_withNode (b : Builder) (op : Operator) (inputs : List Nat) (shape : Shape) :
    b.Extends (b.withNode op inputs shape) :=
  ⟨rfl, List.prefix_append _ _, List.prefix_refl _⟩

theorem Grows.extends {slots : List (String × SlotBinding)} (grown : b.Grows slots after) : b.Extends after := by
  induction grown with
  | refl => exact Extends.refl b
  | node _ _ _ ih => exact ih.trans (extends_withNode _ _ _ _)
  | slot _ _ free ih =>
      refine ih.trans ⟨rfl, List.prefix_refl _, ?_⟩
      rw [OrderedMap.entries_insert free]
      exact List.prefix_append _ _

/-! ## Functions -/

def Adds (call : Building α) : Prop :=
  ∀ b : Builder, b.Extends (does call b).2

theorem Adds.extends {call : Building α} (adds : Adds call) {result : Except ResolveError α}
    (done : does call b = (result, after)) : b.Extends after := by
  have grown := adds b
  rw [done] at grown
  exact grown

def AddsNodes (call : Building α) : Prop :=
  ∀ b : Builder, b.Grows [] (does call b).2

theorem AddsNodes.adds {call : Building α} (adds : AddsNodes call) : Adds call :=
  fun b => (adds b).extends

theorem addsNodes_pure (a : α) : AddsNodes (pure a) :=
  fun _ => .refl

theorem addsNodes_throw (cause : ResolveError) : AddsNodes (throw cause : Building α) :=
  fun _ => .refl

theorem addsNodes_get : AddsNodes get :=
  fun _ => .refl

theorem AddsNodes.bind {first : Building α} {next : α → Building β} (head : AddsNodes first)
    (tail : ∀ a, AddsNodes (next a)) : AddsNodes (first >>= next) := by
  intro b
  have early := head b
  rw [does_bind]
  rcases outcome : does first b with ⟨cause | a, between⟩
  · rw [outcome] at early
    exact early
  · rw [outcome] at early
    exact early.trans (tail a between)

theorem AddsNodes.discard {call : Building α} (adds : AddsNodes call) : AddsNodes (discard call) :=
  adds.bind fun _ => addsNodes_pure _

theorem addsNodes_checkOwned (channel : Channel) : AddsNodes (checkOwned channel) := by
  apply addsNodes_get.bind
  intro b
  split
  · exact addsNodes_pure _
  · exact addsNodes_throw _

theorem addsNodes_addNode {op : Operator} (offered : op.Offered) (inputs : List Nat) :
    AddsNodes (addNode op inputs) := by
  intro b
  unfold addNode
  rw [does_bind, does_get]
  dsimp only
  split
  · next node graph added =>
    obtain ⟨_, shape, fits, rfl⟩ := Graph.addOp_eq_ok.mp added
    exact Grows.refl.node fits offered
  · exact .refl

theorem addsNodes_push {op : Operator} (offered : op.Offered) (inputs : List Channel) :
    AddsNodes (push op inputs) := by
  refine AddsNodes.bind ?_ fun _ => addsNodes_addNode offered _
  rw [List.forM_eq_forM]
  induction inputs with
  | nil => exact addsNodes_pure _
  | cons channel rest ih =>
      rw [List.forM_cons]
      exact (addsNodes_checkOwned channel).bind fun _ => ih

theorem addsNodes_issue (node : Nat) (made : Invocation) : AddsNodes (issue node made) := by
  apply addsNodes_get.bind
  intro b
  split
  · exact addsNodes_pure _
  · exact addsNodes_throw _

theorem addsNodes_query (q : Query) : AddsNodes (query q) :=
  (addsNodes_addNode (by trivial) _).bind fun _ => addsNodes_get.bind fun _ => addsNodes_pure _

theorem addsNodes_single {op : Operator} {input : Channel} {kwargs : List (String × Json)} (offered : op.Offered) :
    AddsNodes (single op input kwargs) :=
  (addsNodes_push offered _).bind fun _ => addsNodes_issue _ _

theorem addsNodes_staticRange (input : Channel) (range : StaticRange) : AddsNodes (staticRange input range) := by
  refine (addsNodes_push (by trivial) _).bind fun node => ?_
  split
  · exact addsNodes_issue _ _
  · split
    · exact addsNodes_throw _
    · exact (addsNodes_addNode (by trivial) _).bind fun _ => addsNodes_issue _ _

theorem addsNodes_rollingRange (input : Channel) (range : RollingRange) : AddsNodes (rollingRange input range) :=
  (addsNodes_push (by trivial) _).bind fun _ => (addsNodes_addNode (by trivial) _).bind fun _ => addsNodes_issue _ _

theorem addsNodes_latestTrained (input : Channel) (raiseSkipSignal : Bool) :
    AddsNodes (latestTrained input raiseSkipSignal) := by
  refine (addsNodes_push (by trivial) _).bind fun trained => ?_
  split
  · exact (addsNodes_addNode (by trivial) _).bind fun _ => addsNodes_issue _ _
  · exact (addsNodes_issue _ _).bind fun _ => addsNodes_pure _

theorem addsNodes_addOutputs (pipeline : String) (issued : OrderedMap Channel) (keys : List String) :
    AddsNodes (addOutputs pipeline issued keys) := by
  induction keys generalizing issued with
  | nil => exact addsNodes_pure _
  | cons key rest ih =>
      unfold addOutputs
      have nodes : AddsNodes (do
          let node ← addNode (.latestPipelineRunOutputs pipeline key) []
          let channel ← issue node
            (call "latest_pipeline_run_outputs" [] [("pipeline_name", .string pipeline), ("output_key", .string key)])
          addOutputs pipeline (issued.insert key channel) rest) :=
        (addsNodes_addNode (by trivial) _).bind fun _ => (addsNodes_issue _ _).bind fun _ => ih _
      split
      · exact (addsNodes_throw _).bind fun _ => nodes
      · exact nodes

theorem addsNodes_latestPipelineRunOutputs (pipeline : String) (keys : List String) :
    AddsNodes (latestPipelineRunOutputs pipeline keys) := by
  unfold latestPipelineRunOutputs
  split
  · exact addsNodes_throw _
  · exact addsNodes_addOutputs _ _ _

theorem addsNodes_addSelections (joint : Nat) (made : Invocation) (issued : OrderedMap Channel) {keys : List String}
    (offered : ∀ key ∈ keys, (Operator.select key).Offered) : AddsNodes (addSelections joint made issued keys) := by
  induction keys generalizing issued with
  | nil => exact addsNodes_pure _
  | cons key rest ih =>
      obtain ⟨first, others⟩ := List.forall_mem_cons.mp offered
      exact (addsNodes_addNode first _).bind fun _ => (addsNodes_issue _ _).bind fun _ => ih _ others

theorem addsNodes_evaluatorInputs (examples models : Channel) (params : SpanDriven) :
    AddsNodes (evaluatorInputs examples models params) :=
  (addsNodes_push (by trivial) _).bind fun _ => addsNodes_addSelections _ _ _ fun _ member => member

/-! ## Bindings -/

/-- A binding of a slot that is asked for, with a count of its own or with the one that the channel calls for. -/
structure Bound where
  slot : String
  channel : Channel
  minCount : Option Nat

namespace Bound

/-- The number of artifacts that the slot needs. Without a count it is one, unless the channel may be empty. -/
def count (bound : Bound) : Nat :=
  bound.minCount.getD (if bound.channel.allowsEmpty then 0 else 1)

def entry (bound : Bound) : String × SlotBinding :=
  (bound.slot, binding bound.channel bound.count)

def perform (bound : Bound) : Building Unit :=
  bindWithMinCount bound.slot bound.channel bound.count

def ofChannel (named : String × Channel) : Bound :=
  ⟨named.1, named.2, none⟩

end Bound

/-- Those of these bindings that are made, in turn, before one is refused. -/
def bindEach (b : Builder) : List Bound → List Bound
  | [] => []
  | bound :: rest =>
      match does bound.perform b with
      | (.ok _, after) => bound :: after.bindEach rest
      | (.error _, _) => []

theorem grows_of_bindWithMinCount {slot : String} {channel : Channel} {minCount : Nat}
    (done : does (bindWithMinCount slot channel minCount) b = (.ok (), after)) :
    b.Grows [(slot, binding channel minCount)] after := by
  obtain ⟨owned, free, rfl⟩ := bindWithMinCount_eq_ok.mp done
  exact Grows.refl.slot owned free

/-- A binding that is refused changes nothing, and what is refused is the argument. -/
theorem bindWithMinCount_refused {slot : String} {channel : Channel} {minCount : Nat} {cause : ResolveError}
    (failed : does (bindWithMinCount slot channel minCount) b = (.error cause, after)) :
    after = b ∧ cause.kind = .invalidArgument := by
  unfold bindWithMinCount at failed
  rw [does_bind, checkOwned, does_bind, does_get] at failed
  dsimp only at failed
  split at failed
  · next a between checked =>
    split at checked
    · cases checked
      rw [does_bind, does_get] at failed
      dsimp only at failed
      split at failed
      · cases failed
        exact ⟨rfl, rfl⟩
      · cases failed
    · cases checked
  · next other between checked =>
    split at checked
    · cases checked
    · cases checked
      cases failed
      exact ⟨rfl, rfl⟩

theorem grows_bindings (b : Builder) (bounds : List Bound) :
    b.Grows ((b.bindEach bounds).map Bound.entry) (does (bounds.forM Bound.perform) b).2 := by
  rw [List.forM_eq_forM]
  induction bounds generalizing b with
  | nil => exact .refl
  | cons bound rest ih =>
      rw [List.forM_cons, does_bind, bindEach]
      rcases done : does bound.perform b with ⟨cause | ⟨⟩, after⟩
      · rw [(bindWithMinCount_refused done).1]
        exact .refl
      · exact (grows_of_bindWithMinCount done).trans (ih after)

theorem grows_bound (b : Builder) (bound : Bound) :
    b.Grows ((b.bindEach [bound]).map Bound.entry) (does bound.perform b).2 := by
  have grown := grows_bindings b [bound]
  rw [List.forM_eq_forM, List.forM_cons, List.forM_nil, bind_pure_unit] at grown
  exact grown

theorem grows_bindEntries (b : Builder) (entries : List (String × Channel)) :
    b.Grows ((b.bindEach (entries.map Bound.ofChannel)).map Bound.entry)
      (does (entries.forM fun entry => bind entry.1 entry.2) b).2 := by
  have grown := grows_bindings b (entries.map Bound.ofChannel)
  rw [List.forM_eq_forM, List.forM_map] at grown
  exact grown

theorem adds_bindWithMinCount (slot : String) (channel : Channel) (minCount : Nat) :
    Adds (bindWithMinCount slot channel minCount) :=
  fun b => (grows_bound b ⟨slot, channel, some minCount⟩).extends

theorem adds_bindEntries (entries : List (String × Channel)) :
    Adds (entries.forM fun entry => bind entry.1 entry.2) :=
  fun b => (grows_bindEntries b entries).extends

theorem adds_bindAll (channels : OrderedMap Channel) : Adds (bindAll channels) :=
  adds_bindEntries _

end Builder

end InputResolution
