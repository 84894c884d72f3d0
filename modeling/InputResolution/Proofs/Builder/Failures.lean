import InputResolution.Proofs.Builder.Calls

/-!
What a failed call leaves behind. A single step that fails changes nothing. A call of several steps leaves the builder
as it was if only its first step can fail; that the others cannot is read off the nodes that the first one added. Three
calls can fail between their steps, and these keep the steps before the one that failed.
-/

namespace InputResolution.Builder

variable {α β : Type} {b between after : Builder} {cause : ResolveError}

/-- A call that leaves the builder as it was if it fails. -/
def Atomic (call : Building α) : Prop :=
  ∀ b cause after, does call b = (.error cause, after) → after = b

def Inspects (call : Building α) : Prop :=
  ∀ b, (does call b).2 = b

def Succeeds (call : Building α) (b : Builder) : Prop :=
  ∃ a, (does call b).1 = .ok a

/-! ## Chains -/

theorem does_bind_eq_error {first : Building α} {next : α → Building β} :
    does (first >>= next) b = (.error cause, after) ↔
      does first b = (.error cause, after) ∨
        ∃ a between, does first b = (.ok a, between) ∧ does (next a) between = (.error cause, after) := by
  rw [does_bind]
  rcases does first b with ⟨other | a, between⟩
  · simp
  · constructor
    · exact fun failed => Or.inr ⟨a, between, rfl, failed⟩
    · rintro (impossible | ⟨_, _, same, failed⟩)
      · cases impossible
      · cases same
        exact failed

theorem Succeeds.ne_error {call : Building α} (succeeds : Succeeds call b) : does call b ≠ (.error cause, after) := by
  intro failed
  obtain ⟨a, given⟩ := succeeds
  rw [failed] at given
  cases given

theorem succeeds_of_eq_ok {call : Building α} {a : α} (done : does call b = (.ok a, after)) : Succeeds call b :=
  ⟨a, congrArg Prod.fst done⟩

theorem Succeeds.bind {first : Building α} {next : α → Building β} {a : α} (done : does first b = (.ok a, between))
    (succeeds : Succeeds (next a) between) : Succeeds (first >>= next) b := by
  obtain ⟨result, given⟩ := succeeds
  refine ⟨result, ?_⟩
  rw [does_bind, done]
  exact given

theorem Inspects.atomic {call : Building α} (inspects : Inspects call) : Atomic call := by
  intro b cause after failed
  have left := inspects b
  rw [failed] at left
  exact left

theorem Inspects.bind {first : Building α} {next : α → Building β} (head : Inspects first)
    (tail : ∀ a, Inspects (next a)) : Inspects (first >>= next) := by
  intro b
  have left := head b
  rw [does_bind]
  rcases outcome : does first b with ⟨cause | a, between⟩
  · rw [outcome] at left
    exact left
  · rw [outcome] at left
    exact (tail a between).trans left

theorem Inspects.atomic_bind {first : Building α} {next : α → Building β} (head : Inspects first)
    (tail : ∀ a, Atomic (next a)) : Atomic (first >>= next) := by
  intro b cause after failed
  rcases does_bind_eq_error.mp failed with early | ⟨a, between, done, late⟩
  · exact head.atomic b cause after early
  · have left := head b
    rw [done] at left
    exact (tail a between cause after late).trans left

/-- Only the first part of the chain can fail. -/
theorem Atomic.bind {first : Building α} {next : α → Building β} (head : Atomic first)
    (tail : ∀ b a between, does first b = (.ok a, between) → Succeeds (next a) between) : Atomic (first >>= next) := by
  intro b cause after failed
  rcases does_bind_eq_error.mp failed with early | ⟨a, between, done, late⟩
  · exact head b cause after early
  · exact absurd late (tail b a between done).ne_error

theorem Atomic.discard {call : Building α} (atomic : Atomic call) : Atomic (discard call) :=
  atomic.bind fun _ _ _ _ => ⟨(), rfl⟩

theorem does_discard_eq_error {call : Building α} :
    does (discard call) b = (.error cause, after) ↔ does call b = (.error cause, after) := by
  change does (call >>= fun _ => pure ()) b = _ ↔ _
  rw [does_bind_eq_error]
  constructor
  · rintro (failed | ⟨_, _, _, impossible⟩)
    · exact failed
    · cases impossible
  · exact Or.inl

/-! ## Steps -/

theorem inspects_pure (a : α) : Inspects (pure a) :=
  fun _ => rfl

theorem inspects_throw (cause : ResolveError) : Inspects (throw cause : Building α) :=
  fun _ => rfl

theorem inspects_get : Inspects get :=
  fun _ => rfl

theorem inspects_checkOwned (channel : Channel) : Inspects (checkOwned channel) := by
  apply inspects_get.bind
  intro b
  split
  · exact inspects_pure _
  · exact inspects_throw _

theorem inspects_checkAll (channels : List Channel) : Inspects (channels.forM checkOwned) := by
  rw [List.forM_eq_forM]
  induction channels with
  | nil => exact inspects_pure _
  | cons channel rest ih =>
      rw [List.forM_cons]
      exact (inspects_checkOwned channel).bind fun _ => ih

theorem atomic_addNode (op : Operator) (inputs : List Nat) : Atomic (addNode op inputs) := by
  intro b cause after failed
  unfold addNode at failed
  rw [does_bind, does_get] at failed
  dsimp only at failed
  split at failed
  · cases failed
  · cases failed
    rfl

theorem atomic_push (op : Operator) (inputs : List Channel) : Atomic (push op inputs) :=
  (inspects_checkAll inputs).atomic_bind fun _ => atomic_addNode op _

theorem atomic_bindWithMinCount (slot : String) (channel : Channel) (minCount : Nat) :
    Atomic (bindWithMinCount slot channel minCount) :=
  fun _ _ _ failed => (bindWithMinCount_refused failed).1

theorem addNode_issue_eq_ok {op : Operator} {inputs : List Nat} {shape : Shape}
    (fits : b.graph.Fits b.graph.size op inputs shape) (made : Invocation) :
    does (addNode op inputs >>= fun node => issue node made) b =
      (.ok (Channel.ofInvocation b.id b.graph.size shape made), b.withNode op inputs shape) := by
  rw [does_bind_eq_ok]
  refine ⟨b.graph.size, b.withNode op inputs shape, addNode_eq_ok.mpr ⟨rfl, shape, fits, rfl⟩, ?_⟩
  exact issue_eq_ok.mpr ⟨rfl, _, node?_withNode b op inputs shape, rfl⟩

theorem fits_on {source : Nat} {node : Node} (found : b.graph.node? source = some node) {op : Operator}
    (parameters : op.validate = .ok ()) (single : op.arity = 1) (accepted : op.accepts node.outputShape = true) :
    b.graph.Fits b.graph.size op [source] (op.outputShape [node.outputShape]) where
  parameters := parameters
  arity := single.symm
  sources := ⟨[node], .cons ⟨(List.getElem?_eq_some_iff.mp found).1, found, accepted⟩ .nil, rfl⟩

theorem push_adds {op : Operator} {inputs : List Channel} {node : Nat}
    (pushed : does (push op inputs) b = (.ok node, between)) :
    node = b.graph.size ∧ op.validate = .ok () ∧
      ∃ shapes, between = b.withNode op (inputs.map Channel.node) (op.outputShape shapes) := by
  obtain ⟨rfl, shape, fits, rfl⟩ := addNode_eq_ok.mp (push_eq_ok.mp pushed).2
  obtain ⟨sources, _, rfl⟩ := fits.sources
  exact ⟨rfl, fits.parameters, _, rfl⟩

theorem succeeds_behind {op next : Operator} {inputs : List Nat} {shape : Shape} (parameters : next.validate = .ok ())
    (single : next.arity = 1) (accepted : next.accepts shape = true) (made : Invocation) :
    Succeeds (addNode next [b.graph.size] >>= fun node => issue node made) (b.withNode op inputs shape) :=
  succeeds_of_eq_ok (addNode_issue_eq_ok (fits_on (node?_withNode b op inputs shape) parameters single accepted) made)

theorem succeeds_issue {node : Nat} {found : Node} (held : b.graph.node? node = some found) (made : Invocation) :
    Succeeds (issue node made) b :=
  succeeds_of_eq_ok (issue_eq_ok.mpr ⟨rfl, found, held, rfl⟩)

/-! ## Calls whose first step alone can fail -/

theorem atomic_query (q : Query) : Atomic (query q) :=
  (atomic_addNode _ _).bind fun _ _ _ _ => ⟨_, rfl⟩

theorem atomic_single (op : Operator) (input : Channel) (kwargs : List (String × Json)) :
    Atomic (single op input kwargs) := by
  apply (atomic_push op _).bind
  intro b node between pushed
  obtain ⟨rfl, _, shapes, rfl⟩ := push_adds pushed
  exact succeeds_issue (node?_withNode b _ _ _) _

theorem atomic_rollingRange (input : Channel) (range : RollingRange) : Atomic (rollingRange input range) := by
  apply (atomic_push _ _).bind
  intro b node between pushed
  obtain ⟨rfl, _, shapes, rfl⟩ := push_adds pushed
  exact succeeds_behind rfl rfl rfl _

theorem atomic_latestTrained (input : Channel) (raiseSkipSignal : Bool) :
    Atomic (latestTrained input raiseSkipSignal) := by
  apply (atomic_push _ _).bind
  intro b node between pushed
  obtain ⟨rfl, _, shapes, rfl⟩ := push_adds pushed
  cases raiseSkipSignal with
  | true => exact succeeds_behind rfl rfl rfl _
  | false => exact .bind (issue_eq_ok.mpr ⟨rfl, _, node?_withNode b _ _ _, rfl⟩) ⟨_, rfl⟩

theorem succeeds_addSelections {joint : Nat} {node : Node} (found : b.graph.node? joint = some node)
    (dict : node.outputShape = .dict) (made : Invocation) {keys : List String} (given : ∀ key ∈ keys, key ≠ "")
    (issued : OrderedMap Channel) : Succeeds (addSelections joint made issued keys) b := by
  induction keys generalizing b issued with
  | nil => exact ⟨issued, rfl⟩
  | cons key rest ih =>
      obtain ⟨nonempty, others⟩ := List.forall_mem_cons.mp given
      have parameters : (Operator.select key).validate = .ok () := if_neg nonempty
      have accepted : (Operator.select key).accepts node.outputShape = true := by
        rw [dict]
        rfl
      have fits := fits_on found parameters rfl accepted
      refine .bind (addNode_eq_ok.mpr ⟨rfl, _, fits, rfl⟩) ?_
      refine .bind (issue_eq_ok.mpr ⟨rfl, _, node?_withNode b _ _ _, rfl⟩) ?_
      exact ih (node?_withNode_before found) others _

theorem atomic_evaluatorInputs (examples models : Channel) (params : SpanDriven) :
    Atomic (evaluatorInputs examples models params) := by
  apply (atomic_push _ _).bind
  intro b node between pushed
  obtain ⟨rfl, _, shapes, rfl⟩ := push_adds pushed
  exact succeeds_addSelections (node?_withNode b _ _ _) rfl _ (by decide) _

/-! ## Calls that can fail half-way -/

theorem not_negative_of_validate {range : StaticRange} {start : Int} (starts : range.startSpan = some start)
    (valid : (Operator.staticRange range).validate = .ok ()) : ¬start < 0 := by
  obtain ⟨_, _, checked⟩ := Steps.bind_eq_ok.mp valid
  rw [starts] at checked
  obtain ⟨_, positive, _⟩ := Steps.bind_eq_ok.mp checked
  intro negative
  rw [Operator.checkNotNegative, if_pos negative] at positive
  cases positive

/-- A fixed range that is accepted on a channel of this builder, but is too wide to be guarded. -/
structure Unguarded (b : Builder) (input : Channel) (range : StaticRange) : Prop where
  owned : b.owns input = true
  fits : b.graph.Fits b.graph.size (.staticRange range) [input.node] .list
  wide : ∃ start, range.startSpan = some start ∧ maxWidth < range.endSpan - start + 1

/-- A fixed range that fails leaves its node exactly if all that fails is its guard. -/
theorem staticRange_eq_error {input : Channel} {range : StaticRange}
    (failed : does (staticRange input range) b = (.error cause, after)) :
    (¬b.Unguarded input range ∧ after = b) ∨
      (b.Unguarded input range ∧ after = b.withNode (.staticRange range) [input.node] .list) := by
  rcases does_bind_eq_error.mp failed with early | ⟨node, between, pushed, late⟩
  · refine Or.inl ⟨fun unguarded => ?_, atomic_push _ _ b cause after early⟩
    have succeeds : Succeeds (push (.staticRange range) [input]) b := by
      apply succeeds_of_eq_ok
      apply push_eq_ok.mpr
      exact ⟨List.forall_mem_singleton.mpr unguarded.owned, addNode_eq_ok.mpr ⟨rfl, _, unguarded.fits, rfl⟩⟩
    exact succeeds.ne_error early
  · obtain ⟨owned, added⟩ := push_eq_ok.mp pushed
    obtain ⟨rfl, shape, fits, rfl⟩ := addNode_eq_ok.mp added
    obtain ⟨_, _, rfl⟩ := fits.sources
    cases starts : range.startSpan with
    | none =>
        rw [starts] at late
        exact absurd late (succeeds_issue (node?_withNode b _ _ _) _).ne_error
    | some start =>
        rw [starts] at late
        dsimp only at late
        split at late
        · next wide =>
          cases late
          exact Or.inr ⟨⟨owned input List.mem_cons_self, fits, start, starts, wide⟩, rfl⟩
        · have positive := not_negative_of_validate starts fits.parameters
          refine absurd late (succeeds_behind ?_ rfl rfl _).ne_error
          split
          · rfl
          · exact if_neg positive

def withOutputs (b : Builder) (pipeline : String) (keys : List String) : Builder :=
  keys.foldl (fun b key => b.withNode (.latestPipelineRunOutputs pipeline key) [] .list) b

def RefusesOutput (pipeline : String) (done : List String) (key : String) : Prop :=
  key ∈ done ∨ isBlank pipeline = true ∨ isBlank key = true

theorem fits_output {pipeline key : String} (named : ¬(isBlank pipeline || isBlank key) = true) :
    b.graph.Fits b.graph.size (.latestPipelineRunOutputs pipeline key) [] .list where
  parameters := if_neg named
  arity := rfl
  sources := ⟨[], .nil, rfl⟩

/-- Outputs fail at the first key that is refused, and the nodes of those before it stay. -/
theorem addOutputs_eq_error {pipeline : String} {issued : OrderedMap Channel} {keys : List String}
    (failed : does (addOutputs pipeline issued keys) b = (.error cause, after)) :
    ∃ done key rest, keys = done ++ key :: rest ∧ after = b.withOutputs pipeline done ∧
      RefusesOutput pipeline (issued.keys ++ done) key := by
  induction keys generalizing b issued with
  | nil => cases failed
  | cons key rest ih =>
      rw [addOutputs] at failed
      dsimp only at failed
      split at failed
      · next taken =>
        cases failed
        exact ⟨[], key, rest, rfl, rfl, Or.inl (List.mem_append_left _ (OrderedMap.contains_iff.mp taken))⟩
      · next free =>
        by_cases blank : (isBlank pipeline || isBlank key) = true
        · rcases does_bind_eq_error.mp failed with early | ⟨node, between, added, _⟩
          · rw [atomic_addNode _ _ b cause after early]
            exact ⟨[], key, rest, rfl, rfl, Or.inr (by simpa using blank)⟩
          · obtain ⟨_, _, fits, _⟩ := addNode_eq_ok.mp added
            have parameters := fits.parameters
            rw [Operator.validate, if_pos blank] at parameters
            cases parameters
        · have fits : b.graph.Fits b.graph.size (.latestPipelineRunOutputs pipeline key) [] .list := fits_output blank
          rw [does_bind, addNode_eq_ok.mpr ⟨rfl, _, fits, rfl⟩] at failed
          dsimp only at failed
          rw [does_bind, issue_eq_ok.mpr ⟨rfl, _, node?_withNode b _ _ _, rfl⟩] at failed
          obtain ⟨done, refused, later, split, left, reason⟩ := ih failed
          refine ⟨key :: done, refused, later, by rw [split, List.cons_append], left, ?_⟩
          have grown := OrderedMap.entries_insert (Bool.eq_false_iff.mpr free)
          rw [OrderedMap.keys, grown, List.map_append, List.append_assoc] at reason
          exact reason

theorem latestPipelineRunOutputs_eq_error {pipeline : String} {keys : List String}
    (failed : does (latestPipelineRunOutputs pipeline keys) b = (.error cause, after)) :
    (keys = [] ∧ after = b) ∨ ∃ done key rest, keys = done ++ key :: rest ∧ after = b.withOutputs pipeline done ∧
      RefusesOutput pipeline done key := by
  unfold latestPipelineRunOutputs at failed
  split at failed
  · next none =>
    cases failed
    exact Or.inl ⟨List.isEmpty_iff.mp none, rfl⟩
  · exact Or.inr (addOutputs_eq_error failed)

def withBindings (b : Builder) (entries : List (String × Channel)) : Builder :=
  entries.foldl (fun b entry =>
    { b with slots := b.slots.insert entry.1 (binding entry.2 (if entry.2.allowsEmpty then 0 else 1)) }) b

def RefusesBinding (b : Builder) (entry : String × Channel) : Prop :=
  b.owns entry.2 = false ∨ b.slots.contains entry.1 = true

theorem bind_eq_error {slot : String} {channel : Channel}
    (failed : does (bind slot channel) b = (.error cause, after)) : after = b ∧ b.RefusesBinding (slot, channel) := by
  refine ⟨atomic_bindWithMinCount _ _ _ b cause after failed, ?_⟩
  by_contra accepted
  unfold RefusesBinding at accepted
  push Not at accepted
  obtain ⟨owned, free⟩ := accepted
  have succeeds : Succeeds (bind slot channel) b :=
    succeeds_of_eq_ok (bindWithMinCount_eq_ok.mpr ⟨by simpa using owned, by simpa using free, rfl⟩)
  exact succeeds.ne_error failed

theorem bindEntries_eq_error {entries : List (String × Channel)}
    (failed : does (entries.forM fun entry => bind entry.1 entry.2) b = (.error cause, after)) :
    ∃ done entry rest, entries = done ++ entry :: rest ∧ after = b.withBindings done ∧ after.RefusesBinding entry := by
  induction entries generalizing b with
  | nil => cases failed
  | cons entry rest ih =>
      rw [List.forM_eq_forM] at ih failed
      rw [List.forM_cons] at failed
      rcases does_bind_eq_error.mp failed with early | ⟨_, between, first, late⟩
      · obtain ⟨rfl, refused⟩ := bind_eq_error early
        exact ⟨[], entry, rest, rfl, rfl, refused⟩
      · obtain ⟨_, _, rfl⟩ := bindWithMinCount_eq_ok.mp first
        obtain ⟨done, refused, later, split, left, reason⟩ := ih late
        exact ⟨entry :: done, refused, later, by rw [split, List.cons_append], left, reason⟩

/-! ## All calls -/

/-- What a failed call leaves of a builder: nothing has changed, save that an accepted range that is too wide to be guarded
leaves its node, outputs of a pipeline leave the nodes of the keys before the one that is refused, and bindings of several
channels leave those before the one that is refused. -/
def Leaves (b : Builder) : Call → Builder → Prop
  | .staticRange input range, after =>
      (¬b.Unguarded input range ∧ after = b) ∨
        (b.Unguarded input range ∧ after = b.withNode (.staticRange range) [input.node] .list)
  | .latestPipelineRunOutputs pipeline keys, after =>
      (keys = [] ∧ after = b) ∨ ∃ done key rest, keys = done ++ key :: rest ∧ after = b.withOutputs pipeline done ∧
        RefusesOutput pipeline done key
  | .bindAll channels, after =>
      ∃ done entry rest, channels.entries = done ++ entry :: rest ∧ after = b.withBindings done ∧
        after.RefusesBinding entry
  | _, after => after = b

/-- A call that fails leaves the builder as it was, unless it is one of the three that keep the steps before the one
that failed. -/
theorem leaves_of_perform_eq_error {call : Call} (failed : does call.perform b = (.error cause, after)) :
    b.Leaves call after := by
  cases call with
  | query q => exact (atomic_query q).discard b cause after failed
  | artifactQuery typeName => exact (atomic_query _).discard b cause after failed
  | latestCreated input n => exact (atomic_single _ _ _).discard b cause after failed
  | latestVersion input n => exact (atomic_single _ _ _).discard b cause after failed
  | allSpans input => exact (atomic_single _ _ _).discard b cause after failed
  | staticRange input range => exact staticRange_eq_error (does_discard_eq_error.mp failed)
  | rollingRange input range => exact (atomic_rollingRange input range).discard b cause after failed
  | sequentialRange input range => exact (atomic_single _ _ _).discard b cause after failed
  | shuffle input seed => exact (atomic_single _ _ _).discard b cause after failed
  | trainingRange models => exact (atomic_single _ _ _).discard b cause after failed
  | latestTrained input raiseSkipSignal =>
      exact (atomic_latestTrained input raiseSkipSignal).discard b cause after failed
  | latestPipelineRunOutputs pipeline keys =>
      exact latestPipelineRunOutputs_eq_error (does_discard_eq_error.mp failed)
  | evaluatorInputs examples models params =>
      exact (atomic_evaluatorInputs examples models params).discard b cause after failed
  | bindWithMinCount slot channel minCount => exact atomic_bindWithMinCount slot channel minCount b cause after failed
  | bind slot channel => exact atomic_bindWithMinCount slot channel _ b cause after failed
  | bindAll channels => exact bindEntries_eq_error failed

def withExamples : Builder :=
  (ofId 1).after [.artifactQuery "Examples"]

def examplesChannel : Channel :=
  Channel.ofQuery 1 0 "Examples"

def repeatedKey : Call :=
  .latestPipelineRunOutputs "training" ["model", "model"]

/-- A range that holds one span more than can be counted. -/
def widestRange : Call :=
  .staticRange examplesChannel ⟨some 0, maxWidth, false, []⟩

def foreignSecond : Call :=
  .bindAll (OrderedMap.ofList [("examples", examplesChannel), ("model", Channel.ofQuery 2 0 "Model")])

theorem leaves_of_perform_eq_error_repeatedKey :
    does repeatedKey.perform withExamples =
        (.error (.repeatedOutputKey "model"), (does repeatedKey.perform withExamples).2) ∧
      withExamples.Leaves repeatedKey (does repeatedKey.perform withExamples).2 := by
  have failed : does repeatedKey.perform withExamples =
    (.error (.repeatedOutputKey "model"), (does repeatedKey.perform withExamples).2) := by rfl
  exact ⟨failed, leaves_of_perform_eq_error failed⟩

/-- Calls that fail and leave another graph or other slots than they found. -/
theorem failed_calls_keep_steps :
    ((does widestRange.perform withExamples).1 = .error (.rangeTooWide 0 maxWidth) ∧
      (does widestRange.perform withExamples).2.graph ≠ withExamples.graph) ∧
    ((does repeatedKey.perform withExamples).1 = .error (.repeatedOutputKey "model") ∧
      (does repeatedKey.perform withExamples).2.graph ≠ withExamples.graph) ∧
    ((does foreignSecond.perform withExamples).1 = .error (.foreignChannel 0) ∧
      (does foreignSecond.perform withExamples).2.slots.keys ≠ withExamples.slots.keys) := by
  refine ⟨⟨by rfl, ?_⟩, ⟨by rfl, ?_⟩, ⟨by rfl, ?_⟩⟩ <;> decide +kernel

end InputResolution.Builder
