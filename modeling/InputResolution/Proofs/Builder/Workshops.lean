import InputResolution.Proofs.Builder.Failures
import InputResolution.Proofs.Builder.Sessions

/-!
Several builders at once. A builder knows a channel by the id of its builder and the place of its node, so it accepts
the channels of all builders with its id. New builders get ids that were not given before, and refuse each other's
channels. A copy has the id of the builder that it was made from; each of the two takes channels of the other for its own
as soon as it has a node at their place, whatever node that is.
-/

namespace InputResolution

namespace Builder

variable {α β : Type} {b : Builder} {channel : Channel}

def Refuses (b : Builder) (call : Building α) : Prop :=
  ∃ cause after, does call b = (.error cause, after) ∧ cause.kind = .invalidArgument

theorem Refuses.bind {first : Building α} (refuses : b.Refuses first) (next : α → Building β) :
    b.Refuses (first >>= next) := by
  obtain ⟨cause, after, failed, kind⟩ := refuses
  exact ⟨cause, after, does_bind_eq_error.mpr (Or.inl failed), kind⟩

theorem refuses_checkOwned (foreign : b.owns channel = false) : b.Refuses (checkOwned channel) := by
  refine ⟨.foreignChannel channel.node, b, ?_, rfl⟩
  unfold checkOwned
  rw [does_bind, does_get]
  dsimp only
  rw [foreign]
  rfl

theorem refuses_checkAll {channels : List Channel} (given : channel ∈ channels) (foreign : b.owns channel = false) :
    b.Refuses (channels.forM checkOwned) := by
  rw [List.forM_eq_forM]
  induction channels with
  | nil => cases given
  | cons first rest ih =>
      rw [List.forM_cons]
      cases owned : b.owns first with
      | false => exact (refuses_checkOwned owned).bind _
      | true =>
          rcases List.mem_cons.mp given with rfl | later
          · cases owned.symm.trans foreign
          · obtain ⟨cause, after, failed, kind⟩ := ih later
            exact ⟨cause, after,
              does_bind_eq_error.mpr (Or.inr ⟨⟨⟩, b, checkOwned_eq_ok.mpr ⟨owned, rfl⟩, failed⟩), kind⟩

theorem refuses_push {op : Operator} {inputs : List Channel} (given : channel ∈ inputs)
    (foreign : b.owns channel = false) : b.Refuses (push op inputs) :=
  (refuses_checkAll given foreign).bind _

theorem refuses_bindWithMinCount {slot : String} {minCount : Nat} (foreign : b.owns channel = false) :
    b.Refuses (bindWithMinCount slot channel minCount) :=
  (refuses_checkOwned foreign).bind _

/-- A foreign channel stops the bindings, unless another refusal has stopped them before. -/
theorem refuses_bindEntries {entries : List (String × Channel)} {entry : String × Channel} (given : entry ∈ entries)
    (foreign : b.owns entry.2 = false) : b.Refuses (entries.forM fun entry => bind entry.1 entry.2) := by
  rw [List.forM_eq_forM]
  induction entries generalizing b with
  | nil => cases given
  | cons first rest ih =>
      rw [List.forM_cons]
      rcases done : does (bind first.1 first.2) b with ⟨cause | ⟨⟩, after⟩
      · exact Refuses.bind ⟨cause, after, done, (bindWithMinCount_refused done).2⟩ _
      · obtain ⟨owned, _, same⟩ := bindWithMinCount_eq_ok.mp done
        rcases List.mem_cons.mp given with rfl | later
        · cases owned.symm.trans foreign
        · have still : after.owns entry.2 = false := same ▸ foreign
          obtain ⟨cause, last, failed, kind⟩ := ih later still
          exact ⟨cause, last, does_bind_eq_error.mpr (Or.inr ⟨⟨⟩, _, done, failed⟩), kind⟩

/-- No call accepts a foreign channel. -/
theorem refuses_perform {call : Call} (given : channel ∈ call.channels) (foreign : b.owns channel = false) :
    b.Refuses call.perform := by
  cases call with
  | query q => cases given
  | artifactQuery typeName => cases given
  | latestPipelineRunOutputs pipeline keys => cases given
  | bindWithMinCount slot held minCount =>
      cases List.mem_singleton.mp given
      exact refuses_bindWithMinCount foreign
  | bind slot held =>
      cases List.mem_singleton.mp given
      exact refuses_bindWithMinCount foreign
  | bindAll channels =>
      obtain ⟨entry, member, rfl⟩ := List.mem_map.mp given
      exact refuses_bindEntries member foreign
  | _ => exact ((refuses_push given foreign).bind _).bind _

end Builder

/-- Builders in use, and the id that the next new one gets. -/
structure Workshop where
  nextId : Nat
  sessions : List Session

namespace Workshop

/-- A new builder, a copy of a builder, or a call on a builder; builders are named by their places. -/
inductive Act where
  | create
  | copy (place : Nat)
  | call (place : Nat) (call : Builder.Call)

def Act.isCopy : Act → Bool
  | copy _ => true
  | _ => false

def act (w : Workshop) : Act → Workshop
  | .create => ⟨w.nextId + 1, w.sessions ++ [Session.start w.nextId]⟩
  | .copy place => ⟨w.nextId, w.sessions ++ w.sessions[place]?.toList⟩
  | .call place call => ⟨w.nextId, w.sessions.modify place fun s => s.call call⟩

def after (acts : List Act) : Workshop :=
  acts.foldl act ⟨1, []⟩

variable {w : Workshop}

theorem id_call (s : Session) (call : Builder.Call) : (s.call call).builder.id = s.builder.id :=
  (Builder.grows_perform s.builder call).extends.id

structure Sound (w : Workshop) : Prop where
  honours : ∀ s ∈ w.sessions, s.Honours
  given : ∀ s ∈ w.sessions, s.builder.id < w.nextId

def ids (w : Workshop) : List Nat :=
  w.sessions.map fun s => s.builder.id

theorem mem_act {s : Session} {next : Act} (member : s ∈ (w.act next).sessions) :
    s ∈ w.sessions ∨ (next = .create ∧ s = Session.start w.nextId) ∨ ∃ t ∈ w.sessions, ∃ call, s = t.call call := by
  cases next with
  | create =>
      rcases List.mem_append.mp member with before | made
      · exact Or.inl before
      · exact Or.inr (Or.inl ⟨rfl, List.mem_singleton.mp made⟩)
  | copy place =>
      rcases List.mem_append.mp member with before | copied
      · exact Or.inl before
      · exact Or.inl (List.mem_of_getElem? (Option.mem_toList.mp copied))
  | call place call =>
      obtain ⟨here, found⟩ := List.mem_iff_getElem?.mp member
      rw [act, List.getElem?_modify] at found
      obtain ⟨t, there, rfl⟩ := Option.map_eq_some_iff.mp found
      by_cases same : place = here
      · exact Or.inr (Or.inr ⟨t, List.mem_of_getElem? there, call, if_pos same⟩)
      · exact Or.inl (List.mem_of_getElem? (there.trans (congrArg some (if_neg same).symm)))

theorem nextId_le_act (w : Workshop) (next : Act) : w.nextId ≤ (w.act next).nextId := by
  cases next with
  | create => exact Nat.le_succ _
  | copy place => exact Nat.le_refl _
  | call place call => exact Nat.le_refl _

theorem Sound.act (sound : w.Sound) (next : Act) : (w.act next).Sound := by
  constructor
  · intro s member
    rcases mem_act member with before | ⟨_, rfl⟩ | ⟨t, there, call, rfl⟩
    · exact sound.honours s before
    · exact fun _ issued => nomatch issued
    · exact (sound.honours t there).call call
  · intro s member
    have grown := nextId_le_act w next
    rcases mem_act member with before | ⟨rfl, rfl⟩ | ⟨t, there, call, rfl⟩
    · exact (sound.given s before).trans_le grown
    · exact Nat.lt_succ_self _
    · rw [id_call]
      exact (sound.given t there).trans_le grown

theorem Sound.foldl (sound : w.Sound) (acts : List Act) : (acts.foldl Workshop.act w).Sound := by
  induction acts generalizing w with
  | nil => exact sound
  | cons next rest ih => exact ih (sound.act next)

theorem sound_after (acts : List Act) : (after acts).Sound :=
  Sound.foldl ⟨List.forall_mem_nil _, List.forall_mem_nil _⟩ acts

theorem ids_modify (sessions : List Session) (place : Nat) (call : Builder.Call) :
    (sessions.modify place fun s => s.call call).map (fun s => s.builder.id) = sessions.map fun s => s.builder.id := by
  apply List.ext_getElem?
  intro here
  rw [List.getElem?_map, List.getElem?_map, List.getElem?_modify]
  cases sessions[here]? with
  | none => rfl
  | some s =>
      by_cases same : place = here
      · simp [same, id_call]
      · simp [same]

/-- Without copies all builders have ids of their own. -/
theorem Sound.nodup_ids (sound : w.Sound) (distinct : w.ids.Nodup) {next : Act} (fresh : next.isCopy = false) :
    (w.act next).ids.Nodup := by
  cases next with
  | copy place => cases fresh
  | call place call =>
      change ((w.sessions.modify place _).map _).Nodup
      rw [ids_modify]
      exact distinct
  | create =>
      change ((w.sessions ++ [_]).map _).Nodup
      rw [List.map_append]
      refine List.nodup_append.mpr ⟨distinct, List.nodup_singleton _, ?_⟩
      intro id member other single
      obtain ⟨s, there, rfl⟩ := List.mem_map.mp member
      rw [List.mem_singleton.mp single]
      exact Nat.ne_of_lt (sound.given s there)

theorem nodup_ids_after {acts : List Act} (fresh : ∀ next ∈ acts, next.isCopy = false) : (after acts).ids.Nodup := by
  have run : ∀ w : Workshop, w.Sound → w.ids.Nodup → (acts.foldl act w).ids.Nodup := by
    induction acts with
    | nil => exact fun _ _ distinct => distinct
    | cons next rest ih =>
        obtain ⟨here, later⟩ := List.forall_mem_cons.mp fresh
        exact fun w sound distinct => ih later (w.act next) (sound.act next) (sound.nodup_ids distinct here)
  exact run ⟨1, []⟩ (sound_after []) List.nodup_nil

/-- Whatever is done, a builder accepts what it has issued itself, or what the builder has issued that it was copied from
before that, and such a channel names the node that it named at first. It refuses every channel of a builder with another
id. Builders have different ids if no builder is ever copied. -/
theorem owns_after (acts : List Act) :
    (∀ s ∈ (after acts).sessions, ∀ issue ∈ s.issues, s.builder.owns issue.channel = true ∧
      ∃ node, issue.node = some node ∧ s.builder.graph.node? issue.channel.node = some node) ∧
    (∀ s ∈ (after acts).sessions, ∀ other ∈ (after acts).sessions, s.builder.id ≠ other.builder.id →
      ∀ issue ∈ other.issues, ∀ call : Builder.Call, issue.channel ∈ call.channels →
        ∃ cause left, Builder.does call.perform s.builder = (.error cause, left) ∧ cause.kind = .invalidArgument) ∧
    ((∀ next ∈ acts, next.isCopy = false) → (after acts).ids.Nodup) := by
  have sound := sound_after acts
  refine ⟨fun s member issue issued => ?_, fun s member other there apart issue issued call given => ?_, nodup_ids_after⟩
  · have honours := sound.honours s member issue issued
    obtain ⟨node, found, _⟩ := honours.names.node
    refine ⟨?_, node, honours.same.symm.trans found, found⟩
    simp [Builder.owns, honours.names.builder, found]
  · have names := (sound.honours other there issue issued).names
    apply Builder.refuses_perform given
    simp [Builder.owns, names.builder, Ne.symm apart]

def twoBuilders : List Act :=
  [.create, .create, .call 0 (.artifactQuery "Examples")]

def firstChannel : Channel :=
  Channel.ofQuery 1 0 "Examples"

theorem owns_after_twoBuilders :
    (after twoBuilders).ids.Nodup ∧
      (∃ s ∈ (after twoBuilders).sessions, s.builder.owns firstChannel = true) ∧
      ∃ s ∈ (after twoBuilders).sessions, ∃ cause left,
        Builder.does (Builder.Call.bind "examples" firstChannel).perform s.builder = (.error cause, left) ∧
          cause.kind = .invalidArgument := by
  have first : (after twoBuilders).sessions[0]? = some ((Session.start 1).call (.artifactQuery "Examples")) := rfl
  have second : (after twoBuilders).sessions[1]? = some (Session.start 2) := rfl
  have issuer := List.mem_of_getElem? first
  have other := List.mem_of_getElem? second
  obtain ⟨accepts, refuses, distinct⟩ := owns_after twoBuilders
  refine ⟨distinct (by decide), ⟨_, issuer, (accepts _ issuer _ List.mem_cons_self).1⟩, _, other, ?_⟩
  exact refuses _ other _ issuer (by decide) _ List.mem_cons_self (.bind "examples" firstChannel) List.mem_cons_self

/-- A builder and its copy, each with a query of its own under the same number. -/
def diverged : List Act :=
  [.create, .copy 0, .call 0 (.artifactQuery "Examples"), .call 1 (.artifactQuery "Model")]

/-- A copy accepts a channel of the builder that it was copied from, and takes it for its own query. -/
theorem copy_confuses_channels :
    ¬∀ acts : List Act, ∀ s ∈ (after acts).sessions, ∀ other ∈ (after acts).sessions, ∀ issue ∈ other.issues,
      s.builder.owns issue.channel = true → s.builder.graph.node? issue.channel.node = issue.node := by
  intro sound
  have first : (after diverged).sessions[0]? = some ((Session.start 1).call (.artifactQuery "Examples")) := rfl
  have second : (after diverged).sessions[1]? = some ((Session.start 1).call (.artifactQuery "Model")) := rfl
  have same := sound diverged _ (List.mem_of_getElem? second) _ (List.mem_of_getElem? first) _ List.mem_cons_self rfl
  revert same
  decide

end Workshop

end InputResolution
