import InputResolution.Proofs.Cache.Disorder
import InputResolution.Proofs.Lineage.EvaluatorInputs
import InputResolution.Proofs.Window.Permutation

/-!
Questions of lineage do not depend on the order of answers, nor on that of the artifacts that they are about. Ids tell
the records of a snapshot apart, so the latest of several is settled by which of them there are. A question then ends
for all admitted answers as it does for those of the snapshot itself.
-/

namespace InputResolution

/-! ## Creation -/

theorem Artifact.id_eq_of_creationKey_eq {a b : Artifact} (same : a.creationKey = b.creationKey) : a.id = b.id :=
  (List.cons.inj (List.cons.inj (List.cons.inj same).2).2).1

theorem Execution.id_eq_of_creationKey_eq {d e : Execution} (same : d.creationKey = e.creationKey) : d.id = e.id :=
  (List.cons.inj (List.cons.inj (List.cons.inj same).2).2).1

namespace Snapshot

def DistinctExecutions (s : Snapshot) : Prop :=
  (s.executions.map Execution.id).Nodup

instance (s : Snapshot) : Decidable s.DistinctExecutions :=
  inferInstanceAs (Decidable (s.executions.map Execution.id).Nodup)

structure Distinct (s : Snapshot) : Prop where
  artifacts : s.DistinctArtifacts
  executions : s.DistinctExecutions

variable {s : Snapshot}

theorem DistinctExecutions.eq_of_id_eq (distinct : s.DistinctExecutions) {d e : Execution} (first : d ∈ s.executions)
    (second : e ∈ s.executions) (same : d.id = e.id) : d = e :=
  List.inj_on_of_nodup_map distinct first second same

theorem DistinctArtifacts.apart (distinct : s.DistinctArtifacts) : Distinguishes Artifact.creationKey s.artifacts :=
  fun _ first _ second same => List.inj_on_of_nodup_map distinct first second (Artifact.id_eq_of_creationKey_eq same)

theorem DistinctExecutions.apart (distinct : s.DistinctExecutions) : Distinguishes Execution.creationKey s.executions :=
  fun _ first _ second same => distinct.eq_of_id_eq first second (Execution.id_eq_of_creationKey_eq same)

/-- The list is the other one in some order, and the snapshot holds its artifacts. -/
structure Rearranges (s : Snapshot) (artifacts expected : List Artifact) : Prop where
  perm : artifacts.Perm expected
  held : ∀ a ∈ artifacts, a ∈ s.artifacts

theorem Rearranges.apart {artifacts expected : List Artifact} (rearranges : s.Rearranges artifacts expected)
    (distinct : s.Distinct) : Distinguishes Artifact.creationKey artifacts :=
  distinct.artifacts.apart.subset rearranges.held

theorem mem_lineage {anchor : Anchor} {e : Execution} :
    e ∈ s.lineage anchor ↔ e ∈ s.executions ∧ related anchor e = true := by
  rw [lineage, (sortBy_perm _ _).mem_iff, List.mem_filter]

/-! ## Readings that are settled -/

/-- For all admitted answers the reading ends as the other one does for those of the snapshot. -/
def Settles {α : Type} (s : Snapshot) (reading expected : Reading α) : Prop :=
  reading.EnsuresUnder s.Admits fun a => a = expected.value s.answer

variable {α β : Type}

theorem settles_pure (a : α) : s.Settles (pure a) (pure a) :=
  rfl

theorem Settles.bind {first expected : Reading α} (settled : s.Settles first expected) {next after : α → Reading β}
    (rest : ∀ a, s.Settles (next a) (after a)) : s.Settles (first >>= next) (expected >>= after) := by
  refine Reading.EnsuresUnder.bind (Reading.EnsuresUnder.mono settled ?_)
  rintro a rfl
  rw [Reading.value_bind]
  exact rest _

theorem settles_byId (ids : List Int) : s.Settles (Reading.request (.byId ids)) (Reading.request (.byId ids)) :=
  fun _ admitted => admitted

theorem settles_context (typeName name : String) :
    s.Settles (Reading.request (.context typeName name)) (Reading.request (.context typeName name)) :=
  fun _ admitted => admitted

theorem settles_lineage_bind {anchor : Anchor} {next : List Execution → Reading α}
    (rest : ∀ found, found.Perm (s.lineage anchor) → s.Settles (next found) (next (s.lineage anchor))) :
    s.Settles (Reading.request (.lineage anchor) >>= next) (Reading.request (.lineage anchor) >>= next) :=
  fun found admitted => rest found admitted

end Snapshot

namespace Lineage

variable {s : Snapshot}

/-! ## Producers -/

theorem mem_producers (s : Snapshot) (artifact : Int) :
    (producers artifact).EnsuresUnder s.Admits fun found =>
      ∀ e, e ∈ found ↔ e ∈ s.executions ∧ e.produced artifact = true := by
  intro touching admitted e
  have members := (List.Perm.mem_iff admitted (a := e)).trans Snapshot.mem_lineage
  rw [List.mem_filter, members, Snapshot.related, Bool.or_eq_true, and_assoc]
  exact and_congr_right fun _ => and_iff_right_of_imp Or.inl

theorem settles_latestProducer (distinct : s.Distinct) (artifact : Int) :
    s.Settles (latestProducer artifact) (latestProducer artifact) := by
  have members := mem_producers s artifact
  refine Reading.EnsuresUnder.bind (members.mono fun found producing => ?_)
  have expected := members.value s.admits_answer
  change latestBy? _ found = latestBy? _ _
  apply latestBy?_eq_of_mem_iff
  · exact distinct.executions.apart.subset fun e member => ((producing e).mp member).1
  · exact fun e => (producing e).trans (expected e).symm

theorem mem_addNew (distinct : s.DistinctExecutions) {known found : List Execution} (old : ∀ e ∈ known, e ∈ s.executions)
    (new : ∀ e ∈ found, e ∈ s.executions) (e : Execution) : e ∈ addNew known found ↔ e ∈ known ∨ e ∈ found := by
  induction found generalizing known with
  | nil => exact (or_iff_left (List.not_mem_nil)).symm
  | cons first rest ih =>
      obtain ⟨here, later⟩ := List.forall_mem_cons.mp new
      rw [addNew, List.foldl_cons, ← addNew, List.mem_cons, ← or_assoc]
      split
      · next seen =>
        obtain ⟨other, member, same⟩ := List.any_eq_true.mp seen
        obtain rfl := distinct.eq_of_id_eq (old other member) here (of_decide_eq_true same)
        have absorbed : e ∈ known ∨ e = other ↔ e ∈ known := or_iff_left_of_imp fun equal => equal ▸ member
        rw [ih old later, absorbed]
      · have grown : ∀ e ∈ known ++ [first], e ∈ s.executions := by
          intro e member
          rcases List.mem_append.mp member with before | last
          · exact old e before
          · exact List.mem_singleton.mp last ▸ here
        rw [ih grown later, List.mem_append, List.mem_singleton]

/-- The executions that are found are those that produced any of the artifacts, whatever the order of the answers. -/
theorem mem_allProducers (distinct : s.DistinctExecutions) (artifacts : List Artifact) :
    (allProducers artifacts).EnsuresUnder s.Admits fun found =>
      ∀ e, e ∈ found ↔ e ∈ s.executions ∧ ∃ a ∈ artifacts, e.produced a.id = true := by
  -- The walk starts from any executions that are held, as the induction needs those found for earlier artifacts.
  have step : ∀ known : List Execution, (∀ e ∈ known, e ∈ s.executions) →
      (artifacts.foldlM (fun known a => return addNew known (← producers a.id)) known : Reading _).EnsuresUnder
        s.Admits fun found =>
          ∀ e, e ∈ found ↔ e ∈ known ∨ e ∈ s.executions ∧ ∃ a ∈ artifacts, e.produced a.id = true := by
    induction artifacts with
    | nil => exact fun known _ e => by simp
    | cons a rest ih =>
        intro known old
        rw [List.foldlM_cons]
        refine Reading.EnsuresUnder.bind (Reading.EnsuresUnder.bind ?_)
        refine (mem_producers s a.id).mono fun found producing => ?_
        have members := mem_addNew distinct old fun e member => ((producing e).mp member).1
        have grown : ∀ e ∈ addNew known found, e ∈ s.executions := by
          intro e member
          rcases (members e).mp member with before | new
          · exact old e before
          · exact ((producing e).mp new).1
        refine (ih _ grown).mono fun all collected e => ?_
        rw [collected, members, producing, or_assoc, ← and_or_left, List.exists_mem_cons_iff]
  exact (step [] (fun _ member => nomatch member)).mono fun found members e => by simpa using members e

/-! ## Questions about artifacts -/

variable {artifacts expected : List Artifact}

theorem settles_trainerInputs (s : Snapshot) (trainer : Execution) (examplesType : String) :
    s.Settles (trainerInputs trainer examplesType) (trainerInputs trainer examplesType) :=
  (Snapshot.settles_byId _).bind fun _ => Snapshot.settles_pure _

theorem settles_trainingRange (distinct : s.Distinct) (rearranges : s.Rearranges artifacts expected)
    (examplesType : String) :
    s.Settles (trainingRange artifacts examplesType) (trainingRange expected examplesType) := by
  have latest := latestBy?_eq_of_mem_iff (rearranges.apart distinct) fun _ => rearranges.perm.mem_iff
  unfold trainingRange
  rw [latest]
  cases latestBy? Artifact.creationKey expected with
  | none => exact Snapshot.settles_pure []
  | some model =>
      refine (settles_latestProducer distinct model.id).bind fun found => ?_
      cases found with
      | none => exact Snapshot.settles_pure []
      | some trainer => exact settles_trainerInputs s trainer examplesType

theorem settles_latestTrained (distinct : s.Distinct) (rearranges : s.Rearranges artifacts expected) :
    s.Settles (latestTrained artifacts) (latestTrained expected) := by
  refine Reading.EnsuresUnder.bind ((mem_allProducers distinct.executions artifacts).mono fun found producing => ?_)
  have expecting := (mem_allProducers distinct.executions expected).value s.admits_answer
  have same : ∀ e, e ∈ found ↔ e ∈ (allProducers expected).value s.answer := by
    intro e
    rw [producing, expecting]
    exact and_congr_right fun _ => exists_congr fun a => and_congr_left fun _ => rearranges.perm.mem_iff
  have latest := latestBy?_eq_of_mem_iff
    (distinct.executions.apart.subset fun e member => ((producing e).mp member).1) same
  rw [latestTrained, Reading.value_bind, ← latest]
  cases latestBy? Execution.creationKey found with
  | none => rfl
  | some trainer =>
      have apart := Window.distinguishes_filter (rearranges.apart distinct) fun a => trainer.produced a.id
      have sorted := sortBy_eq_of_perm apart (rearranges.perm.filter _)
      exact congrArg (List.eraseRepsBy fun a b => a.id == b.id) sorted

theorem settles_latestPipelineRunOutputs (distinct : s.Distinct) (pipeline outputKey : String) :
    s.Settles (latestPipelineRunOutputs pipeline outputKey) (latestPipelineRunOutputs pipeline outputKey) := by
  refine (Snapshot.settles_context _ _).bind fun found => ?_
  cases found with
  | none => exact Snapshot.settles_pure []
  | some context =>
      refine Snapshot.settles_lineage_bind fun runs perm => ?_
      have kept := perm.filter fun e => !(outputsOf outputKey e).isEmpty
      have apart : Distinguishes Execution.creationKey (runs.filter fun e => !(outputsOf outputKey e).isEmpty) :=
        distinct.executions.apart.subset fun e member =>
          (Snapshot.mem_lineage.mp (perm.mem_iff.mp (List.mem_filter.mp member).1)).1
      rw [latestBy?_eq_of_mem_iff apart fun _ => kept.mem_iff]
      cases latestBy? Execution.creationKey ((s.lineage (.context context.id)).filter _) with
      | none => exact Snapshot.settles_pure []
      | some run => exact Snapshot.settles_byId _

/-! ## Joint inputs -/

theorem settles_trainedModels (distinct : s.Distinct) (models : List Artifact) :
    s.Settles (trainedModels models) (trainedModels models) := by
  induction models with
  | nil => exact Snapshot.settles_pure []
  | cons model rest ih =>
      exact (settles_latestProducer distinct model.id).bind fun _ => ih.bind fun _ => Snapshot.settles_pure _

theorem value_trainedModels (answer : (r : Request) → r.Answer) (models : List Artifact) :
    (trainedModels models).value answer = models.flatMap fun model =>
      ((latestProducer model.id).value answer).toList.map fun trainer => (trainer, model) := by
  induction models with
  | nil => rfl
  | cons model rest ih =>
      rw [trainedModels, Reading.value_bind, Reading.value_bind, Reading.value_pure, ih, List.flatMap_cons]

theorem pairwise_latestFirst (candidates : List (Execution × Artifact)) :
    (latestFirst candidates).Pairwise fun c d => trainingKey d ≤ trainingKey c :=
  List.pairwise_reverse.mpr (pairwise_sortBy trainingKey _)

theorem latestFirst_eq_of_perm {candidates others : List (Execution × Artifact)}
    (apart : Distinguishes trainingKey candidates) (perm : candidates.Perm others) :
    latestFirst candidates = latestFirst others := by
  have reversed : Distinguishes trainingKey candidates.reverse :=
    apart.subset fun _ member => List.mem_reverse.mp member
  have rearranged : candidates.reverse.Perm others.reverse :=
    candidates.reverse_perm.trans (perm.trans others.reverse_perm.symm)
  exact congrArg List.reverse (sortBy_eq_of_perm reversed rearranged)

theorem mem_of_latestProducer {artifact : Int} {trainer : Execution}
    (known : (latestProducer artifact).value s.answer = some trainer) : trainer ∈ s.executions :=
  ((mem_producers s artifact).value s.admits_answer trainer |>.mp (mem_of_latestBy? known)).1

/-- A trained model and its trainer are told apart from others by the times at which they were created. -/
theorem distinguishes_trainingKey (distinct : s.Distinct) {models : List Artifact}
    (held : ∀ a ∈ models, a ∈ s.artifacts) : Distinguishes trainingKey ((trainedModels models).value s.answer) := by
  intro c first d second same
  obtain ⟨firstModel, firstTrainer⟩ := mem_trainedModels first
  obtain ⟨secondModel, secondTrainer⟩ := mem_trainedModels second
  obtain ⟨trainers, artifacts⟩ := List.append_inj same rfl
  have sameTrainer := distinct.executions.apart c.1 (mem_of_latestProducer firstTrainer) d.1
    (mem_of_latestProducer secondTrainer) trainers
  have sameModel := distinct.artifacts.apart c.2 (held _ firstModel) d.2 (held _ secondModel) artifacts
  exact Prod.ext sameTrainer sameModel

theorem settles_firstTrainedBefore (s : Snapshot) (cutoff : Int) (candidates : List (Execution × Artifact)) :
    s.Settles (firstTrainedBefore cutoff candidates) (firstTrainedBefore cutoff candidates) := by
  induction candidates with
  | nil => exact Snapshot.settles_pure []
  | cons first rest ih =>
      obtain ⟨trainer, model⟩ := first
      refine (settles_trainerInputs s trainer _).bind fun trainedOn => ?_
      split
      · exact Snapshot.settles_pure [model]
      · exact ih

theorem max?_eq_of_perm {xs ys : List Int} (perm : xs.Perm ys) : xs.max? = ys.max? := by
  cases found : ys.max? with
  | none =>
      rw [List.max?_eq_none_iff] at found ⊢
      exact List.perm_nil.mp (found ▸ perm)
  | some best =>
      rw [List.max?_eq_some_iff] at found ⊢
      exact ⟨perm.mem_iff.mpr found.1, fun x member => found.2 x (perm.mem_iff.mp member)⟩

theorem settles_evaluatorInputs (distinct : s.Distinct) {examples others models candidates : List Artifact}
    (shown : s.Rearranges examples others) (known : s.Rearranges models candidates) (params : SpanDriven) :
    s.Settles (evaluatorInputs examples models params) (evaluatorInputs others candidates params) := by
  have newest := max?_eq_of_perm ((shown.perm.filterMap Artifact.span?).filter fun span =>
    decide (params.startSpan ≤ span))
  unfold evaluatorInputs
  rw [newest]
  cases ((others.filterMap Artifact.span?).filter fun span => decide (params.startSpan ≤ span)).max? with
  | none => exact Snapshot.settles_pure _
  | some newest =>
      have apart := Window.distinguishes_filter (shown.apart distinct) fun a =>
        a.span?.any fun span => params.windowStart newest ≤ span && span ≤ params.windowEnd newest
      have window := Window.latestVersions_eq_of_perm apart (shown.perm.filter _)
      have trained : ((trainedModels models).value s.answer).Perm ((trainedModels candidates).value s.answer) := by
        rw [value_trainedModels, value_trainedModels]
        exact known.perm.flatMap_right _
      -- The search below stops at the first fit, so the candidates have to come in one order.
      have ordered := latestFirst_eq_of_perm (distinguishes_trainingKey distinct known.held) trained
      dsimp only
      rw [window]
      refine Reading.EnsuresUnder.bind ((settles_trainedModels distinct models).mono ?_)
      rintro found rfl
      rw [Reading.value_bind, ordered]
      exact (settles_firstTrainedBefore s _ _).bind fun _ => Snapshot.settles_pure _

/-! ## Members -/

variable {a : Artifact}

theorem mem_of_byId {ids : List Int} (member : a ∈ s.answer (.byId ids)) : a ∈ s.artifacts := by
  obtain ⟨id, _, known⟩ := List.mem_filterMap.mp member
  exact (Snapshot.mem_of_artifact? known).1

theorem mem_of_trainingRange {models : List Artifact} {examplesType : String}
    (member : a ∈ (trainingRange models examplesType).value s.answer) : a ∈ s.artifacts := by
  unfold trainingRange at member
  split at member
  · cases member
  · next model _ =>
    rw [Reading.value_bind] at member
    split at member
    · cases member
    · exact mem_of_byId (List.mem_filter.mp (Window.mem_spanSorted.mp member).1).1

theorem mem_of_latestTrained (member : a ∈ (latestTrained artifacts).value s.answer) : a ∈ artifacts := by
  rw [latestTrained, Reading.value_bind] at member
  split at member
  · cases member
  · exact (List.mem_filter.mp ((sortBy_perm _ _).mem_iff.mp (mem_of_eraseRepsBy member))).1

theorem mem_of_latestPipelineRunOutputs {pipeline outputKey : String}
    (member : a ∈ (latestPipelineRunOutputs pipeline outputKey).value s.answer) : a ∈ s.artifacts := by
  rw [latestPipelineRunOutputs, Reading.value_bind] at member
  split at member
  · cases member
  · rw [Reading.value_bind] at member
    split at member
    · cases member
    · exact mem_of_byId member

theorem mem_of_evaluatorInputs {examples models : List Artifact} {params : SpanDriven} {found : EvaluatorInputs}
    (given : (evaluatorInputs examples models params).value s.answer = found) :
    (∀ a ∈ found.examples, a ∈ examples) ∧ ∀ a ∈ found.model, a ∈ models := by
  rcases evaluatorInputs_cases s.answer examples models params given with rfl | ⟨newest, _, shown, chosen⟩
  · exact ⟨nofun, nofun⟩
  · refine ⟨fun a member => (shown a member).1, fun a member => ?_⟩
    rcases chosen with none | ⟨model, among, single, _⟩
    · rw [none] at member
      cases member
    · rw [single] at member
      exact List.mem_singleton.mp member ▸ among

end Lineage

end InputResolution
