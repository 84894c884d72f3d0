import InputResolution.Proofs.Lineage.LatestTrained

/-!
What a training saw. It lists the inputs of one execution that the snapshot holds, by spans and each once. If the models
that were trained last are asked what they were trained on, the execution is the latest one that produced any of the
models to begin with: the newest of the models that it produced has no later producer.
-/

namespace InputResolution

namespace Snapshot

variable {s : Snapshot}

/-- Asking for ids finds the artifacts that have them. -/
theorem DistinctArtifacts.mem_byId (distinct : s.DistinctArtifacts) {ids : List Int} {a : Artifact} :
    a ∈ s.answer (.byId ids) ↔ a ∈ s.artifacts ∧ a.id ∈ ids := by
  constructor
  · intro member
    obtain ⟨id, among, known⟩ := List.mem_filterMap.mp member
    obtain ⟨held, rfl⟩ := mem_of_artifact? known
    exact ⟨held, among⟩
  · rintro ⟨held, among⟩
    exact List.mem_filterMap.mpr ⟨a.id, among, distinct.artifact?_eq held⟩

theorem nodup_byId {ids : List Int} (distinct : ids.Nodup) : (s.answer (.byId ids)).Nodup := by
  refine List.Nodup.filterMap (fun id other a first second => ?_) distinct
  exact (mem_of_artifact? first).2.symm.trans (mem_of_artifact? second).2

end Snapshot

namespace Lineage

variable {s : Snapshot} {models shown : List Artifact} {latest trainer : Execution} {examplesType : String}

def SeenBy (s : Snapshot) (trainer : Execution) (examplesType : String) (a : Artifact) : Prop :=
  a ∈ s.artifacts ∧ a.typeName = examplesType ∧ a.span?.isSome = true ∧ a.id ∈ trainer.inputIds

theorem lists_trainerInputs (distinct : s.DistinctArtifacts) (trainer : Execution) (examplesType : String) :
    Lists Artifact.spanKey (SeenBy s trainer examplesType) ((trainerInputs trainer examplesType).value s.answer) := by
  rw [trainerInputs, Reading.value_bind, Reading.value_pure, Reading.value_request]
  generalize inputs : s.answer (.byId (distinctAscending trainer.inputIds)) = found
  have members : ∀ a, a ∈ found ↔ a ∈ s.artifacts ∧ a.id ∈ trainer.inputIds := by
    intro a
    rw [← inputs, distinct.mem_byId, mem_distinctAscending]
  have once : (Window.spanned (found.filter fun a => a.typeName = examplesType)).Nodup :=
    ((inputs ▸ Snapshot.nodup_byId (nodup_distinctAscending _)).filter _).filter _
  have apart : Distinguishes Artifact.spanKey (Window.spanned (found.filter fun a => a.typeName = examplesType)) := by
    refine Window.distinguishes_spanKey (distinct.apart.subset fun a member => ?_) fun a member =>
      (List.mem_filter.mp member).2
    exact ((members a).mp (List.mem_filter.mp (List.mem_filter.mp member).1).1).1
  have lists := lists_sortBy apart once
  refine ⟨fun a => (lists.mem_iff a).trans ?_, lists.ascending⟩
  rw [Window.spanned, List.mem_filter, List.mem_filter, members, decide_eq_true_iff, SeenBy]
  tauto

/-- The latest of all producers is also the latest producer of each model that it produced. -/
theorem latestProducer_of_latest (distinct : s.DistinctExecutions)
    (trained : s.Latest (Execution.ProducedAny models) latest) {model : Artifact} (among : model ∈ models)
    (produced : latest.produced model.id = true) : (latestProducer model.id).value s.answer = some latest :=
  (latestProducer_eq_some_iff distinct).mpr <| trained.of_imp produced fun _ also => ⟨model, among, also⟩

theorem trainingRange_latestTrained_eq (distinct : s.DistinctExecutions) (told : ToldApart models)
    (trained : s.Latest (Execution.ProducedAny models) latest) :
    (trainingRange ((latestTrained models).value s.answer) examplesType).value s.answer =
      (trainerInputs latest examplesType).value s.answer := by
  have lists := latestTrained_of_latest distinct told trained
  cases newest : latestBy? Artifact.creationKey ((latestTrained models).value s.answer) with
  | none =>
      obtain ⟨a, member⟩ := exists_mem_latestTrained distinct told trained
      rw [eq_nil_of_latestBy? newest] at member
      cases member
  | some model =>
      obtain ⟨among, produced⟩ := (lists.mem_iff model).mp (mem_of_latestBy? newest)
      exact trainingRange_eq newest (latestProducer_of_latest distinct trained among produced)

/-- What the models that were trained last were trained on: nothing if no model was ever produced, and otherwise what the
latest execution to produce any of the models consumed of the type, by spans and each artifact once. -/
theorem trainingRange_latestTrained (distinct : s.Distinct) (held : ∀ model ∈ models, model ∈ s.artifacts)
    (given : (latestTrained models >>= fun trained => trainingRange trained examplesType).value s.answer = shown) :
    ((∀ e ∈ s.executions, ¬e.ProducedAny models) → shown = []) ∧
      ((∃ e ∈ s.executions, e.ProducedAny models) → ∃ latest, s.Latest (Execution.ProducedAny models) latest ∧
        Lists Artifact.spanKey (SeenBy s latest examplesType) shown) := by
  have told := toldApart_of_held distinct.artifacts held
  rw [Reading.value_bind] at given
  subst given
  rcases s.latest_cases (Execution.ProducedAny models) with untrained | ⟨latest, trained⟩
  · refine ⟨fun _ => ?_, fun ⟨e, held, produced⟩ => absurd produced (untrained e held)⟩
    rw [latestTrained_of_none distinct.executions untrained]
    rfl
  · refine ⟨fun untrained => absurd trained.fits (untrained latest trained.held), fun _ => ⟨latest, trained, ?_⟩⟩
    rw [trainingRange_latestTrained_eq distinct.executions told trained]
    exact lists_trainerInputs distinct.artifacts latest examplesType

theorem trainingRange_latestTrained_repeatedModels :
    Snapshot.twoTrainings.Distinct ∧ (∀ model ∈ repeatedModels, model ∈ Snapshot.twoTrainings.artifacts) ∧
      (latestTrained repeatedModels >>= fun trained => trainingRange trained "Examples").value
        Snapshot.twoTrainings.answer = Snapshot.twoTrainings.answer (.byId [1, 2]) ∧
      ∃ latest, Snapshot.twoTrainings.Latest (Execution.ProducedAny repeatedModels) latest ∧
        Lists Artifact.spanKey (SeenBy Snapshot.twoTrainings latest "Examples")
          (Snapshot.twoTrainings.answer (.byId [1, 2])) := by
  have distinct : Snapshot.twoTrainings.Distinct := ⟨by decide, by decide⟩
  have held : ∀ model ∈ repeatedModels, model ∈ Snapshot.twoTrainings.artifacts := by decide +kernel
  have given : (latestTrained repeatedModels >>= fun trained => trainingRange trained "Examples").value
      Snapshot.twoTrainings.answer = Snapshot.twoTrainings.answer (.byId [1, 2]) := by decide +kernel
  have trained : ∃ e ∈ Snapshot.twoTrainings.executions, e.ProducedAny repeatedModels := by decide +kernel
  exact ⟨distinct, held, given, (trainingRange_latestTrained distinct held given).2 trained⟩

end Lineage

end InputResolution
