import InputResolution.Proofs.Lineage.Disorder

/-!
What questions of lineage ask for. They never query for artifacts, and the artifacts that they ask for by id are named
by executions of the snapshot.
-/

namespace InputResolution

namespace Snapshot

def Names (s : Snapshot) (id : Int) : Prop :=
  ∃ e ∈ s.executions, id ∈ e.inputIds ∨ id ∈ e.outputIds

instance (s : Snapshot) (id : Int) : Decidable (s.Names id) :=
  inferInstanceAs (Decidable (∃ e ∈ s.executions, id ∈ e.inputIds ∨ id ∈ e.outputIds))

/-- A request that goes along the edges of lineage. -/
def Follows (s : Snapshot) : Request → Prop
  | .artifacts _ => False
  | .lineage _ => True
  | .byId ids => ∀ id ∈ ids, s.Names id
  | .context _ _ => True

end Snapshot

namespace Lineage

variable {s : Snapshot}

theorem follows_producers (s : Snapshot) (artifact : Int) : (producers artifact).AsksOnly s.answer s.Follows :=
  ⟨trivial, trivial⟩

theorem follows_latestProducer (s : Snapshot) (artifact : Int) :
    (latestProducer artifact).AsksOnly s.answer s.Follows :=
  Reading.asksOnly_bind.mpr ⟨follows_producers s artifact, trivial⟩

theorem follows_trainerInputs {trainer : Execution} (held : trainer ∈ s.executions) (examplesType : String) :
    (trainerInputs trainer examplesType).AsksOnly s.answer s.Follows :=
  ⟨fun _ member => ⟨trainer, held, Or.inl (mem_distinctAscending.mp member)⟩, trivial⟩

theorem follows_trainingRange (s : Snapshot) (models : List Artifact) (examplesType : String) :
    (trainingRange models examplesType).AsksOnly s.answer s.Follows := by
  unfold trainingRange
  split
  · trivial
  · next model _ =>
    refine Reading.asksOnly_bind.mpr ⟨follows_latestProducer s model.id, ?_⟩
    split
    · trivial
    · next trainer known => exact follows_trainerInputs (mem_of_latestProducer known) examplesType

theorem follows_allProducers (s : Snapshot) (artifacts : List Artifact) :
    (allProducers artifacts).AsksOnly s.answer s.Follows := by
  unfold allProducers
  generalize ([] : List Execution) = known
  induction artifacts generalizing known with
  | nil => trivial
  | cons a rest ih =>
      rw [List.foldlM_cons]
      exact Reading.asksOnly_bind.mpr ⟨Reading.asksOnly_bind.mpr ⟨follows_producers s a.id, trivial⟩, ih _⟩

theorem follows_latestTrained (s : Snapshot) (artifacts : List Artifact) :
    (latestTrained artifacts).AsksOnly s.answer s.Follows := by
  refine Reading.asksOnly_bind.mpr ⟨follows_allProducers s artifacts, ?_⟩
  split <;> trivial

theorem mem_outputIds_of_mem_outputsOf {outputKey : String} {e : Execution} {id : Int}
    (member : id ∈ outputsOf outputKey e) : id ∈ e.outputIds := by
  unfold outputsOf at member
  cases found : e.outputs.get? outputKey with
  | none =>
      rw [found] at member
      cases member
  | some ids =>
      rw [found] at member
      exact List.mem_flatten.mpr ⟨ids, List.mem_map.mpr ⟨_, mem_of_lookup found, rfl⟩, member⟩

theorem follows_latestPipelineRunOutputs (s : Snapshot) (pipeline outputKey : String) :
    (latestPipelineRunOutputs pipeline outputKey).AsksOnly s.answer s.Follows := by
  refine Reading.asksOnly_bind.mpr ⟨Reading.asksOnly_request.mpr trivial, ?_⟩
  split
  · trivial
  · next context _ =>
    refine Reading.asksOnly_bind.mpr ⟨Reading.asksOnly_request.mpr trivial, ?_⟩
    split
    · trivial
    · next run latest =>
      have held : run ∈ s.executions :=
        (Snapshot.mem_lineage.mp (List.mem_filter.mp (mem_of_latestBy? latest)).1).1
      exact Reading.asksOnly_request.mpr fun id member => ⟨run, held, Or.inr (mem_outputIds_of_mem_outputsOf member)⟩

theorem follows_trainedModels (s : Snapshot) (models : List Artifact) :
    (trainedModels models).AsksOnly s.answer s.Follows := by
  induction models with
  | nil => trivial
  | cons model rest ih =>
      refine Reading.asksOnly_bind.mpr ⟨follows_latestProducer s model.id, ?_⟩
      exact Reading.asksOnly_bind.mpr ⟨ih, trivial⟩

theorem follows_firstTrainedBefore {candidates : List (Execution × Artifact)}
    (held : ∀ candidate ∈ candidates, candidate.1 ∈ s.executions) (cutoff : Int) :
    (firstTrainedBefore cutoff candidates).AsksOnly s.answer s.Follows := by
  induction candidates with
  | nil => trivial
  | cons first rest ih =>
      obtain ⟨here, later⟩ := List.forall_mem_cons.mp held
      refine Reading.asksOnly_bind.mpr ⟨follows_trainerInputs here _, ?_⟩
      split
      · trivial
      · exact ih later

theorem follows_evaluatorInputs (s : Snapshot) (examples models : List Artifact) (params : SpanDriven) :
    (evaluatorInputs examples models params).AsksOnly s.answer s.Follows := by
  unfold evaluatorInputs
  split
  · trivial
  · refine Reading.asksOnly_bind.mpr ⟨follows_trainedModels s models, ?_⟩
    refine Reading.asksOnly_bind.mpr ⟨follows_firstTrainedBefore ?_ _, trivial⟩
    intro candidate member
    have trained := mem_trainedModels ((latestFirst_perm _).mem_iff.mp member)
    exact mem_of_latestProducer trained.2

end Lineage

end InputResolution
