import InputResolution.Proofs.Evaluation.Reachable
import InputResolution.Proofs.Lineage.Requests
import InputResolution.Proofs.Snapshot.Changes

/-!
Artifacts that a resolution does not see. Its requests are the queries of the inputs that it needs, and questions of
lineage. So an artifact that none of these queries accepts, and that no execution names, may be stored without any
effect on the result.
-/

namespace InputResolution

/-! ## Snapshots -/

def Request.Overlooks (x : Artifact) : Request → Prop
  | .artifacts query => query.accepts x = false
  | .lineage _ => True
  | .byId ids => x.id ∉ ids
  | .context _ _ => True

namespace Snapshot

variable {s : Snapshot} {x : Artifact}

def Lacks (s : Snapshot) (id : Int) : Prop :=
  ∀ a ∈ s.artifacts, a.id ≠ id

instance (s : Snapshot) (id : Int) : Decidable (s.Lacks id) :=
  inferInstanceAs (Decidable (∀ a ∈ s.artifacts, a.id ≠ id))

theorem Lacks.insertArtifact_artifacts (lacks : s.Lacks x.id) :
    (s.insertArtifact x).artifacts = s.artifacts ++ [x] := by
  have all : s.artifacts.filter (fun a => a.id ≠ x.id) = s.artifacts :=
    List.filter_eq_self.mpr fun a member => decide_eq_true (lacks a member)
  exact congrArg (· ++ [x]) all

theorem Lacks.artifact?_insertArtifact (lacks : s.Lacks x.id) {id : Int} (other : x.id ≠ id) :
    (s.insertArtifact x).artifact? id = s.artifact? id := by
  rw [artifact?, lacks.insertArtifact_artifacts, List.find?_append]
  simp [artifact?, other]

theorem Lacks.answer_insertArtifact (lacks : s.Lacks x.id) {r : Request} (overlooks : r.Overlooks x) :
    (s.insertArtifact x).answer r = s.answer r := by
  cases r with
  | artifacts query =>
      change (s.insertArtifact x).artifacts.filter query.accepts = s.artifacts.filter query.accepts
      rw [lacks.insertArtifact_artifacts, List.filter_append, List.filter_cons_of_neg (ne_true_of_eq_false overlooks)]
      exact List.append_nil _
  | lineage anchor => rfl
  | byId ids =>
      apply List.filterMap_congr
      intro id member
      exact lacks.artifact?_insertArtifact fun same => overlooks (same ▸ member)
  | context typeName name => rfl

theorem Follows.overlooks {r : Request} (follows : s.Follows r) (unnamed : ¬s.Names x.id) : r.Overlooks x := by
  cases r with
  | artifacts query => exact follows.elim
  | byId ids => exact fun member => unnamed (follows x.id member)
  | lineage anchor => trivial
  | context typeName name => trivial

end Snapshot

/-! ## Requests of an evaluation -/

variable {s : Snapshot}

def Node.Reads (s : Snapshot) (node : Node) (r : Request) : Prop :=
  (∃ query, node.op = .input query ∧ r = .artifacts query) ∨ s.Follows r

namespace Node

theorem asksOnly_listOf {kind : Request → Prop} {reading : Reading (List Artifact)}
    (asks : reading.AsksOnly s.answer kind) : (listOf reading).AsksOnly s.answer kind :=
  Reading.asksOnly_bind.mpr ⟨asks, trivial⟩

theorem asksOnly_proceed {α : Type} {kind : Request → Prop} {value : Evaluated α}
    {next : α → Reading (Evaluated NodeValue)} (asks : ∀ a, (next a).AsksOnly s.answer kind) :
    (proceed value next).AsksOnly s.answer kind := by
  cases value with
  | error halt => trivial
  | ok a => exact asks a

theorem asksOnly_value (s : Snapshot) (seeding : Seeding) (node : Node) (values : List NodeValue) :
    (node.value seeding values).AsksOnly s.answer (node.Reads s) := by
  have follows : ∀ {α : Type} {reading : Reading α}, reading.AsksOnly s.answer s.Follows →
      reading.AsksOnly s.answer (node.Reads s) := fun asks => asks.mono fun _ => Or.inr
  obtain ⟨id, op, inputs, shape⟩ := node
  cases op with
  | input query => exact ⟨Or.inl ⟨query, rfl, rfl⟩, trivial⟩
  | latestPipelineRunOutputs pipeline outputKey =>
      exact asksOnly_listOf (follows (Lineage.follows_latestPipelineRunOutputs s pipeline outputKey))
  | trainingRange examplesType =>
      refine asksOnly_proceed fun models => ?_
      exact asksOnly_listOf (follows (Lineage.follows_trainingRange s models examplesType))
  | latestTrained =>
      exact asksOnly_proceed fun artifacts => asksOnly_listOf (follows (Lineage.follows_latestTrained s artifacts))
  | evaluatorInputs params =>
      refine asksOnly_proceed fun examples => asksOnly_proceed fun models => ?_
      exact Reading.asksOnly_bind.mpr ⟨follows (Lineage.follows_evaluatorInputs s examples models params), trivial⟩
  | _ => trivial

end Node

namespace Graph

variable {g : Graph} {kind : Request → Prop}

theorem asksOnly_step {id : Nat} (reads : ∀ node, g.node? id = some node → ∀ r, node.Reads s r → kind r)
    (seeding : Seeding) (known : List (Nat × NodeValue)) : (g.step seeding known id).AsksOnly s.answer kind := by
  unfold step
  cases found : g.node? id with
  | none => trivial
  | some node =>
      exact Node.asksOnly_proceed fun values => (Node.asksOnly_value s seeding node values).mono (reads node found)

theorem asksOnly_evaluate {order : List Nat}
    (reads : ∀ id ∈ order, ∀ node, g.node? id = some node → ∀ r, node.Reads s r → kind r)
    (seeding : Seeding) (known : List (Nat × NodeValue)) : (g.evaluate seeding known order).AsksOnly s.answer kind := by
  induction order generalizing known with
  | nil => trivial
  | cons id rest ih =>
      obtain ⟨here, later⟩ := List.forall_mem_cons.mp reads
      rw [evaluate_cons]
      refine Reading.asksOnly_bind.mpr ⟨asksOnly_step here seeding known, ?_⟩
      split
      · trivial
      · exact ih later _

end Graph

/-! ## Resolutions -/

namespace ResolutionContext

variable {context : ResolutionContext} {seeding other : Seeding} {x : Artifact} {σ : Type}

/-- Every request of a resolution is one that some needed node reads with. -/
theorem Valid.asksOnly_resolution (valid : context.Valid) (s : Snapshot) (seeding : Seeding) :
    ∃ reading, context.resolution seeding = .ok reading ∧ reading.AsksOnly s.answer fun r =>
      ∃ id node, context.Needs id ∧ context.graph.node? id = some node ∧ node.Reads s r := by
  obtain ⟨order, found, _⟩ := valid.scheduled
  have needed := (Graph.ancestors_spec found).2
  refine ⟨_, valid.resolution_eq found seeding, ?_⟩
  refine Reading.asksOnly_bind.mpr ⟨Graph.asksOnly_evaluate ?_ seeding [], trivial⟩
  exact fun id member node here r reads => ⟨id, node, (needed id).mp member, here, reads⟩

/-- Against a snapshot the result is the value of the plan of reads. -/
theorem resolve_eq_value (distinct : s.DistinctArtifacts) {reading : Reading (Except ResolveError Outcome)}
    (planned : context.resolution seeding = .ok reading) (state : σ) :
    context.resolve s.source seeding state = (reading.value s.answer, state) := by
  obtain ⟨cache, _, ran⟩ := Cache.run_through distinct (Cache.coherent_empty s) reading state
  simp only [resolve, planned, ran]

/-- An artifact with a new id that no execution names and that no query of a needed input accepts makes no
difference. -/
theorem resolve_insertArtifact (accepted : context.validate = .ok ()) (distinct : s.DistinctArtifacts)
    (lacks : s.Lacks x.id) (unnamed : ¬s.Names x.id)
    (overlooks : ∀ id node query, context.Needs id → context.graph.node? id = some node → node.op = .input query →
      query.accepts x = false)
    (seeded : context.Seeded seeding) (common : other.common = seeding.common) (state : σ) :
    context.resolve (s.insertArtifact x).source other state = context.resolve s.source seeding state := by
  have valid := validate_eq_ok.mp accepted
  have plan := valid.resolution_congr valid rfl (fun _ _ => rfl) seeded common
  obtain ⟨reading, planned, asks⟩ := valid.asksOnly_resolution s seeding
  have same : reading.value (s.insertArtifact x).answer = reading.value s.answer := by
    refine asks.value_eq ?_
    rintro r ⟨id, node, needed, found, ⟨query, named, rfl⟩ | follows⟩
    · exact lacks.answer_insertArtifact (overlooks id node query needed found named)
    · exact lacks.answer_insertArtifact (follows.overlooks unnamed)
  rw [resolve_eq_value (distinct.insertArtifact x) (plan.trans planned) state, same]
  exact (resolve_eq_value distinct planned state).symm

def modelOnTwo : Snapshot :=
  Snapshot.threeSpans.afterAll
    [.putArtifact "Model" [], .putExecution "Trainer" [("examples", [1, 2])] [("model", [4])] []]

def trainedOn : ResolutionContext where
  graph := ⟨[⟨0, .input (Query.ofType "Model"), [], .list⟩, ⟨1, .trainingRange "Examples", [0], .list⟩,
    ⟨2, .input (Query.ofType "Examples"), [], .list⟩]⟩
  slots := OrderedMap.ofList [("examples", SlotBinding.required 1)]

def lateExample : Artifact :=
  ⟨9, "Examples", "", .live, SortedMap.ofList [("span", .int 1)], Instant.ofSeconds 9999999999⟩

theorem resolve_insertArtifact_lateExample :
    trainedOn.validate = .ok () ∧ modelOnTwo.DistinctArtifacts ∧ modelOnTwo.Lacks lateExample.id ∧
      ¬modelOnTwo.Names lateExample.id ∧ (Query.ofType "Examples").accepts lateExample = true ∧
      trainedOn.Seeded ⟨none, fun _ => 0⟩ ∧
      trainedOn.resolve (modelOnTwo.insertArtifact lateExample).source ⟨none, fun _ => 8⟩ 7 =
        trainedOn.resolve modelOnTwo.source ⟨none, fun _ => 0⟩ 7 := by
  have needed : ∀ id, trainedOn.Needs id → id = 0 ∨ id = 1 := fun id need => by
    simpa [or_comm] using Graph.Reaches.mem_of_closed [0, 1] (by decide) (by decide) need
  have overlooks : ∀ id node query, trainedOn.Needs id → trainedOn.graph.node? id = some node →
      node.op = .input query → query.accepts lateExample = false := by
    rintro id node query need found named
    rcases needed id need with rfl | rfl <;> cases found <;> cases named
    decide
  have seeded : trainedOn.Seeded ⟨none, fun _ => 0⟩ := by
    rintro id node need found own shuffles
    rcases needed id need with rfl | rfl <;> cases found <;> cases shuffles
  have accepted : trainedOn.validate = .ok () := rfl
  have distinct : modelOnTwo.DistinctArtifacts := by decide +kernel
  have lacks : modelOnTwo.Lacks lateExample.id := by decide +kernel
  have unnamed : ¬modelOnTwo.Names lateExample.id := by decide +kernel
  have common : (⟨none, fun _ => 8⟩ : Seeding).common = (⟨none, fun _ => 0⟩ : Seeding).common := rfl
  exact ⟨accepted, distinct, lacks, unnamed, by decide +kernel, seeded,
    resolve_insertArtifact accepted distinct lacks unnamed overlooks seeded common 7⟩

end ResolutionContext

end InputResolution
