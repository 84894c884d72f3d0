import InputResolution.Proofs.Lineage.Latest

/-!
What the runs of a pipeline published. Under each key the latest run with outputs there decides, and they are shown in
the order of its event. Runs without outputs under the key, runs of other pipelines and the order of the records have
no part in it; and it may be read from the snapshot itself or through a cache that was used before for anything else.
-/

namespace InputResolution

def RunContext.IsPipeline (name : String) (c : RunContext) : Prop :=
  c.typeName = "pipeline" ∧ c.name = name

instance (name : String) (c : RunContext) : Decidable (c.IsPipeline name) :=
  inferInstanceAs (Decidable (c.typeName = "pipeline" ∧ c.name = name))

namespace Snapshot

variable {s : Snapshot} {typeName name : String} {c : RunContext}

def DistinctContexts (s : Snapshot) : Prop :=
  (s.contexts.map fun c => (c.typeName, c.name)).Nodup

instance (s : Snapshot) : Decidable s.DistinctContexts :=
  inferInstanceAs (Decidable (s.contexts.map fun c => (c.typeName, c.name)).Nodup)

theorem context?_eq_none_iff :
    s.context? typeName name = none ↔ ∀ c ∈ s.contexts, ¬(c.typeName = typeName ∧ c.name = name) := by
  rw [context?, List.find?_eq_none]
  simp

theorem mem_of_context? (found : s.context? typeName name = some c) :
    c ∈ s.contexts ∧ c.typeName = typeName ∧ c.name = name :=
  ⟨List.mem_of_find?_eq_some found, by simpa using List.find?_some found⟩

theorem DistinctContexts.context?_eq_some (named : s.DistinctContexts) (member : c ∈ s.contexts)
    (ofType : c.typeName = typeName) (ofName : c.name = name) : s.context? typeName name = some c := by
  cases found : s.context? typeName name with
  | none => exact absurd ⟨ofType, ofName⟩ (context?_eq_none_iff.mp found c member)
  | some d =>
      obtain ⟨there, sameType, sameName⟩ := mem_of_context? found
      have same : (d.typeName, d.name) = (c.typeName, c.name) := by rw [sameType, sameName, ofType, ofName]
      rw [List.inj_on_of_nodup_map named there member same]

def knows (s : Snapshot) (id : Int) : Bool :=
  s.artifacts.any fun a => a.id = id

/-- The list shows what the snapshot holds under these ids: an artifact for each id that is known, in the order of the
ids. -/
structure ShowsUnder (s : Snapshot) (ids : List Int) (shown : List Artifact) : Prop where
  held : ∀ a ∈ shown, a ∈ s.artifacts
  ids : shown.map Artifact.id = ids.filter s.knows

theorem map_id_byId (s : Snapshot) (ids : List Int) :
    (s.answer (.byId ids)).map Artifact.id = ids.filter s.knows := by
  change (ids.filterMap s.artifact?).map Artifact.id = _
  induction ids with
  | nil => rfl
  | cons id rest ih =>
      cases known : s.artifact? id with
      | none =>
          have absent : ¬s.knows id = true := by
            rw [artifact?, List.find?_eq_none] at known
            simpa [knows] using known
          rw [List.filterMap_cons_none known, List.filter_cons_of_neg absent, ih]
      | some a =>
          obtain ⟨held, same⟩ := mem_of_artifact? known
          have present : s.knows id = true := List.any_eq_true.mpr ⟨a, held, decide_eq_true same⟩
          rw [List.filterMap_cons_some known, List.filter_cons_of_pos present, List.map_cons, ih, same]

theorem showsUnder_byId (s : Snapshot) (ids : List Int) : s.ShowsUnder ids (s.answer (.byId ids)) :=
  ⟨fun _ => Lineage.mem_of_byId, s.map_id_byId ids⟩

end Snapshot

namespace Lineage

variable {s t : Snapshot} {pipeline outputKey : String} {c : RunContext} {run : Execution} {shown : List Artifact}

/-- The execution ran in the context and put something under the key. -/
def Publishes (c : RunContext) (outputKey : String) (e : Execution) : Prop :=
  c.id ∈ e.contexts ∧ outputsOf outputKey e ≠ []

instance (c : RunContext) (outputKey : String) (e : Execution) : Decidable (Publishes c outputKey e) :=
  inferInstanceAs (Decidable (c.id ∈ e.contexts ∧ outputsOf outputKey e ≠ []))

/-! ## The ways to end -/

theorem mem_published (s : Snapshot) (c : RunContext) (outputKey : String) (e : Execution) :
    e ∈ (s.answer (.lineage (.context c.id))).filter (fun e => !(outputsOf outputKey e).isEmpty) ↔
      e ∈ s.executions ∧ Publishes c outputKey e := by
  change e ∈ (s.lineage (.context c.id)).filter _ ↔ _
  rw [List.mem_filter, Snapshot.mem_lineage, Snapshot.related, Publishes, and_assoc]
  simp

theorem latestPipelineRunOutputs_of_context (found : s.context? "pipeline" pipeline = some c) :
    (latestPipelineRunOutputs pipeline outputKey).value s.answer =
      match latestBy? Execution.creationKey
        ((s.answer (.lineage (.context c.id))).filter fun e => !(outputsOf outputKey e).isEmpty) with
      | none => []
      | some run => s.answer (.byId (outputsOf outputKey run)) := by
  have known : s.answer (.context pipelineContextType pipeline) = some c := found
  rw [latestPipelineRunOutputs, Reading.value_bind, Reading.value_request, known]
  dsimp only
  rw [Reading.value_bind, Reading.value_request]
  cases latestBy? Execution.creationKey
      ((s.answer (.lineage (.context c.id))).filter fun e => !(outputsOf outputKey e).isEmpty) with
  | none => rfl
  | some run => rfl

theorem latestPipelineRunOutputs_of_unknown (unknown : ∀ c ∈ s.contexts, ¬c.IsPipeline pipeline) :
    (latestPipelineRunOutputs pipeline outputKey).value s.answer = [] := by
  have missing : s.answer (.context pipelineContextType pipeline) = none := Snapshot.context?_eq_none_iff.mpr unknown
  rw [latestPipelineRunOutputs, Reading.value_bind, Reading.value_request, missing]
  rfl

theorem latestPipelineRunOutputs_of_unpublished (found : s.context? "pipeline" pipeline = some c)
    (unpublished : ∀ e ∈ s.executions, ¬Publishes c outputKey e) :
    (latestPipelineRunOutputs pipeline outputKey).value s.answer = [] := by
  rw [latestPipelineRunOutputs_of_context found,
    (Snapshot.latestBy?_eq_none_iff (mem_published s c outputKey)).mpr unpublished]

theorem latestPipelineRunOutputs_of_latest (distinct : s.DistinctExecutions)
    (found : s.context? "pipeline" pipeline = some c) (latest : s.Latest (Publishes c outputKey) run) :
    (latestPipelineRunOutputs pipeline outputKey).value s.answer = s.answer (.byId (outputsOf outputKey run)) := by
  rw [latestPipelineRunOutputs_of_context found,
    (Snapshot.latestBy?_eq_some_iff (mem_published s c outputKey) distinct).mpr latest]

/-! ## What it depends on -/

/-- Only the executions that publish under the key in the context of the pipeline matter, and not their order. -/
theorem latestPipelineRunOutputs_congr (distinct : s.DistinctExecutions) (also : t.DistinctExecutions)
    (artifacts : t.artifacts = s.artifacts) (contexts : t.contexts = s.contexts)
    (same : ∀ c ∈ s.contexts, c.IsPipeline pipeline → ∀ e, Publishes c outputKey e →
      (e ∈ t.executions ↔ e ∈ s.executions)) :
    (latestPipelineRunOutputs pipeline outputKey).value t.answer =
      (latestPipelineRunOutputs pipeline outputKey).value s.answer := by
  have lookup : t.context? "pipeline" pipeline = s.context? "pipeline" pipeline := by
    rw [Snapshot.context?, Snapshot.context?, contexts]
  cases found : s.context? "pipeline" pipeline with
  | none =>
      have unknown : ∀ c ∈ s.contexts, ¬c.IsPipeline pipeline := Snapshot.context?_eq_none_iff.mp found
      rw [latestPipelineRunOutputs_of_unknown unknown, latestPipelineRunOutputs_of_unknown (contexts ▸ unknown)]
  | some c =>
      obtain ⟨member, here⟩ := Snapshot.mem_of_context? found
      have agree := same c member here
      rw [found] at lookup
      rcases s.latest_cases (Publishes c outputKey) with unpublished | ⟨run, latest⟩
      · rw [latestPipelineRunOutputs_of_unpublished found unpublished,
          latestPipelineRunOutputs_of_unpublished lookup fun e held published =>
            unpublished e ((agree e published).mp held) published]
      · have there : t.Latest (Publishes c outputKey) run :=
          ⟨(agree run latest.fits).mpr latest.held, latest.fits, fun other held published =>
            latest.last other ((agree other published).mp held) published⟩
        rw [latestPipelineRunOutputs_of_latest distinct found latest,
          latestPipelineRunOutputs_of_latest also lookup there]
        change List.filterMap t.artifact? _ = List.filterMap s.artifact? _
        apply List.filterMap_congr
        intro id _
        rw [Snapshot.artifact?, Snapshot.artifact?, artifacts]

/-! ## The law -/

structure ShowsLatestRun (s : Snapshot) (pipeline outputKey : String) (shown : List Artifact) : Prop where
  unknown : (∀ c ∈ s.contexts, ¬c.IsPipeline pipeline) → shown = []
  unpublished : ∀ c ∈ s.contexts, c.IsPipeline pipeline → (∀ e ∈ s.executions, ¬Publishes c outputKey e) → shown = []
  latest : ∀ c ∈ s.contexts, c.IsPipeline pipeline → (∃ e ∈ s.executions, Publishes c outputKey e) →
    ∃ run, s.Latest (Publishes c outputKey) run ∧ s.ShowsUnder (outputsOf outputKey run) shown

theorem showsLatestRun (distinct : s.DistinctExecutions) (named : s.DistinctContexts) (pipeline outputKey : String) :
    ShowsLatestRun s pipeline outputKey ((latestPipelineRunOutputs pipeline outputKey).value s.answer) where
  unknown := latestPipelineRunOutputs_of_unknown
  unpublished c member here :=
    latestPipelineRunOutputs_of_unpublished (named.context?_eq_some member here.1 here.2)
  latest c member here := by
    rintro ⟨e, held, published⟩
    rcases s.latest_cases (Publishes c outputKey) with unpublished | ⟨run, latest⟩
    · exact absurd published (unpublished e held)
    · refine ⟨run, latest, ?_⟩
      rw [latestPipelineRunOutputs_of_latest distinct (named.context?_eq_some member here.1 here.2) latest]
      exact s.showsUnder_byId _

/-- What the latest run published is shown in the order of its event. Runs without outputs under the key, runs of other
pipelines and the order of the executions do not change it; nor does it matter whether it is read from a source in front
of the snapshot that answers lineage in any order, or through a cache after any other requests. -/
theorem latestPipelineRunOutputs_law (distinct : s.Distinct) (named : s.DistinctContexts)
    (given : (latestPipelineRunOutputs pipeline outputKey).value s.answer = shown) :
    ShowsLatestRun s pipeline outputKey shown ∧
      (∀ t : Snapshot, t.artifacts = s.artifacts → t.contexts = s.contexts → t.DistinctExecutions →
        (∀ c ∈ s.contexts, c.IsPipeline pipeline → ∀ e, Publishes c outputKey e →
          (e ∈ t.executions ↔ e ∈ s.executions)) →
        (latestPipelineRunOutputs pipeline outputKey).value t.answer = shown) ∧
      (∀ (σ : Type) (source : Source σ) (state : σ), s.AnsweredBy source →
        ((latestPipelineRunOutputs pipeline outputKey).run source state).1 = .ok shown) ∧
      ∀ (σ : Type) (source : Source σ) (state : σ) (earlier : List Request), s.ShownBy source →
        ((latestPipelineRunOutputs pipeline outputKey).run (Cache.through source)
          ((Cache.through source).session earlier (Cache.empty, state)).2).1 = .ok shown := by
  subst given
  have settled := settles_latestPipelineRunOutputs distinct pipeline outputKey
  refine ⟨showsLatestRun distinct.executions named pipeline outputKey, ?_, ?_, ?_⟩
  · intro t artifacts contexts also same
    exact latestPipelineRunOutputs_congr distinct.executions also artifacts contexts same
  · intro σ source state answers
    obtain ⟨found, after, ran, rfl⟩ := settled.run answers state
    rw [ran]
  · intro σ source state earlier shown
    have used := (Cache.reflects_empty s).session distinct.artifacts shown earlier state
    obtain ⟨found, after, later, ran, rfl⟩ := used.run distinct.artifacts shown settled _
    rw [ran]

/-- Runs of a nightly pipeline and one of a weekly pipeline. Of the nightly runs the second is the latest that published
a model: the third left the key empty. The second run published one model twice, and names an id that is not known. -/
def nightlyRuns : Snapshot where
  artifacts := [1, 2, 3].map fun id => ⟨id, "Model", "", .live, SortedMap.empty, Instant.ofSeconds id⟩
  executions := [(4, [1], 2), (3, [], 1), (1, [1], 1), (2, [3, 9, 2, 3], 1)].map fun (id, models, context) =>
    ⟨id, "Producer", Instant.ofSeconds id, OrderedMap.empty, OrderedMap.ofList [("log", [1]), ("model", models)],
      [context]⟩
  contexts := [⟨1, "pipeline", "nightly"⟩, ⟨2, "pipeline", "weekly"⟩]

def firstRuns : Snapshot :=
  { nightlyRuns with executions := nightlyRuns.executions.drop 2 }

def earlierRequests : List Request :=
  [.byId [2, 7], .lineage (.artifact 3), .context "pipeline" "weekly", .byId [1]]

theorem latestPipelineRunOutputs_law_nightlyRuns :
    nightlyRuns.Distinct ∧ nightlyRuns.DistinctContexts ∧
      (latestPipelineRunOutputs "nightly" "model").value nightlyRuns.answer = nightlyRuns.answer (.byId [3, 2, 3]) ∧
      ShowsLatestRun nightlyRuns "nightly" "model" (nightlyRuns.answer (.byId [3, 2, 3])) ∧
      (latestPipelineRunOutputs "nightly" "model").value firstRuns.answer = nightlyRuns.answer (.byId [3, 2, 3]) ∧
      ((latestPipelineRunOutputs "nightly" "model").run nightlyRuns.source 0).1 =
        .ok (nightlyRuns.answer (.byId [3, 2, 3])) ∧
      ((latestPipelineRunOutputs "nightly" "model").run (Cache.through nightlyRuns.source)
        ((Cache.through nightlyRuns.source).session earlierRequests (Cache.empty, 0)).2).1 =
          .ok (nightlyRuns.answer (.byId [3, 2, 3])) := by
  have distinct : nightlyRuns.Distinct := ⟨by decide, by decide⟩
  have named : nightlyRuns.DistinctContexts := by decide
  have given : (latestPipelineRunOutputs "nightly" "model").value nightlyRuns.answer =
      nightlyRuns.answer (.byId [3, 2, 3]) := by decide +kernel
  have kept : ∀ c ∈ nightlyRuns.contexts, c.IsPipeline "nightly" → ∀ e ∈ nightlyRuns.executions,
      Publishes c "model" e → e ∈ firstRuns.executions := by decide +kernel
  obtain ⟨shows, others, direct, cached⟩ := latestPipelineRunOutputs_law distinct named given
  refine ⟨distinct, named, given, shows, others firstRuns rfl rfl (by decide) ?_, direct Nat _ 0 ?_, cached Nat _ 0 _ ?_⟩
  · intro c member here e published
    exact ⟨List.mem_of_mem_drop, fun held => kept c member here e held published⟩
  · exact fun request state => ⟨_, _, rfl, nightlyRuns.admits_answer request⟩
  · exact Snapshot.shownBy_of_perm distinct.artifacts (List.Perm.refl _) (List.Perm.refl _) rfl

end Lineage

end InputResolution
