import InputResolution.Proofs.Lineage.Latest

/-!
What was trained last. Of all executions that produced any of the artifacts the latest one decides: the answer is what
it produced among them, each artifact once and in creation order. Only which artifacts there are matters, and to ask
again about the answer gives the answer.
-/

namespace InputResolution.Lineage

variable {s : Snapshot} {artifacts others shown : List Artifact} {latest : Execution}

/-- Artifacts with one id are the same; an artifact may occur several times. -/
def ToldApart (artifacts : List Artifact) : Prop :=
  ∀ a ∈ artifacts, ∀ b ∈ artifacts, a.id = b.id → a = b

instance (artifacts : List Artifact) : Decidable (ToldApart artifacts) :=
  inferInstanceAs (Decidable (∀ a ∈ artifacts, ∀ b ∈ artifacts, a.id = b.id → a = b))

theorem ToldApart.subset (told : ToldApart artifacts) (fewer : ∀ a ∈ others, a ∈ artifacts) : ToldApart others :=
  fun a first b second => told a (fewer a first) b (fewer b second)

theorem toldApart_of_held (distinct : s.DistinctArtifacts) (held : ∀ a ∈ artifacts, a ∈ s.artifacts) :
    ToldApart artifacts :=
  fun a first b second => List.inj_on_of_nodup_map distinct (held a first) (held b second)

/-! ## The two ways to end -/

theorem latestTrained_of_none (distinct : s.DistinctExecutions)
    (untrained : ∀ e ∈ s.executions, ¬e.ProducedAny artifacts) : (latestTrained artifacts).value s.answer = [] := by
  have members := (mem_allProducers distinct artifacts).value s.admits_answer
  rw [latestTrained, Reading.value_bind, (Snapshot.latestBy?_eq_none_iff members).mpr untrained]
  rfl

theorem latestTrained_of_latest (distinct : s.DistinctExecutions) (told : ToldApart artifacts)
    (trained : s.Latest (Execution.ProducedAny artifacts) latest) :
    Lists Artifact.creationKey (fun a => a ∈ artifacts ∧ latest.produced a.id = true)
      ((latestTrained artifacts).value s.answer) := by
  have members := (mem_allProducers distinct artifacts).value s.admits_answer
  rw [latestTrained, Reading.value_bind, (Snapshot.latestBy?_eq_some_iff members distinct).mpr trained]
  have apart : ToldApart (artifacts.filter fun a => latest.produced a.id) :=
    told.subset fun a member => (List.mem_filter.mp member).1
  have lists : Lists Artifact.creationKey (· ∈ artifacts.filter fun a => latest.produced a.id) _ :=
    lists_eraseRepsBy (fun a first b second same => apart a first b second (beq_iff_eq.mp same))
      fun a _ b _ same => beq_iff_eq.mpr (Artifact.id_eq_of_creationKey_eq same)
  exact ⟨fun a => (lists.mem_iff a).trans List.mem_filter, lists.ascending⟩

/-- The latest execution produced one of the artifacts, so there is something to show. -/
theorem exists_mem_latestTrained (distinct : s.DistinctExecutions) (told : ToldApart artifacts)
    (trained : s.Latest (Execution.ProducedAny artifacts) latest) :
    ∃ a, a ∈ (latestTrained artifacts).value s.answer := by
  obtain ⟨a, member, produced⟩ := trained.fits
  exact ⟨a, ((latestTrained_of_latest distinct told trained).mem_iff a).mpr ⟨member, produced⟩⟩

/-! ## What does not matter -/

theorem producedAny_congr (same : ∀ a, a ∈ others ↔ a ∈ artifacts) (e : Execution) :
    e.ProducedAny others ↔ e.ProducedAny artifacts :=
  exists_congr fun a => and_congr_left fun _ => same a

/-- Which artifacts there are settles the answer. -/
theorem latestTrained_congr (distinct : s.DistinctExecutions) (told : ToldApart artifacts)
    (same : ∀ a, a ∈ others ↔ a ∈ artifacts) :
    (latestTrained others).value s.answer = (latestTrained artifacts).value s.answer := by
  have agree := producedAny_congr same
  rcases s.latest_cases (Execution.ProducedAny artifacts) with untrained | ⟨latest, trained⟩
  · rw [latestTrained_of_none distinct untrained,
      latestTrained_of_none distinct fun e held => (agree e).not.mpr (untrained e held)]
  · have also : s.Latest (Execution.ProducedAny others) latest := (Snapshot.latest_congr agree).mpr trained
    have lists := latestTrained_of_latest distinct (told.subset fun a => (same a).mp) also
    refine Lists.unique ⟨fun a => ?_, lists.ascending⟩ (latestTrained_of_latest distinct told trained)
    exact (lists.mem_iff a).trans (and_congr_left fun _ => same a)

theorem latestTrained_idempotent (distinct : s.DistinctExecutions) (told : ToldApart artifacts) :
    (latestTrained ((latestTrained artifacts).value s.answer)).value s.answer =
      (latestTrained artifacts).value s.answer := by
  rcases s.latest_cases (Execution.ProducedAny artifacts) with untrained | ⟨latest, trained⟩
  · rw [latestTrained_of_none distinct untrained]
    exact latestTrained_of_none distinct fun e _ ⟨a, impossible, _⟩ => nomatch impossible
  · have lists := latestTrained_of_latest distinct told trained
    obtain ⟨first, shown⟩ := exists_mem_latestTrained distinct told trained
    have among : ∀ a ∈ (latestTrained artifacts).value s.answer, a ∈ artifacts := fun a member =>
      ((lists.mem_iff a).mp member).1
    -- The execution that decided produced all of the answer, and every other producer of it was considered before.
    have again : s.Latest (Execution.ProducedAny ((latestTrained artifacts).value s.answer)) latest :=
      trained.of_imp ⟨first, shown, ((lists.mem_iff first).mp shown).2⟩ fun e ⟨a, member, produced⟩ =>
        ⟨a, among a member, produced⟩
    have relists := latestTrained_of_latest distinct (told.subset among) again
    refine Lists.unique ⟨fun a => ?_, relists.ascending⟩ lists
    rw [relists.mem_iff, lists.mem_iff, and_assoc, and_self]

/-! ## The law -/

/-- What was trained last is what the latest execution to produce any of the artifacts produced among them, each once and
in creation order; it is nothing only if none of them was ever produced. Order and repetitions of the artifacts do not
change the answer, nor does asking again about it. -/
theorem latestTrained_law (distinct : s.DistinctExecutions) (told : ToldApart artifacts)
    (given : (latestTrained artifacts).value s.answer = shown) :
    (shown = [] ↔ ∀ e ∈ s.executions, ¬e.ProducedAny artifacts) ∧
      ((∃ e ∈ s.executions, e.ProducedAny artifacts) → ∃ latest, s.Latest (Execution.ProducedAny artifacts) latest ∧
        Lists Artifact.creationKey (fun a => a ∈ artifacts ∧ latest.produced a.id = true) shown) ∧
      (∀ others, (∀ a, a ∈ others ↔ a ∈ artifacts) → (latestTrained others).value s.answer = shown) ∧
      (latestTrained shown).value s.answer = shown := by
  subst given
  refine ⟨⟨fun empty => ?_, latestTrained_of_none distinct⟩, ?_, fun _ => latestTrained_congr distinct told,
    latestTrained_idempotent distinct told⟩
  · rcases s.latest_cases (Execution.ProducedAny artifacts) with untrained | ⟨latest, trained⟩
    · exact untrained
    · obtain ⟨a, member⟩ := exists_mem_latestTrained distinct told trained
      rw [empty] at member
      cases member
  · rintro ⟨e, held, produced⟩
    rcases s.latest_cases (Execution.ProducedAny artifacts) with untrained | ⟨latest, trained⟩
    · exact absurd produced (untrained e held)
    · exact ⟨latest, trained, latestTrained_of_latest distinct told trained⟩

def repeatedModels : List Artifact :=
  Snapshot.twoTrainings.answer (.byId [6, 5, 4, 5])

theorem latestTrained_law_repeatedModels :
    Snapshot.twoTrainings.DistinctExecutions ∧ ToldApart repeatedModels ∧
      (latestTrained repeatedModels).value Snapshot.twoTrainings.answer =
        Snapshot.twoTrainings.answer (.byId [4, 5]) ∧
      (∃ latest, Snapshot.twoTrainings.Latest (Execution.ProducedAny repeatedModels) latest ∧ latest.id = 2 ∧
        Lists Artifact.creationKey (fun a => a ∈ repeatedModels ∧ latest.produced a.id = true)
          (Snapshot.twoTrainings.answer (.byId [4, 5]))) ∧
      (latestTrained repeatedModels.reverse).value Snapshot.twoTrainings.answer =
        Snapshot.twoTrainings.answer (.byId [4, 5]) ∧
      (latestTrained (Snapshot.twoTrainings.answer (.byId [4, 5]))).value Snapshot.twoTrainings.answer =
        Snapshot.twoTrainings.answer (.byId [4, 5]) := by
  have distinct : Snapshot.twoTrainings.DistinctExecutions := by decide
  have told : ToldApart repeatedModels := by decide +kernel
  have given : (latestTrained repeatedModels).value Snapshot.twoTrainings.answer =
      Snapshot.twoTrainings.answer (.byId [4, 5]) := by decide +kernel
  have produced : ∃ e ∈ Snapshot.twoTrainings.executions, e.ProducedAny repeatedModels := by decide +kernel
  obtain ⟨_, chosen, rearranged, again⟩ := latestTrained_law distinct told given
  obtain ⟨latest, trained, lists⟩ := chosen produced
  have second : ∀ e ∈ Snapshot.twoTrainings.executions,
      e.ProducedAny (Snapshot.twoTrainings.answer (.byId [4, 5])) → e.id = 2 := by decide +kernel
  obtain ⟨a, shown⟩ : ∃ a, a ∈ Snapshot.twoTrainings.answer (.byId [4, 5]) := ⟨_, List.mem_cons_self⟩
  have number : latest.id = 2 := second latest trained.held ⟨a, shown, ((lists.mem_iff a).mp shown).2⟩
  exact ⟨distinct, told, given, ⟨latest, trained, number, lists⟩,
    rearranged _ fun _ => List.mem_reverse, again⟩

end InputResolution.Lineage
