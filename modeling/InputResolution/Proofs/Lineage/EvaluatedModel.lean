import InputResolution.Proofs.Lineage.LatestTrained

/-!
What is evaluated. The newest span of the examples settles a window of spans and a cutoff. Of the window the latest
versions are shown, and of the models those are eligible whose training ended before the cutoff. The eligible model that
was trained last is evaluated; of several from one training it is the one created last.
-/

namespace InputResolution

theorem append_le_append_cases {xs ys us vs : SortKey} (same : xs.length = ys.length) (le : xs ++ us ≤ ys ++ vs) :
    xs < ys ∨ xs = ys ∧ us ≤ vs := by
  induction xs generalizing ys with
  | nil =>
      cases ys with
      | nil => exact Or.inr ⟨rfl, le⟩
      | cons y ys => cases same
  | cons x xs ih =>
      cases ys with
      | nil => cases same
      | cons y ys =>
          rw [List.cons_append, List.cons_append, ← not_lt, List.cons_lt_cons_iff] at le
          rw [List.cons_lt_cons_iff]
          rcases lt_trichotomy x y with less | rfl | more
          · exact Or.inl (Or.inl less)
          · have rest : xs ++ us ≤ ys ++ vs := not_lt.mp fun less => le (Or.inr ⟨rfl, less⟩)
            exact (ih (Nat.succ.inj same) rest).imp (fun less => Or.inr ⟨rfl, less⟩) fun equal =>
              ⟨congrArg (x :: ·) equal.1, equal.2⟩
          · exact absurd (Or.inl more) le

namespace Lineage

variable {s : Snapshot} {models examples : List Artifact} {model other : Artifact} {cutoff newest : Int}
  {params : SpanDriven}

/-! ## The newest span -/

theorem max?_filter_of_le {start : Int} (latest : lastSpan? examples = some newest) (reached : start ≤ newest) :
    ((examples.filterMap Artifact.span?).filter fun span => decide (start ≤ span)).max? = some newest := by
  obtain ⟨member, greatest⟩ := List.max?_eq_some_iff.mp latest
  refine List.max?_eq_some_iff.mpr ⟨List.mem_filter.mpr ⟨member, decide_eq_true reached⟩, fun span kept => ?_⟩
  exact greatest span (List.mem_filter.mp kept).1

theorem max?_filter_of_lt {start : Int}
    (early : ∀ e ∈ examples, ∀ span, e.span? = some span → span < start) :
    ((examples.filterMap Artifact.span?).filter fun span => decide (start ≤ span)).max? = none := by
  rw [List.max?_eq_none_iff, List.filter_eq_nil_iff]
  intro span member reached
  obtain ⟨e, shown, placed⟩ := List.mem_filterMap.mp member
  have before := early e shown span placed
  have after := of_decide_eq_true reached
  omega

/-! ## Eligible models -/

/-- What the model was last trained on has a greatest span, and this lies below the cutoff. -/
def Eligible (s : Snapshot) (cutoff : Int) (model : Artifact) : Prop :=
  ∃ last, lastSpan? ((trainingRange [model] "Examples").value s.answer) = some last ∧ last < cutoff

/-- The latest training of the model came after that of the other one, or it was the same training and the model was
created later. -/
def TrainedAfter (s : Snapshot) (model other : Artifact) : Prop :=
  ∃ trainer earlier, s.Latest (fun e => e.produced model.id = true) trainer ∧
    s.Latest (fun e => e.produced other.id = true) earlier ∧
    (earlier.creationKey < trainer.creationKey ∨
      earlier = trainer ∧ other.creationKey < model.creationKey)

theorem mem_trainedModels_iff {candidate : Execution × Artifact} :
    candidate ∈ (trainedModels models).value s.answer ↔
      candidate.2 ∈ models ∧ (latestProducer candidate.2.id).value s.answer = some candidate.1 := by
  refine ⟨mem_trainedModels, fun ⟨among, produced⟩ => ?_⟩
  rw [value_trainedModels]
  refine List.mem_flatMap.mpr ⟨candidate.2, among, ?_⟩
  rw [produced]
  exact List.mem_map.mpr ⟨candidate.1, List.mem_singleton_self _, rfl⟩

theorem eligible_iff_endedBefore {trainer : Execution}
    (produced : (latestProducer model.id).value s.answer = some trainer) :
    Eligible s cutoff model ↔ endedBefore s.answer cutoff (trainer, model) = true := by
  unfold Eligible endedBefore
  rw [trainingRange_single produced, Option.any_eq_true]
  exact exists_congr fun last => and_congr_right fun _ => decide_eq_true_iff.symm

theorem Eligible.exists_trainer (eligible : Eligible s cutoff model) :
    ∃ trainer, (latestProducer model.id).value s.answer = some trainer := by
  cases produced : (latestProducer model.id).value s.answer with
  | some trainer => exact ⟨trainer, rfl⟩
  | none =>
      obtain ⟨last, greatest, _⟩ := eligible
      have nothing : (trainingRange [model] "Examples").value s.answer = [] := by
        change (latestProducer model.id >>= _).value s.answer = _
        rw [Reading.value_bind, produced]
        rfl
      rw [nothing] at greatest
      cases greatest

theorem Eligible.exists_candidate (eligible : Eligible s cutoff model) (among : model ∈ models) :
    ∃ trainer, (trainer, model) ∈ latestFirst ((trainedModels models).value s.answer) ∧
      endedBefore s.answer cutoff (trainer, model) = true := by
  obtain ⟨trainer, produced⟩ := eligible.exists_trainer
  refine ⟨trainer, ?_, (eligible_iff_endedBefore produced).mp eligible⟩
  exact (latestFirst_perm _).mem_iff.mpr (mem_trainedModels_iff.mpr ⟨among, produced⟩)

/-- Of two trained models the one in front was trained after the other. -/
theorem trainedAfter_of_le (distinct : s.DistinctExecutions) (told : ToldApart models) {trainer earlier : Execution}
    (front : (trainer, model) ∈ (trainedModels models).value s.answer)
    (back : (earlier, other) ∈ (trainedModels models).value s.answer)
    (le : trainingKey (earlier, other) ≤ trainingKey (trainer, model)) (different : other ≠ model) :
    TrainedAfter s model other := by
  obtain ⟨modelAmong, modelProduced⟩ := mem_trainedModels front
  obtain ⟨otherAmong, otherProduced⟩ := mem_trainedModels back
  have latest := (latestProducer_eq_some_iff distinct).mp modelProduced
  have latestOther := (latestProducer_eq_some_iff distinct).mp otherProduced
  refine ⟨trainer, earlier, latest, latestOther, ?_⟩
  have sameLength : earlier.creationKey.length = trainer.creationKey.length := rfl
  rcases append_le_append_cases sameLength le with sooner | ⟨same, below⟩
  · exact Or.inl sooner
  · refine Or.inr ⟨distinct.apart earlier latestOther.held trainer latest.held same, lt_of_le_of_ne below ?_⟩
    exact fun equal => different (told other otherAmong model modelAmong (Artifact.id_eq_of_creationKey_eq equal))

/-! ## The search -/

variable (s models cutoff)

/-- The candidates are searched from the latest training on, so the first one that fits was trained after all others
that would have fitted. -/
theorem firstTrainedBefore_latestFirst_cases (distinct : s.DistinctExecutions) (told : ToldApart models) :
    let chosen := (firstTrainedBefore cutoff (latestFirst ((trainedModels models).value s.answer))).value s.answer
    (chosen = [] ∧ ∀ model ∈ models, ¬Eligible s cutoff model) ∨
      ∃ model ∈ models, chosen = [model] ∧ Eligible s cutoff model ∧
        ∀ other ∈ models, Eligible s cutoff other → other ≠ model → TrainedAfter s model other := by
  intro chosen
  have searched : chosen = _ := value_firstTrainedBefore s.answer cutoff _
  have sorted := latestFirst_perm ((trainedModels models).value s.answer)
  cases found : (latestFirst ((trainedModels models).value s.answer)).find? (endedBefore s.answer cutoff) with
  | none =>
      rw [found] at searched
      refine Or.inl ⟨searched, fun model among eligible => ?_⟩
      obtain ⟨trainer, member, ended⟩ := eligible.exists_candidate among
      exact List.find?_eq_none.mp found _ member ended
  | some candidate =>
      obtain ⟨trainer, model⟩ := candidate
      rw [found] at searched
      obtain ⟨ended, front, back, split, passed⟩ := List.find?_eq_some_iff_append.mp found
      have here : (trainer, model) ∈ (trainedModels models).value s.answer :=
        sorted.mem_iff.mp (List.mem_of_find?_eq_some found)
      obtain ⟨among, produced⟩ := mem_trainedModels here
      refine Or.inr ⟨model, among, searched, (eligible_iff_endedBefore produced).mpr ended, ?_⟩
      intro other otherAmong eligible different
      obtain ⟨earlier, member, also⟩ := eligible.exists_candidate otherAmong
      have descending := pairwise_latestFirst ((trainedModels models).value s.answer)
      have there := sorted.mem_iff.mp member
      rw [split] at member descending
      -- It stands behind the one that was found: those in front do not fit, and it is another one.
      rcases List.mem_append.mp member with before | rest
      · have fails := passed _ before
        rw [also] at fails
        cases fails
      · rcases List.mem_cons.mp rest with same | behind
        · exact absurd (Prod.mk.inj same).2 different
        · have le := (List.pairwise_cons.mp (List.pairwise_append.mp descending).2.1).1 _ behind
          exact trainedAfter_of_le distinct told here there le different

variable {s models cutoff}

/-! ## The law -/

/-- Without examples from the start on nothing is evaluated. Otherwise the newest span settles the window and the cutoff,
unless one of the numbers on the way there overflows: the examples are the latest versions of the window, and the model
is the eligible one that was trained after all other eligible models, if any is eligible. -/
theorem evaluatorInputs_law (distinct : s.DistinctExecutions) (told : ToldApart models) {found : EvaluatorInputs}
    (given : (evaluatorInputs examples models params).value s.answer = found) :
    ((∀ e ∈ examples, ∀ span, e.span? = some span → span < params.startSpan) → found = ⟨[], []⟩) ∧
      ∀ newest, lastSpan? examples = some newest → params.startSpan ≤ newest → params.Fits newest →
        let anchor := newest - params.waitSpans
        let cutoff := anchor - params.additionalSpans - params.trainingOffset
        found.examples = Window.latestVersions (examples.filter fun e => e.span?.any fun span =>
          max (anchor - params.additionalSpans) params.startSpan ≤ span && span ≤ anchor) ∧
        (found.model = [] ↔ ∀ model ∈ models, ¬Eligible s cutoff model) ∧
        ((∃ model ∈ models, Eligible s cutoff model) →
          ∃ model ∈ models, found.model = [model] ∧ Eligible s cutoff model ∧
            ∀ other ∈ models, Eligible s cutoff other → other ≠ model → TrainedAfter s model other) := by
  subst given
  constructor
  · intro early
    unfold evaluatorInputs
    rw [max?_filter_of_lt early]
    rfl
  · intro newest latest reached fits anchor cutoff
    obtain ⟨last, first, trained⟩ := fits.words_eq
    have value : (evaluatorInputs examples models params).value s.answer =
        ⟨Window.latestVersions (examples.filter fun e => e.span?.any fun span =>
            max (anchor - params.additionalSpans) params.startSpan ≤ span && span ≤ anchor),
          (firstTrainedBefore cutoff (latestFirst ((trainedModels models).value s.answer))).value
            s.answer⟩ := by
      unfold evaluatorInputs
      rw [max?_filter_of_le latest reached]
      dsimp only
      rw [Reading.value_bind, Reading.value_bind, Reading.value_pure, SpanDriven.windowStart, last, first, trained]
      rfl
    rw [value]
    refine ⟨rfl, ?_⟩
    rcases firstTrainedBefore_latestFirst_cases s models cutoff distinct told with ⟨empty, unfit⟩ | chosen
    · refine ⟨⟨fun _ => unfit, fun _ => empty⟩, fun one => ?_⟩
      obtain ⟨model, among, eligible⟩ := one
      exact absurd eligible (unfit model among)
    · refine ⟨⟨fun empty => ?_, fun unfit => ?_⟩, fun _ => chosen⟩
      · obtain ⟨model, _, single, _⟩ := chosen
        cases single.symm.trans empty
      · obtain ⟨model, among, _, eligible, _⟩ := chosen
        exact absurd eligible (unfit model among)

/-- All three models are eligible after spans 1 and 2, as the newest span is 5; of the two that were trained together
the later one is evaluated. From span 6 on there is nothing to evaluate. -/
theorem evaluatorInputs_law_twoTrainings :
    Snapshot.twoTrainings.DistinctExecutions ∧ ToldApart repeatedModels ∧
      (evaluatorInputs (Snapshot.twoTrainings.answer (.byId [1, 2, 3])) repeatedModels ⟨0, 1, 1, 6⟩).value
        Snapshot.twoTrainings.answer = ⟨[], []⟩ ∧
      (evaluatorInputs (Snapshot.twoTrainings.answer (.byId [1, 2, 3])) repeatedModels ⟨0, 1, 1, 1⟩).value
        Snapshot.twoTrainings.answer =
          ⟨Snapshot.twoTrainings.answer (.byId [3]), Snapshot.twoTrainings.answer (.byId [5])⟩ ∧
      lastSpan? (Snapshot.twoTrainings.answer (.byId [1, 2, 3])) = some 5 ∧ SpanDriven.Fits ⟨0, 1, 1, 1⟩ 5 ∧
      ∃ model ∈ repeatedModels, Snapshot.twoTrainings.answer (.byId [5]) = [model] ∧
        Eligible Snapshot.twoTrainings 3 model ∧
        ∀ other ∈ repeatedModels, Eligible Snapshot.twoTrainings 3 other → other ≠ model →
          TrainedAfter Snapshot.twoTrainings model other := by
  have distinct : Snapshot.twoTrainings.DistinctExecutions := by decide
  have told : ToldApart repeatedModels := by decide +kernel
  have latest : lastSpan? (Snapshot.twoTrainings.answer (.byId [1, 2, 3])) = some 5 := by decide +kernel
  have fits : SpanDriven.Fits ⟨0, 1, 1, 1⟩ 5 := by decide
  have early : ∀ e ∈ Snapshot.twoTrainings.answer (.byId [1, 2, 3]), ∀ span, e.span? = some span → span < 6 := by
    intro e member span placed
    have below := le_lastSpan? latest member placed
    omega
  have given : (evaluatorInputs (Snapshot.twoTrainings.answer (.byId [1, 2, 3])) repeatedModels ⟨0, 1, 1, 1⟩).value
      Snapshot.twoTrainings.answer =
        ⟨Snapshot.twoTrainings.answer (.byId [3]), Snapshot.twoTrainings.answer (.byId [5])⟩ := by decide +kernel
  obtain ⟨_, empty, chosen⟩ := (evaluatorInputs_law distinct told given).2 5 latest (by decide) fits
  have one : ∃ model ∈ repeatedModels, Eligible Snapshot.twoTrainings 3 model := by
    by_contra unfit
    push Not at unfit
    have nothing : Snapshot.twoTrainings.answer (.byId [5]) = [] := empty.mpr unfit
    exact absurd nothing (by decide +kernel)
  exact ⟨distinct, told, (evaluatorInputs_law distinct told rfl).1 early, given, latest, fits, chosen one⟩

end Lineage

end InputResolution
