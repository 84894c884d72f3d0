import InputResolution.Lineage
import InputResolution.Proofs.Reading
import InputResolution.Proofs.Window.Versions
import InputResolution.Record

/-!
What is evaluated and what was trained on. A model that is chosen comes with its latest producer, whose training ended
below the cutoff, and unless a word overflows no window of examples starts before the cutoff moved on by the offset.
-/

namespace InputResolution

/-! ## Spans in words -/

theorem isSigned_iff {i : Int} :
    Record.isSigned i = true ↔ -9223372036854775808 ≤ i ∧ i ≤ 9223372036854775807 := by
  rw [Record.isSigned, Bool.and_eq_true, decide_eq_true_eq, decide_eq_true_eq]

theorem wrapped_of_signed {i : Int} (signed : Record.isSigned i = true) : wrapped i = i := by
  rw [isSigned_iff] at signed
  rw [wrapped, Int64.toInt_ofInt, Int64.size, Int.bmod]
  omega

theorem wrapped_wrapped_sub (i j : Int) : wrapped (wrapped i - j) = wrapped (i - j) := by
  simp only [wrapped, Int64.toInt_ofInt, Int.bmod_sub_bmod]

namespace SpanDriven

/-- The newest span of the examples, of those from the start on. -/
def newest? (params : SpanDriven) (examples : List Artifact) : Option Int :=
  ((examples.filterMap Artifact.span?).filter fun span => decide (params.startSpan ≤ span)).max?

def anchor (params : SpanDriven) (newest : Int) : Int :=
  newest - params.waitSpans

def cutoff (params : SpanDriven) (newest : Int) : Int :=
  params.anchor newest - params.additionalSpans - params.trainingOffset

/-- The numbers on the way from the newest span to the cutoff. -/
def differences (params : SpanDriven) (newest : Int) : List Int :=
  [params.anchor newest, params.anchor newest - params.additionalSpans, params.cutoff newest]

def Fits (params : SpanDriven) (newest : Int) : Prop :=
  ∀ i ∈ params.differences newest, Record.isSigned i = true

instance (params : SpanDriven) (newest : Int) : Decidable (params.Fits newest) :=
  inferInstanceAs (Decidable (∀ i ∈ params.differences newest, Record.isSigned i = true))

variable {params : SpanDriven} {newest : Int}

/-- It makes no difference when the words wrap around. -/
theorem words_eq (params : SpanDriven) (newest : Int) :
    [params.windowEnd newest, params.lookback newest, params.trainingEnd newest] =
      (params.differences newest).map wrapped := by
  simp only [differences, List.map_cons, List.map_nil, trainingEnd, lookback, windowEnd, wrapped_wrapped_sub, anchor,
    cutoff]

theorem Fits.words_eq (fits : params.Fits newest) :
    params.windowEnd newest = params.anchor newest ∧
      params.lookback newest = params.anchor newest - params.additionalSpans ∧
      params.trainingEnd newest = params.cutoff newest := by
  have words := SpanDriven.words_eq params newest
  rw [List.map_congr_left fun i member => wrapped_of_signed (fits i member), List.map_id'] at words
  simpa [differences] using words

theorem Fits.trainingEnd_add_le (fits : params.Fits newest) :
    params.trainingEnd newest + params.trainingOffset ≤ params.windowStart newest := by
  obtain ⟨_, start, last⟩ := fits.words_eq
  rw [windowStart, start, last, cutoff]
  omega

end SpanDriven

namespace Lineage

variable {answer : (r : Request) → r.Answer} {cutoff : Int} {candidate : Execution × Artifact}
  {candidates : List (Execution × Artifact)}

/-! ## Candidates -/

theorem mem_trainedModels {models : List Artifact} (member : candidate ∈ (trainedModels models).value answer) :
    candidate.2 ∈ models ∧ (latestProducer candidate.2.id).value answer = some candidate.1 := by
  induction models with
  | nil => cases member
  | cons model rest ih =>
      rw [trainedModels, Reading.value_bind, Reading.value_bind, Reading.value_pure] at member
      rcases List.mem_append.mp member with here | later
      · obtain ⟨trainer, known, rfl⟩ := List.mem_map.mp here
        exact ⟨List.mem_cons_self, Option.mem_toList.mp known⟩
      · obtain ⟨among, produced⟩ := ih later
        exact ⟨List.mem_cons_of_mem model among, produced⟩

theorem latestFirst_perm (candidates : List (Execution × Artifact)) : (latestFirst candidates).Perm candidates :=
  (List.reverse_perm _).trans ((sortBy_perm trainingKey _).trans (List.reverse_perm candidates))

def TrainedBefore (answer : (r : Request) → r.Answer) (cutoff : Int) (trainer : Execution) : Prop :=
  ∀ x ∈ (trainerInputs trainer Operator.defaultExamplesType).value answer, ∃ span, x.span? = some span ∧ span < cutoff

theorem span_of_mem_trainerInputs {trainer : Execution} {examplesType : String} {x : Artifact}
    (member : x ∈ (trainerInputs trainer examplesType).value answer) : ∃ span, x.span? = some span := by
  rw [trainerInputs, Reading.value_bind, Reading.value_pure] at member
  exact Option.isSome_iff_exists.mp (Window.mem_spanSorted.mp member).2

theorem le_lastSpan? {artifacts : List Artifact} {last span : Int} (greatest : lastSpan? artifacts = some last)
    {x : Artifact} (member : x ∈ artifacts) (placed : x.span? = some span) : span ≤ last := by
  have above := (List.max?_eq_some_iff.mp greatest).2
  exact above span (List.mem_filterMap.mpr ⟨x, member, placed⟩)

theorem trainedBefore_of_lastSpan? {trainer : Execution}
    (before : (lastSpan? ((trainerInputs trainer Operator.defaultExamplesType).value answer)).any (· < cutoff) = true) :
    TrainedBefore answer cutoff trainer := by
  obtain ⟨last, greatest, below⟩ := (Option.any_eq_true _ _).mp before
  intro x member
  obtain ⟨span, placed⟩ := span_of_mem_trainerInputs member
  refine ⟨span, placed, ?_⟩
  calc span ≤ last := le_lastSpan? greatest member placed
    _ < cutoff := of_decide_eq_true below

def endedBefore (answer : (r : Request) → r.Answer) (cutoff : Int) (candidate : Execution × Artifact) : Bool :=
  (lastSpan? ((trainerInputs candidate.1 Operator.defaultExamplesType).value answer)).any (· < cutoff)

/-- The search ends with the first candidate whose training ended before the cutoff. -/
theorem value_firstTrainedBefore (answer : (r : Request) → r.Answer) (cutoff : Int)
    (candidates : List (Execution × Artifact)) :
    (firstTrainedBefore cutoff candidates).value answer =
      ((candidates.find? (endedBefore answer cutoff)).map Prod.snd).toList := by
  induction candidates with
  | nil => rfl
  | cons first rest ih =>
      rw [firstTrainedBefore, Reading.value_bind]
      split
      · next before =>
        have fits : endedBefore answer cutoff first = true := before
        rw [List.find?_cons_of_pos fits]
        rfl
      · next late =>
        have unfit : ¬endedBefore answer cutoff first = true := late
        rw [List.find?_cons_of_neg unfit, ih]

theorem firstTrainedBefore_eq (answer : (r : Request) → r.Answer) (cutoff : Int)
    (candidates : List (Execution × Artifact)) :
    (firstTrainedBefore cutoff candidates).value answer = [] ∨
      ∃ candidate ∈ candidates, (firstTrainedBefore cutoff candidates).value answer = [candidate.2] ∧
        TrainedBefore answer cutoff candidate.1 := by
  rw [value_firstTrainedBefore]
  cases found : candidates.find? (endedBefore answer cutoff) with
  | none => exact Or.inl rfl
  | some candidate =>
      have before : endedBefore answer cutoff candidate = true := List.find?_some found
      exact Or.inr ⟨candidate, List.mem_of_find?_eq_some found, rfl, trainedBefore_of_lastSpan? before⟩

/-! ## The model and the window -/

/-- The latest model decides, and of its producers the latest one. -/
theorem trainingRange_eq {models : List Artifact} {model : Artifact} {trainer : Execution} {examplesType : String}
    (newest : latestBy? Artifact.creationKey models = some model)
    (produced : (latestProducer model.id).value answer = some trainer) :
    (trainingRange models examplesType).value answer = (trainerInputs trainer examplesType).value answer := by
  unfold trainingRange
  rw [newest]
  change (latestProducer model.id >>= _).value answer = _
  rw [Reading.value_bind, produced]

theorem trainingRange_single {model : Artifact} {trainer : Execution} {examplesType : String}
    (produced : (latestProducer model.id).value answer = some trainer) :
    (trainingRange [model] examplesType).value answer = (trainerInputs trainer examplesType).value answer :=
  trainingRange_eq rfl produced

/-- What the latest training of a model saw lies before these examples, and the offset away from them. -/
def Ahead (answer : (r : Request) → r.Answer) (offset : Int) (model : Artifact) (examples : List Artifact) : Prop :=
  ∀ x ∈ (trainingRange [model] Operator.defaultExamplesType).value answer, ∀ e ∈ examples,
    ∃ trained evaluated, x.span? = some trained ∧ e.span? = some evaluated ∧ trained + offset < evaluated

theorem TrainedBefore.ahead {params : SpanDriven} {newest : Int} (fits : params.Fits newest) {model : Artifact}
    {trainer : Execution} {examples : List Artifact}
    (trained : TrainedBefore answer (params.trainingEnd newest) trainer)
    (produced : (latestProducer model.id).value answer = some trainer)
    (placed : ∀ e ∈ examples, ∃ span, e.span? = some span ∧ params.windowStart newest ≤ span) :
    Ahead answer params.trainingOffset model examples := by
  intro x seen e shown
  rw [trainingRange_single produced] at seen
  obtain ⟨last, lastPlaced, below⟩ := trained x seen
  obtain ⟨span, spanPlaced, above⟩ := placed e shown
  refine ⟨last, span, lastPlaced, spanPlaced, ?_⟩
  calc last + params.trainingOffset < params.trainingEnd newest + params.trainingOffset := by omega
    _ ≤ params.windowStart newest := fits.trainingEnd_add_le
    _ ≤ span := above

/-- Joint inputs are empty, or the window at the newest span with at most one model. -/
theorem evaluatorInputs_cases (answer : (r : Request) → r.Answer) (examples models : List Artifact)
    (params : SpanDriven) {found : EvaluatorInputs}
    (given : (evaluatorInputs examples models params).value answer = found) :
    found = ⟨[], []⟩ ∨ ∃ newest, params.newest? examples = some newest ∧
      (∀ e ∈ found.examples, e ∈ examples ∧ ∃ span, e.span? = some span ∧ params.windowStart newest ≤ span) ∧
      (found.model = [] ∨ ∃ model ∈ models, found.model = [model] ∧ ∃ trainer,
        (latestProducer model.id).value answer = some trainer ∧
          TrainedBefore answer (params.trainingEnd newest) trainer) := by
  unfold evaluatorInputs at given
  split at given
  · exact Or.inl given.symm
  · next newest latest =>
    rw [Reading.value_bind, Reading.value_bind, Reading.value_pure] at given
    cases given
    refine Or.inr ⟨newest, latest, ?_, ?_⟩
    · intro e shown
      obtain ⟨held, kept⟩ := List.mem_filter.mp (Window.mem_of_latestVersions shown)
      obtain ⟨span, placed, inside⟩ := (Option.any_eq_true _ _).mp kept
      rw [Bool.and_eq_true, decide_eq_true_eq] at inside
      exact ⟨held, span, placed, inside.1⟩
    · rcases firstTrainedBefore_eq answer (params.trainingEnd newest)
        (latestFirst ((trainedModels models).value answer)) with none | ⟨candidate, member, chosen, trained⟩
      · exact Or.inl none
      · obtain ⟨among, produced⟩ := mem_trainedModels ((latestFirst_perm _).mem_iff.mp member)
        exact Or.inr ⟨candidate.2, among, chosen, candidate.1, produced, trained⟩

/-- At most one model is chosen, and all examples lie ahead of its training. -/
theorem evaluatorInputs_ahead (answer : (r : Request) → r.Answer) (examples models : List Artifact)
    {params : SpanDriven} (fits : ∀ newest, params.newest? examples = some newest → params.Fits newest)
    {found : EvaluatorInputs} (given : (evaluatorInputs examples models params).value answer = found) :
    found.model = [] ∨ ∃ model ∈ models, found.model = [model] ∧
      Ahead answer params.trainingOffset model found.examples := by
  rcases evaluatorInputs_cases answer examples models params given with rfl | ⟨newest, latest, shown, chosen⟩
  · exact Or.inl rfl
  · refine chosen.imp_right fun one => ?_
    obtain ⟨model, among, single, trainer, produced, trained⟩ := one
    exact ⟨model, among, single, trained.ahead (fits newest latest) produced fun e member => (shown e member).2⟩

end Lineage

end InputResolution
