import InputResolution.Builder
import InputResolution.Evaluation
import InputResolution.Proofs.Window.Versions

/-!
Gaps in a fixed range. A range wants every integer from its start to its end that is not excluded. The guard behind a
range only counts; but what it counts is a subset of what the range wants, so the two have one size exactly if no span
is missing.
-/

namespace InputResolution

namespace StaticRange

variable (range : StaticRange) (start : Int)

noncomputable def wanted : Finset Int :=
  (Finset.Icc start range.endSpan).filter fun span => span ∉ range.excludedSpans

noncomputable def held (artifacts : List Artifact) : Finset Int :=
  (range.wanted start).filter fun span => span ∈ artifacts.filterMap Artifact.span?

def CompleteIn (artifacts : List Artifact) : Prop :=
  ∀ span, start ≤ span → span ≤ range.endSpan → span ∉ range.excludedSpans →
    ∃ a ∈ artifacts, a.span? = some span

variable {range start} {artifacts : List Artifact} {span : Int}

theorem mem_wanted : span ∈ range.wanted start ↔ start ≤ span ∧ span ≤ range.endSpan ∧ span ∉ range.excludedSpans := by
  simp [wanted, and_assoc]

theorem mem_held :
    span ∈ range.held start artifacts ↔ span ∈ range.wanted start ∧ ∃ a ∈ artifacts, a.span? = some span := by
  simp [held, List.mem_filterMap]

/-- The pigeonhole: no gap means as many spans as are wanted. -/
theorem completeIn_iff_card :
    range.CompleteIn start artifacts ↔ ¬(range.held start artifacts).card < (range.wanted start).card := by
  have subset : range.held start artifacts ⊆ range.wanted start := Finset.filter_subset _ _
  rw [not_lt]
  constructor
  · intro complete
    apply Finset.card_le_card
    intro span member
    obtain ⟨above, below, included⟩ := mem_wanted.mp member
    exact mem_held.mpr ⟨member, complete span above below included⟩
  · intro count span above below included
    have all := Finset.eq_of_subset_of_card_le subset count
    have member := mem_wanted.mpr ⟨above, below, included⟩
    rw [← all] at member
    exact (mem_held.mp member).2

/-- The count that a builder makes is the number of wanted spans. -/
theorem spansWanted_eq : Builder.spansWanted start range.endSpan range.excludedSpans = (range.wanted start).card := by
  have excluded : ((distinctAscending range.excludedSpans).filter fun span =>
      start ≤ span && span ≤ range.endSpan).length =
        ((Finset.Icc start range.endSpan).filter fun span => span ∈ range.excludedSpans).card := by
    have distinct := (nodup_distinctAscending range.excludedSpans).filter fun span =>
      start ≤ span && span ≤ range.endSpan
    rw [← List.toFinset_card_of_nodup distinct]
    congr 1
    ext span
    simp [and_comm]
  have parts := Finset.card_filter_add_card_filter_not (s := Finset.Icc start range.endSpan)
    (fun span => span ∈ range.excludedSpans)
  have width : (Finset.Icc start range.endSpan).card = (range.endSpan - start + 1).toNat := by
    rw [Int.card_Icc]
    congr 1
    omega
  unfold Builder.spansWanted wanted
  dsimp only
  omega

variable (starts : range.startSpan = some start)

include starts

/-- The spans that the range lets through are those held. -/
theorem distinctSpans_staticRange :
    span ∈ Window.distinctSpans (Window.staticRange range artifacts) ↔ span ∈ range.held start artifacts := by
  rw [Window.staticRange, Window.distinctSpans_within, mem_held, mem_wanted, Window.mem_distinctSpans, starts]
  simp [and_assoc]

theorem length_distinctSpans_staticRange :
    (Window.distinctSpans (Window.staticRange range artifacts)).length = (range.held start artifacts).card := by
  have same : ((Window.staticRange range artifacts).filterMap Artifact.span?).toFinset =
      range.held start artifacts := by
    ext span
    rw [List.mem_toFinset, ← mem_distinctAscending]
    exact distinctSpans_staticRange starts
  rw [Window.distinctSpans, length_distinctAscending, same]

omit starts

def LacksStart (range : StaticRange) (start : Int) (artifacts : List Artifact) : Prop :=
  start ∉ range.excludedSpans ∧ ∀ a ∈ artifacts, a.span? ≠ some start

instance (range : StaticRange) (start : Int) (artifacts : List Artifact) :
    Decidable (range.LacksStart start artifacts) :=
  inferInstanceAs (Decidable (_ ∧ _))

/-- Why a guard stops an incomplete range: its start is wanted and missing, or there are too few spans. -/
noncomputable def gap (range : StaticRange) (start : Int) (node : Nat) (artifacts : List Artifact) : SkipReason :=
  if range.LacksStart start artifacts then .missingRequiredSpan node start
  else .insufficientSpans node (range.held start artifacts).card (range.wanted start).card

theorem LacksStart.not_completeIn (lacks : range.LacksStart start artifacts) (ordered : start ≤ range.endSpan) :
    ¬range.CompleteIn start artifacts := by
  intro complete
  obtain ⟨a, member, placed⟩ := complete start le_rfl ordered lacks.1
  exact lacks.2 a member placed

def requiredSpan (range : StaticRange) (start : Int) : Option Int :=
  if range.excludedSpans.contains start then none else some start

def missing (range : StaticRange) (start : Int) (node : Nat) (artifacts : List Artifact) : Option SkipReason :=
  insufficientSpans? node (Builder.spansWanted start range.endSpan range.excludedSpans) (range.requiredSpan start)
    (Window.staticRange range artifacts)

include starts

theorem missing_eq (ordered : start ≤ range.endSpan) (node : Nat) :
    range.missing start node artifacts =
      if range.LacksStart start artifacts then some (.missingRequiredSpan node start)
      else if (range.held start artifacts).card < (range.wanted start).card then
        some (.insufficientSpans node (range.held start artifacts).card (range.wanted start).card)
      else none := by
  have count : (Window.distinctSpans (Window.staticRange range artifacts)).length = _ :=
    length_distinctSpans_staticRange starts
  have first : start ∈ Window.distinctSpans (Window.staticRange range artifacts) ↔ _ :=
    distinctSpans_staticRange starts
  unfold missing insufficientSpans? requiredSpan
  dsimp only
  rw [spansWanted_eq, count]
  by_cases excluded : start ∈ range.excludedSpans
  · simp [excluded, LacksStart]
  · have kept : ¬range.excludedSpans.contains start = true := by simpa using excluded
    rw [if_neg kept]
    dsimp only
    by_cases absent : ∀ a ∈ artifacts, a.span? ≠ some start
    · have unseen : ¬(Window.distinctSpans (Window.staticRange range artifacts)).contains start = true := by
        rw [List.contains_iff_mem, first, mem_held]
        rintro ⟨_, a, member, placed⟩
        exact absent a member placed
      rw [if_neg unseen, if_pos ⟨excluded, absent⟩]
    · have seen : (Window.distinctSpans (Window.staticRange range artifacts)).contains start = true := by
        rw [List.contains_iff_mem, first, mem_held, mem_wanted]
        push Not at absent
        exact ⟨⟨le_rfl, ordered, excluded⟩, absent⟩
      have started : ¬range.LacksStart start artifacts := fun lacks => absent lacks.2
      rw [if_pos seen, if_neg started]

/-- The guard behind a range passes exactly what is complete. -/
theorem missing_eq_none (ordered : start ≤ range.endSpan) (node : Nat) :
    range.missing start node artifacts = none ↔ range.CompleteIn start artifacts := by
  rw [missing_eq starts ordered]
  by_cases lacks : range.LacksStart start artifacts
  · simp [lacks, lacks.not_completeIn ordered]
  · simp [lacks, completeIn_iff_card]

theorem missing_eq_some (ordered : start ≤ range.endSpan) (node : Nat)
    (incomplete : ¬range.CompleteIn start artifacts) :
    range.missing start node artifacts = some (range.gap start node artifacts) := by
  rw [missing_eq starts ordered, gap]
  by_cases lacks : range.LacksStart start artifacts
  · simp [lacks]
  · rw [completeIn_iff_card, not_not] at incomplete
    simp [lacks, incomplete]

theorem CompleteIn.staticRange_ne_nil_iff (complete : range.CompleteIn start artifacts) :
    Window.staticRange range artifacts ≠ [] ↔
      ∃ span, start ≤ span ∧ span ≤ range.endSpan ∧ span ∉ range.excludedSpans := by
  constructor
  · intro nonempty
    obtain ⟨a, member⟩ := List.exists_mem_of_ne_nil _ nonempty
    obtain ⟨_, span, _, passed⟩ := Window.mem_of_within member
    rw [starts] at passed
    refine ⟨span, ?_⟩
    simpa [and_assoc] using passed
  · rintro ⟨span, above, below, included⟩
    have held := mem_held.mpr ⟨mem_wanted.mpr ⟨above, below, included⟩, complete span above below included⟩
    obtain ⟨a, member, _⟩ := Window.mem_distinctSpans.mp ((distinctSpans_staticRange starts).mpr held)
    exact List.ne_nil_of_mem member

end StaticRange

end InputResolution
