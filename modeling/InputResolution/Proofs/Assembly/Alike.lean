import InputResolution.Proofs.Assembly.Law
import InputResolution.Proofs.Fingerprint

/-!
Slots in another order. Which indices survive and what each slot contributes to a selection is said for each slot by
itself; so the same slots in another order, and with other invocations, are put together to the same artifacts for each
slot. All that the order settles is which slot is named when nothing survives, and the text of an error.
-/

namespace InputResolution

/-- The same slots with the same artifacts, whatever their order and their invocations. -/
def Selection.Alike (a b : Selection) : Prop :=
  ∀ slot, a.artifacts.get? slot = b.artifacts.get? slot

inductive SkipReason.Alike : SkipReason → SkipReason → Prop where
  | same (reason : SkipReason) : Alike reason reason
  | otherSlot (first second : String) : Alike (.requiredSlotEmpty first) (.requiredSlotEmpty second)

inductive Outcome.Alike : Outcome → Outcome → Prop where
  | trigger {a b : Selection} (alike : a.Alike b) : Alike (.trigger a) (.trigger b)
  | triggerSequence {as bs : List Selection} (alike : List.Forall₂ Selection.Alike as bs) :
      Alike (.triggerSequence as) (.triggerSequence bs)
  | skip {a b : SkipReason} (alike : a.Alike b) : Alike (.skip a) (.skip b)

inductive ResultsAlike : Except ResolveError Outcome → Except ResolveError Outcome → Prop where
  | ok {a b : Outcome} (alike : a.Alike b) : ResultsAlike (.ok a) (.ok b)
  | error {a b : ResolveError} (same : a.kind = b.kind) : ResultsAlike (.error a) (.error b)

theorem Outcome.Alike.refl (outcome : Outcome) : outcome.Alike outcome := by
  cases outcome with
  | trigger selection => exact .trigger fun _ => rfl
  | triggerSequence selections => exact .triggerSequence (List.forall₂_same.mpr fun _ _ _ => rfl)
  | skip reason => exact .skip (.same reason)

theorem ResultsAlike.refl (result : Except ResolveError Outcome) : ResultsAlike result result := by
  cases result with
  | ok outcome => exact .ok (.refl outcome)
  | error cause => exact .error rfl

namespace Assembly

open ResolutionContext (coveredEntry)

variable {value : Nat → Option NodeValue} {entries others : List (String × SlotBinding)}
  {first second : String × SlotBinding} {count index : Nat}

/-! ## One slot -/

theorem covered_eq_iff :
    coveredEntry first = coveredEntry second ↔
      first.1 = second.1 ∧ first.2.node = second.2.node ∧ first.2.minCount = second.2.minCount := by
  simp [coveredEntry]

theorem Holds.congr (same : coveredEntry first = coveredEntry second) (holds : Holds value first.2) :
    Holds value second.2 := by
  unfold Holds at holds ⊢
  rwa [← (covered_eq_iff.mp same).2.1]

theorem HoldsSequence.congr (same : coveredEntry first = coveredEntry second) {length : Nat}
    (holds : HoldsSequence value first.2 length) : HoldsSequence value second.2 length := by
  unfold HoldsSequence at holds ⊢
  rwa [← (covered_eq_iff.mp same).2.1]

theorem Contributes.congr (same : coveredEntry first = coveredEntry second) {artifacts : List Artifact}
    (contributes : Contributes value first.2 index artifacts) : Contributes value second.2 index artifacts := by
  have node := (covered_eq_iff.mp same).2.1
  cases contributes with
  | list held => exact .list (node ▸ held)
  | element held there => exact .element (node ▸ held) there

theorem Enough.congr (same : coveredEntry first = coveredEntry second) (enough : Enough value first.2 index) :
    Enough value second.2 index := by
  obtain ⟨artifacts, contributes, least⟩ := enough
  exact ⟨artifacts, contributes.congr same, (covered_eq_iff.mp same).2.2 ▸ least⟩

theorem Contributes.unique {binding : SlotBinding} {artifacts held : List Artifact}
    (one : Contributes value binding index artifacts) (other : Contributes value binding index held) :
    artifacts = held := by
  cases one with
  | list known =>
      cases other with
      | list same =>
          cases known.symm.trans same
          rfl
      | element same _ => cases known.symm.trans same
  | element known there =>
      cases other with
      | list same => cases known.symm.trans same
      | element same here =>
          cases known.symm.trans same
          exact Option.some.inj (there.symm.trans here)

/-! ## Rearranged slots -/

/-- The same slots in another order, with other invocations. -/
def Rearranged (entries others : List (String × SlotBinding)) : Prop :=
  (entries.map coveredEntry).Perm (others.map coveredEntry)

theorem Rearranged.exists_same (rearranged : Rearranged entries others) {entry : String × SlotBinding}
    (member : entry ∈ entries) : ∃ other ∈ others, coveredEntry entry = coveredEntry other := by
  obtain ⟨other, there, same⟩ := List.mem_map.mp (rearranged.mem_iff.mp (List.mem_map_of_mem member))
  exact ⟨other, there, same.symm⟩

section Transfer

variable {property : String × SlotBinding → Prop}

theorem Rearranged.exists_mem_iff (rearranged : Rearranged entries others)
    (congr : ∀ first second, coveredEntry first = coveredEntry second → property first → property second) :
    (∃ entry ∈ entries, property entry) ↔ ∃ entry ∈ others, property entry := by
  constructor
  · rintro ⟨entry, member, holds⟩
    obtain ⟨other, there, same⟩ := rearranged.exists_same member
    exact ⟨other, there, congr _ _ same holds⟩
  · rintro ⟨entry, member, holds⟩
    obtain ⟨other, there, same⟩ := Rearranged.exists_same rearranged.symm member
    exact ⟨other, there, congr _ _ same holds⟩

theorem Rearranged.forall_mem_iff (rearranged : Rearranged entries others)
    (congr : ∀ first second, coveredEntry first = coveredEntry second → property first → property second) :
    (∀ entry ∈ entries, property entry) ↔ ∀ entry ∈ others, property entry := by
  constructor
  · intro all entry member
    obtain ⟨other, there, same⟩ := Rearranged.exists_same rearranged.symm member
    exact congr _ _ same.symm (all other there)
  · intro all entry member
    obtain ⟨other, there, same⟩ := rearranged.exists_same member
    exact congr _ _ same.symm (all other there)

end Transfer

theorem Rearranged.uneven_iff (rearranged : Rearranged entries others) :
    Uneven value entries ↔ Uneven value others := by
  unfold Uneven
  refine Iff.trans ?_ (rearranged.exists_mem_iff ?_)
  · refine exists_congr fun one => and_congr_right fun _ => rearranged.exists_mem_iff ?_
    rintro first second same ⟨length, other, held, holds, apart⟩
    exact ⟨length, other, held, holds.congr same, apart⟩
  · rintro first second same ⟨two, there, length, other, holds, held, apart⟩
    exact ⟨two, there, length, other, holds.congr same, held, apart⟩

theorem Rearranged.isCount (rearranged : Rearranged entries others) (counts : IsCount value entries count) :
    IsCount value others count where
  common := (rearranged.forall_mem_iff fun _ _ same common length holds => common length (holds.congr same.symm)).mp
    counts.common
  single none := counts.single ((rearranged.forall_mem_iff fun _ _ same none length holds =>
    none length (holds.congr same.symm)).mpr none)

theorem Selects.get?_eq_some {entries : OrderedMap SlotBinding} {selection : Selection}
    (selects : Selects value entries.entries index selection) {slot : String} {artifacts : List Artifact} :
    selection.artifacts.get? slot = some artifacts ↔
      ∃ entry ∈ entries.entries, entry.1 = slot ∧ Contributes value entry.2 index artifacts := by
  constructor
  · intro found
    obtain ⟨entry, there, named, contributes⟩ := Steps.exists_of_mem selects.artifacts.flip (mem_of_lookup found)
    exact ⟨entry, there, named.symm, contributes⟩
  · rintro ⟨entry, there, rfl, contributes⟩
    obtain ⟨⟨name, held⟩, member, rfl, other⟩ := Steps.exists_of_mem selects.artifacts there
    rw [contributes.unique other]
    exact OrderedMap.get?_of_mem member

theorem Selects.alike {a b : OrderedMap SlotBinding} (rearranged : Rearranged a.entries b.entries)
    {one other : Selection} (first : Selects value a.entries index one) (second : Selects value b.entries index other) :
    one.Alike other := by
  intro slot
  ext artifacts
  rw [first.get?_eq_some, second.get?_eq_some]
  apply rearranged.exists_mem_iff
  rintro entry same covered ⟨named, contributes⟩
  exact ⟨(covered_eq_iff.mp covered).1 ▸ named, contributes.congr covered⟩

theorem forall₂_alike {a b : OrderedMap SlotBinding} (rearranged : Rearranged a.entries b.entries) {indices : List Nat}
    {ones others : List Selection} (first : List.Forall₂ (Selects value a.entries) indices ones)
    (second : List.Forall₂ (Selects value b.entries) indices others) : List.Forall₂ Selection.Alike ones others := by
  induction first generalizing others with
  | nil =>
      cases second
      exact .nil
  | cons head _ ih =>
      cases second with
      | cons here rest => exact .cons (head.alike rearranged here) (ih rest)

/-! ## The outcome -/

theorem exists_firstShort (held : ∀ entry ∈ entries, Holds value entry.2)
    (common : ∀ entry ∈ entries, ∀ length, HoldsSequence value entry.2 length → length = count) (inside : index < count)
    (short : ¬∀ entry ∈ entries, Enough value entry.2 index) : ∃ slot, FirstShort value index slot entries := by
  induction entries with
  | nil => exact absurd (fun _ member => nomatch member) short
  | cons entry rest ih =>
      obtain ⟨holds, laterHeld⟩ := List.forall_mem_cons.mp held
      obtain ⟨length, laterCommon⟩ := List.forall_mem_cons.mp common
      have contributes : ∃ artifacts, Contributes value entry.2 index artifacts := by
        obtain ⟨known, found, noDict⟩ := holds
        cases known with
        | dict entries => exact absurd rfl noDict
        | list artifacts => exact ⟨artifacts, .list found⟩
        | listOfLists lists =>
            have bound : index < lists.length := by rw [length lists.length ⟨lists, found, rfl⟩]; exact inside
            exact ⟨_, .element found (List.getElem?_eq_getElem bound)⟩
      obtain ⟨artifacts, here⟩ := contributes
      rcases Nat.lt_or_ge artifacts.length entry.2.minCount with few | enough
      · exact ⟨entry.1, .here ⟨artifacts, here, few⟩⟩
      · have enough : Enough value entry.2 index := ⟨artifacts, here, enough⟩
        have later : ¬∀ entry ∈ rest, Enough value entry.2 index :=
          fun all => short (List.forall_mem_cons.mpr ⟨enough, all⟩)
        obtain ⟨slot, found⟩ := ih laterHeld laterCommon later
        exact ⟨slot, .later enough found⟩

theorem Lawful.skip_of_nil {outcome : Outcome} (law : Lawful value entries count [] outcome)
    (held : ∀ entry ∈ entries, Holds value entry.2) (counts : IsCount value entries count) :
    (count = 0 ∧ outcome = .skip .noSelections) ∨ (0 < count ∧ ∃ slot, outcome = .skip (.requiredSlotEmpty slot)) := by
  rcases Nat.eq_zero_or_pos count with none | some
  · exact Or.inl ⟨none, law.noSelections.mpr none⟩
  · have dropped : ¬∀ entry ∈ entries, Enough value entry.2 0 := by
      intro all
      exact nomatch (law.survives 0).mpr ⟨some, all⟩
    obtain ⟨slot, first⟩ := exists_firstShort held counts.common some dropped
    exact Or.inr ⟨some, slot, (law.requiredSlotEmpty slot).mpr ⟨rfl, some, first⟩⟩

theorem Lawful.alike {a b : OrderedMap SlotBinding} (rearranged : Rearranged a.entries b.entries)
    (held : ∀ entry ∈ a.entries, Holds value entry.2) (counts : IsCount value a.entries count)
    {indices others : List Nat} {one other : Outcome} (first : Lawful value a.entries count indices one)
    (second : Lawful value b.entries count others other) : one.Alike other := by
  have survivors : indices = others := by
    refine first.ascending.eq_of_mem_iff second.ascending fun index => ?_
    rw [first.survives, second.survives, rearranged.forall_mem_iff fun _ _ same => Enough.congr same]
  subst survivors
  have alike := forall₂_alike rearranged first.selections second.selections
  by_cases empty : indices = []
  · subst empty
    have otherHeld := (rearranged.forall_mem_iff fun _ _ same => Holds.congr same).mp held
    rcases first.skip_of_nil held counts with ⟨none, rfl⟩ | ⟨some, slot, rfl⟩
    · rw [second.noSelections.mpr none]
      exact .skip (.same _)
    · rcases second.skip_of_nil otherHeld (rearranged.isCount counts) with ⟨none, _⟩ | ⟨_, otherSlot, rfl⟩
      · omega
      · exact .skip (.otherSlot slot otherSlot)
  · by_cases sequences : ∃ entry ∈ a.entries, ∃ length, HoldsSequence value entry.2 length
    · have otherSequences := (rearranged.exists_mem_iff fun _ _ same holds =>
        holds.imp fun _ holds => holds.congr same).mp sequences
      obtain ⟨ones, _, rfl⟩ := (first.triggerSequence empty).mpr sequences
      obtain ⟨twos, _, rfl⟩ := (second.triggerSequence empty).mpr otherSequences
      exact .triggerSequence alike
    · have none : ∀ entry ∈ a.entries, ∀ length, ¬HoldsSequence value entry.2 length :=
        fun entry member length holds => sequences ⟨entry, member, length, holds⟩
      have otherNone := (rearranged.forall_mem_iff fun _ _ same none length holds =>
        none length (HoldsSequence.congr same.symm holds)).mp none
      obtain ⟨selection, rfl⟩ := (first.trigger empty).mpr none
      obtain ⟨otherSelection, rfl⟩ := (second.trigger empty).mpr otherNone
      cases alike with
      | cons alike _ => exact .trigger alike

end Assembly

open Assembly

/-- The same slots in another order are put together to outcomes that are alike, or to errors of one kind. -/
theorem assemble_alike {a b : OrderedMap SlotBinding} (rearranged : Rearranged a.entries b.entries)
    {value : Nat → Option NodeValue} (held : ∀ entry ∈ a.entries, Holds value entry.2) :
    ResultsAlike (assemble a value) (assemble b value) := by
  have otherHeld := (rearranged.forall_mem_iff fun _ _ same => Holds.congr same).mp held
  by_cases uneven : Uneven value a.entries
  · obtain ⟨cause, failed⟩ := (assemble_fails_iff held).mpr uneven
    obtain ⟨other, otherFailed⟩ := (assemble_fails_iff otherHeld).mpr (rearranged.uneven_iff.mp uneven)
    rw [failed, otherFailed]
    exact .error ((assemble_eq_error held failed).trans (assemble_eq_error otherHeld otherFailed).symm)
  · obtain ⟨count, counts⟩ := IsCount.exists_of_even uneven
    obtain ⟨_, outcome, assembled, law⟩ := exists_lawful held counts
    obtain ⟨_, other, otherAssembled, otherLaw⟩ := exists_lawful otherHeld (rearranged.isCount counts)
    rw [assembled, otherAssembled]
    exact .ok (law.alike rearranged held counts otherLaw)

end InputResolution
