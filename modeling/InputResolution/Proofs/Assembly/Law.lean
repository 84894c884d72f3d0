import InputResolution.Proofs.Assembly
import InputResolution.Snapshot

/-!
The law of assembly. What an outcome has to be is said from the values of the nodes alone: which indices survive, what
each slot contributes to the selection of an index, and which slot is named when nothing survives. An outcome that is
assembled is that one, and only sequences of different lengths prevent it.
-/

namespace InputResolution.Assembly

/-! ## What slots hold -/

section Slots

variable (value : Nat → Option NodeValue)

def Holds (binding : SlotBinding) : Prop :=
  ∃ held, value binding.node = some held ∧ held.shape ≠ .dict

def HoldsSequence (binding : SlotBinding) (length : Nat) : Prop :=
  ∃ lists, value binding.node = some (.listOfLists lists) ∧ lists.length = length

/-- Two slots hold sequences of different lengths. -/
def Uneven (entries : List (String × SlotBinding)) : Prop :=
  ∃ first ∈ entries, ∃ second ∈ entries, ∃ length other,
    HoldsSequence value first.2 length ∧ HoldsSequence value second.2 other ∧ length ≠ other

/-- The number of candidates for selections: the length of every sequence, and one if there is none. -/
structure IsCount (entries : List (String × SlotBinding)) (count : Nat) : Prop where
  common : ∀ entry ∈ entries, ∀ length, HoldsSequence value entry.2 length → length = count
  single : (∀ entry ∈ entries, ∀ length, ¬HoldsSequence value entry.2 length) → count = 1

/-- These artifacts go into the selection of the index: the whole list, or the list of that index in the sequence. -/
inductive Contributes (binding : SlotBinding) (index : Nat) (artifacts : List Artifact) : Prop where
  | list (held : value binding.node = some (.list artifacts))
  | element {lists : List (List Artifact)} (held : value binding.node = some (.listOfLists lists))
      (there : lists[index]? = some artifacts)

def Enough (binding : SlotBinding) (index : Nat) : Prop :=
  ∃ artifacts, Contributes value binding index artifacts ∧ binding.minCount ≤ artifacts.length

def Short (binding : SlotBinding) (index : Nat) : Prop :=
  ∃ artifacts, Contributes value binding index artifacts ∧ artifacts.length < binding.minCount

inductive FirstShort (index : Nat) (slot : String) : List (String × SlotBinding) → Prop where
  | here {binding : SlotBinding} {rest : List (String × SlotBinding)} (short : Short value binding index) :
      FirstShort index slot ((slot, binding) :: rest)
  | later {entry : String × SlotBinding} {rest : List (String × SlotBinding)} (enough : Enough value entry.2 index)
      (first : FirstShort index slot rest) : FirstShort index slot (entry :: rest)

/-- The selection maps each slot, in their order, to what it contributes at the index, and carries the invocations of
the slots that have one. -/
structure Selects (entries : List (String × SlotBinding)) (index : Nat) (selection : Selection) : Prop where
  artifacts : List.Forall₂ (fun entry held => held.1 = entry.1 ∧ Contributes value entry.2 index held.2) entries
    selection.artifacts.entries
  invocations : selection.invocations.entries =
    entries.filterMap fun entry => entry.2.invocation.map fun call => (entry.1, call)

/-- The outcome is the one that the values of the nodes call for. -/
structure Lawful (entries : List (String × SlotBinding)) (count : Nat) (indices : List Nat) (outcome : Outcome) :
    Prop where
  ascending : indices.Pairwise (· < ·)
  survives : ∀ index, index ∈ indices ↔ index < count ∧ ∀ entry ∈ entries, Enough value entry.2 index
  selections : List.Forall₂ (Selects value entries) indices outcome.selections
  skip : indices = [] ↔ ∃ reason, outcome = .skip reason
  noSelections : outcome = .skip .noSelections ↔ count = 0
  requiredSlotEmpty : ∀ slot, outcome = .skip (.requiredSlotEmpty slot) ↔
    indices = [] ∧ 0 < count ∧ FirstShort value 0 slot entries
  trigger : indices ≠ [] →
    ((∃ selection, outcome = .trigger selection) ↔ ∀ entry ∈ entries, ∀ length, ¬HoldsSequence value entry.2 length)
  triggerSequence : indices ≠ [] →
    ((∃ selections, selections ≠ [] ∧ outcome = .triggerSequence selections) ↔
      ∃ entry ∈ entries, ∃ length, HoldsSequence value entry.2 length)

end Slots

variable {value : Nat → Option NodeValue} {entries : List (String × SlotBinding)} {slots : List FilledSlot}
  {count index : Nat}

theorem IsCount.exists_of_even (even : ¬Uneven value entries) : ∃ count, IsCount value entries count := by
  by_cases some : ∃ entry ∈ entries, ∃ length, HoldsSequence value entry.2 length
  · obtain ⟨entry, member, length, held⟩ := some
    refine ⟨length, fun other there next sequence => ?_, fun none => absurd held (none entry member length)⟩
    by_contra apart
    exact even ⟨other, there, entry, member, next, length, sequence, held, apart⟩
  · refine ⟨1, fun entry member length held => ?_, fun _ => rfl⟩
    exact absurd ⟨entry, member, length, held⟩ some

/-! ## Filling the slots -/

theorem exists_join {first : Option SequenceSlot} (name : String) {held : NodeValue} (noDict : held.shape ≠ .dict)
    (common : ∀ lists, held = .listOfLists lists → lists.length = count)
    (started : ∀ sequence, first = some sequence → sequence.length = count) :
    ∃ next, join first name held = .ok next ∧ (∀ sequence, next = some sequence → sequence.length = count) ∧
      (next = none ↔ first = none ∧ ∀ lists, held ≠ .listOfLists lists) := by
  cases held with
  | dict entries => exact absurd rfl noDict
  | list artifacts => exact ⟨first, rfl, started, by simp⟩
  | listOfLists lists =>
      have length := common lists rfl
      cases first with
      | none => exact ⟨some ⟨name, lists.length⟩, rfl, fun _ same => Option.some.inj same ▸ length, by simp⟩
      | some other =>
          have same := (started other rfl).trans length.symm
          exact ⟨some other, by rw [join, if_pos same], started, by simp⟩

theorem exists_sequence? {first : Option SequenceSlot} (held : ∀ entry ∈ entries, Holds value entry.2)
    (common : ∀ entry ∈ entries, ∀ length, HoldsSequence value entry.2 length → length = count)
    (started : ∀ sequence, first = some sequence → sequence.length = count) :
    ∃ found slots, sequence? value first entries = .ok (found, slots) ∧
      (∀ sequence, found = some sequence → sequence.length = count) ∧
      (found = none ↔ first = none ∧ ∀ entry ∈ entries, ∀ length, ¬HoldsSequence value entry.2 length) := by
  induction entries generalizing first with
  | nil => exact ⟨first, [], rfl, started, by simp⟩
  | cons entry rest ih =>
      obtain ⟨name, binding⟩ := entry
      obtain ⟨⟨here, known, noDict⟩, later⟩ := List.forall_mem_cons.mp held
      obtain ⟨even, others⟩ := List.forall_mem_cons.mp common
      dsimp only at known even
      have lengths : ∀ lists, here = .listOfLists lists → lists.length = count := by
        rintro lists rfl
        exact even lists.length ⟨lists, known, rfl⟩
      have absent : (∀ lists, here ≠ .listOfLists lists) ↔ ∀ length, ¬HoldsSequence value binding length := by
        simp [HoldsSequence, known]
      obtain ⟨next, joins, going, none⟩ := exists_join name noDict lengths started
      obtain ⟨found, slots, filled, agrees, nothing⟩ := ih later others going
      refine ⟨found, ⟨name, binding, here⟩ :: slots, ?_, agrees, ?_⟩
      · rw [sequence?_cons, known]
        simp only [joins, filled, bind, Except.bind]
      · rw [nothing, none, absent, List.forall_mem_cons, and_assoc]

theorem even_of_sequence? {found : Option SequenceSlot} (filled : sequence? value none entries = .ok (found, slots)) :
    ¬Uneven value entries := by
  obtain ⟨_, fills, each⟩ := sequence?_eq_ok filled
  have length_eq : ∀ entry ∈ entries, ∀ length, HoldsSequence value entry.2 length →
      ∃ sequence, found = some sequence ∧ sequence.length = length := by
    rintro entry member length ⟨lists, known, rfl⟩
    obtain ⟨slot, there, _, _, same⟩ := Steps.exists_of_mem fills member
    exact (each slot there).2 lists (Option.some.inj (same.symm.trans known))
  rintro ⟨first, here, second, there, length, other, one, two, apart⟩
  obtain ⟨sequence, known, rfl⟩ := length_eq first here length one
  obtain ⟨again, same, rfl⟩ := length_eq second there other two
  cases Option.some.inj (known.symm.trans same)
  exact apart rfl

/-! ## One slot -/

def Shows (value : Nat → Option NodeValue) (count : Nat) (entry : String × SlotBinding) (slot : FilledSlot) : Prop :=
  slot.name = entry.1 ∧ slot.binding = entry.2 ∧
    ∀ index < count, ∀ artifacts, Contributes value entry.2 index artifacts ↔ artifacts = slot.artifactsAt index

theorem Fills.shows {entry : String × SlotBinding} {slot : FilledSlot} (fills : Fills value entry slot)
    (holds : Holds value entry.2) (common : ∀ length, HoldsSequence value entry.2 length → length = count) :
    Shows value count entry slot := by
  obtain ⟨named, bound, known⟩ := fills
  obtain ⟨other, same, noDict⟩ := holds
  cases Option.some.inj (same.symm.trans known)
  refine ⟨named, bound, fun index inside artifacts => ?_⟩
  obtain ⟨name, binding, held⟩ := slot
  dsimp only at known noDict
  cases held with
  | dict entries => exact absurd rfl noDict
  | list whole =>
      constructor
      · rintro (same | ⟨same, _⟩)
        · cases known.symm.trans same
          rfl
        · cases known.symm.trans same
      · rintro rfl
        exact .list known
  | listOfLists lists =>
      have there : lists[index]? = some (lists[index]?.getD []) := by
        have length := common lists.length ⟨lists, known, rfl⟩
        rw [List.getElem?_eq_getElem (by omega), Option.getD_some]
      constructor
      · rintro (same | ⟨same, found⟩)
        · cases known.symm.trans same
        · cases known.symm.trans same
          exact Option.some.inj (found.symm.trans there)
      · rintro rfl
        exact .element known there

theorem shows_slots (fills : List.Forall₂ (Fills value) entries slots) (held : ∀ entry ∈ entries, Holds value entry.2)
    (common : ∀ entry ∈ entries, ∀ length, HoldsSequence value entry.2 length → length = count) :
    List.Forall₂ (Shows value count) entries slots := by
  induction fills with
  | nil => exact List.Forall₂.nil
  | cons head tail ih =>
      obtain ⟨holds, others⟩ := List.forall_mem_cons.mp held
      obtain ⟨length, later⟩ := List.forall_mem_cons.mp common
      exact List.Forall₂.cons (head.shows holds length) (ih others later)

theorem Shows.enough_iff {entry : String × SlotBinding} {slot : FilledSlot} (shown : Shows value count entry slot)
    (inside : index < count) : Enough value entry.2 index ↔ slot.isShortAt index = false := by
  obtain ⟨_, bound, contributes⟩ := shown
  simp [Enough, contributes index inside, FilledSlot.isShortAt, bound]

theorem Shows.short_iff {entry : String × SlotBinding} {slot : FilledSlot} (shown : Shows value count entry slot)
    (inside : index < count) : Short value entry.2 index ↔ slot.isShortAt index = true := by
  obtain ⟨_, bound, contributes⟩ := shown
  simp [Short, contributes index inside, FilledSlot.isShortAt, bound]

/-! ## All slots at one index -/

theorem shortSlot?_cons (slot : FilledSlot) (rest : List FilledSlot) (index : Nat) :
    shortSlot? (slot :: rest) index = if slot.isShortAt index then some slot.name else shortSlot? rest index := by
  unfold shortSlot?
  rw [List.find?_cons]
  cases slot.isShortAt index <;> rfl

theorem shortSlot?_eq_none (shown : List.Forall₂ (Shows value count) entries slots) (inside : index < count) :
    shortSlot? slots index = none ↔ ∀ entry ∈ entries, Enough value entry.2 index := by
  induction shown with
  | nil => simp [shortSlot?]
  | cons head tail ih =>
      rw [shortSlot?_cons, List.forall_mem_cons, head.enough_iff inside, ← ih]
      split <;> simp_all

theorem shortSlot?_eq_some (shown : List.Forall₂ (Shows value count) entries slots) (inside : index < count)
    {slot : String} : shortSlot? slots index = some slot ↔ FirstShort value index slot entries := by
  induction shown with
  | nil => exact ⟨fun impossible => (nomatch impossible), fun impossible => nomatch impossible⟩
  | @cons entry filled rest others head tail ih =>
      rw [shortSlot?_cons]
      cases short : filled.isShortAt index with
      | true =>
          constructor
          · intro named
            obtain ⟨name, binding⟩ := entry
            obtain rfl : name = slot := head.1.symm.trans (Option.some.inj named)
            exact .here ((head.short_iff inside).mpr short)
          · rintro (_ | ⟨enough, _⟩)
            · exact congrArg some head.1
            · rw [(head.enough_iff inside).mp enough] at short
              cases short
      | false =>
          rw [if_neg Bool.false_ne_true, ih]
          constructor
          · exact .later ((head.enough_iff inside).mpr short)
          · rintro (lacks | ⟨_, first⟩)
            · rw [(head.short_iff inside).mp lacks] at short
              cases short
            · exact first

theorem names_sublist (entries : List (String × SlotBinding)) :
    ((entries.filterMap fun entry => entry.2.invocation.map fun call => (entry.1, call)).map Prod.fst).Sublist
      (entries.map Prod.fst) := by
  induction entries with
  | nil => exact List.Sublist.slnil
  | cons entry rest ih =>
      rw [List.filterMap_cons, List.map_cons]
      cases entry.2.invocation with
      | none => exact ih.cons entry.1
      | some call => exact ih.cons_cons entry.1

theorem invocations_eq (shown : List.Forall₂ (Shows value count) entries slots) :
    (slots.filterMap fun slot => slot.binding.invocation.map fun call => (slot.name, call)) =
      entries.filterMap fun entry => entry.2.invocation.map fun call => (entry.1, call) := by
  induction shown with
  | nil => rfl
  | cons head tail ih => rw [List.filterMap_cons, List.filterMap_cons, ih, head.1, head.2.1]

theorem selects_selectionAt (shown : List.Forall₂ (Shows value count) entries slots)
    (distinct : (entries.map Prod.fst).Nodup) (inside : index < count) :
    Selects value entries index (selectionAt slots index) where
  artifacts := by
    have names : slots.map FilledSlot.name = entries.map Prod.fst := by
      rw [← List.forall₂_eq_eq_eq, List.forall₂_map_left_iff, List.forall₂_map_right_iff]
      exact shown.flip.imp fun _ _ shown => shown.1
    have keys : ((slots.map fun slot => (slot.name, slot.artifactsAt index)).map Prod.fst).Nodup := by
      rw [List.map_map]
      exact names ▸ distinct
    rw [selectionAt, OrderedMap.entries_ofList keys, List.forall₂_map_right_iff]
    exact shown.imp fun _ slot shown => ⟨shown.1, (shown.2.2 index inside _).mpr rfl⟩
  invocations := by
    rw [selectionAt, invocations_eq shown, OrderedMap.entries_ofList]
    exact distinct.sublist (names_sublist entries)

/-! ## The outcome -/

/-- The indices at which no slot is too short. -/
def survivors (slots : List FilledSlot) (count : Nat) : List Nat :=
  (List.range count).filter fun index => (shortSlot? slots index).isNone

theorem mem_survivors (shown : List.Forall₂ (Shows value count) entries slots) :
    index ∈ survivors slots count ↔ index < count ∧ ∀ entry ∈ entries, Enough value entry.2 index := by
  rw [survivors, List.mem_filter, List.mem_range, Option.isNone_iff_eq_none]
  exact and_congr_right fun inside => shortSlot?_eq_none shown inside

theorem selects_selections (shown : List.Forall₂ (Shows value count) entries slots)
    (distinct : (entries.map Prod.fst).Nodup) :
    List.Forall₂ (Selects value entries) (survivors slots count) (selections slots count) := by
  rw [show selections slots count = (survivors slots count).map (selectionAt slots) from rfl,
    List.forall₂_map_right_iff, List.forall₂_same]
  exact fun index member => selects_selectionAt shown distinct ((mem_survivors shown).mp member).1

/-- Where nothing survives although there were candidates, the first candidate was already too short. -/
theorem skipReason_of_candidates (empty : survivors slots count = []) (candidates : 0 < count) :
    ∃ slot, shortSlot? slots 0 = some slot ∧ skipReason slots count = .requiredSlotEmpty slot := by
  have dropped : 0 ∉ survivors slots count := by simp [empty]
  cases short : shortSlot? slots 0 with
  | none => exact absurd (List.mem_filter.mpr ⟨List.mem_range.mpr candidates, by simp [short]⟩) dropped
  | some slot =>
      obtain ⟨more, rfl⟩ := Nat.exists_eq_succ_of_ne_zero (Nat.ne_of_gt candidates)
      refine ⟨slot, rfl, ?_⟩
      rw [skipReason, List.range_succ_eq_map, List.findSome?_cons, short]

theorem lawful_skip (shown : List.Forall₂ (Shows value count) entries slots) (empty : survivors slots count = []) :
    Lawful value entries count [] (.skip (skipReason slots count)) where
  ascending := List.Pairwise.nil
  survives index := by rw [← mem_survivors shown, empty]
  selections := List.Forall₂.nil
  skip := iff_of_true rfl ⟨_, rfl⟩
  noSelections := by
    rcases Nat.eq_zero_or_pos count with rfl | candidates
    · exact iff_of_true rfl rfl
    · obtain ⟨slot, _, reason⟩ := skipReason_of_candidates empty candidates
      rw [reason]
      exact iff_of_false (fun impossible => nomatch impossible) (Nat.ne_of_gt candidates)
  requiredSlotEmpty slot := by
    rcases Nat.eq_zero_or_pos count with rfl | candidates
    · exact iff_of_false (fun impossible => nomatch impossible) fun ⟨_, impossible, _⟩ => Nat.lt_irrefl 0 impossible
    · obtain ⟨named, short, reason⟩ := skipReason_of_candidates empty candidates
      rw [reason, ← shortSlot?_eq_some shown candidates, short]
      simp [candidates]
  trigger some := absurd rfl some
  triggerSequence some := absurd rfl some

theorem lawful_run (shown : List.Forall₂ (Shows value count) entries slots) (distinct : (entries.map Prod.fst).Nodup)
    {outcome : Outcome} (runs : outcome.selections = selections slots count) (proceeds : outcome.isSkip = false)
    (some : survivors slots count ≠ [])
    (trigger : (∃ selection, outcome = .trigger selection) ↔
      ∀ entry ∈ entries, ∀ length, ¬HoldsSequence value entry.2 length)
    (triggerSequence : (∃ selections, selections ≠ [] ∧ outcome = .triggerSequence selections) ↔
      ∃ entry ∈ entries, ∃ length, HoldsSequence value entry.2 length) :
    Lawful value entries count (survivors slots count) outcome := by
  have noSkip : ∀ reason, outcome ≠ .skip reason := by
    rintro reason rfl
    cases proceeds
  refine ⟨List.pairwise_lt_range.filter _, fun index => mem_survivors shown, ?_, ?_, ?_, ?_, ?_, ?_⟩
  · exact runs ▸ selects_selections shown distinct
  · exact iff_of_false some fun ⟨reason, same⟩ => noSkip reason same
  · refine iff_of_false (noSkip _) ?_
    rintro rfl
    exact some rfl
  · exact fun slot => iff_of_false (noSkip _) fun ⟨empty, _⟩ => some empty
  · exact fun _ => trigger
  · exact fun _ => triggerSequence

end InputResolution.Assembly

namespace InputResolution

open Assembly

variable {slots : OrderedMap SlotBinding} {value : Nat → Option NodeValue}

theorem exists_lawful (held : ∀ entry ∈ slots.entries, Holds value entry.2) {count : Nat}
    (counts : IsCount value slots.entries count) :
    ∃ indices outcome, assemble slots value = .ok outcome ∧ Lawful value slots.entries count indices outcome := by
  have started : ∀ sequence, (none : Option SequenceSlot) = some sequence → sequence.length = count := nofun
  obtain ⟨found, filled, done, agrees, nothing⟩ := exists_sequence? held counts.common started
  have fills := (sequence?_eq_ok done).2.1
  have shown := shows_slots fills held counts.common
  have length : (found.map SequenceSlot.length).getD 1 = count := by
    cases found with
    | none => exact (counts.single (nothing.mp rfl).2).symm
    | some sequence => exact agrees sequence rfl
  unfold assemble
  rw [done]
  simp only [bind, Except.bind, length]
  cases chosen : selections filled count with
  | nil => exact ⟨_, _, rfl, lawful_skip shown (List.map_eq_nil_iff.mp chosen)⟩
  | cons first rest =>
      have some : survivors filled count ≠ [] := by
        intro empty
        rw [show selections filled count = (survivors filled count).map (selectionAt filled) from rfl, empty] at chosen
        cases chosen
      cases found with
      | none =>
          -- Without a sequence there is one candidate, so the first selection is the only one.
          obtain rfl : count = 1 := length.symm
          have atMost : (selections filled 1).length ≤ 1 := by
            rw [selections, List.length_map]
            exact List.length_filter_le _ _
          obtain rfl : rest = [] := by simpa [chosen] using atMost
          refine ⟨_, _, rfl, lawful_run shown slots.nodup chosen.symm rfl some ?_ ?_⟩
          · exact iff_of_true ⟨first, rfl⟩ (nothing.mp rfl).2
          · refine iff_of_false ?_ ?_
            · rintro ⟨_, _, impossible⟩
              cases impossible
            · rintro ⟨entry, member, length, sequence⟩
              exact (nothing.mp rfl).2 entry member length sequence
      | some sequence =>
          have holds : ∃ entry ∈ slots.entries, ∃ length, HoldsSequence value entry.2 length := by
            by_contra none
            have found := nothing.mpr ⟨rfl, fun entry member length holds => none ⟨entry, member, length, holds⟩⟩
            cases found
          refine ⟨_, _, rfl, lawful_run shown slots.nodup chosen.symm rfl some ?_ ?_⟩
          · refine iff_of_false ?_ ?_
            · rintro ⟨_, impossible⟩
              cases impossible
            · obtain ⟨entry, member, length, sequenced⟩ := holds
              exact fun none => none entry member length sequenced
          · exact iff_of_true ⟨_, List.cons_ne_nil first rest, rfl⟩ holds

theorem assemble_fails_iff (held : ∀ entry ∈ slots.entries, Holds value entry.2) :
    (∃ cause, assemble slots value = .error cause) ↔ Uneven value slots.entries := by
  constructor
  · rintro ⟨cause, failed⟩
    by_contra even
    obtain ⟨count, counts⟩ := IsCount.exists_of_even even
    obtain ⟨_, outcome, assembled, _⟩ := exists_lawful held counts
    cases failed.symm.trans assembled
  · intro uneven
    cases assembled : assemble slots value with
    | error cause => exact ⟨cause, rfl⟩
    | ok outcome =>
        unfold assemble at assembled
        obtain ⟨⟨found, filled⟩, done, _⟩ := Steps.bind_eq_ok.mp assembled
        exact absurd uneven (even_of_sequence? done)

/-- The law of assembly: slots that hold lists and sequences are refused exactly if two sequences differ in length, and
otherwise the outcome is the one that the values call for. -/
theorem assemble_law (held : ∀ entry ∈ slots.entries, Holds value entry.2) :
    ((∃ cause, assemble slots value = .error cause ∧ cause.kind = .inconsistentResultShape) ↔
        Uneven value slots.entries) ∧
      (¬Uneven value slots.entries → ∃ count indices outcome,
        assemble slots value = .ok outcome ∧ IsCount value slots.entries count ∧
          Lawful value slots.entries count indices outcome) := by
  refine ⟨⟨?_, ?_⟩, ?_⟩
  · rintro ⟨cause, failed, _⟩
    exact (assemble_fails_iff held).mp ⟨cause, failed⟩
  · intro uneven
    obtain ⟨cause, failed⟩ := (assemble_fails_iff held).mpr uneven
    exact ⟨cause, failed, assemble_eq_error held failed⟩
  · intro even
    obtain ⟨count, counts⟩ := IsCount.exists_of_even even
    obtain ⟨indices, outcome, assembled, law⟩ := exists_lawful held counts
    exact ⟨count, indices, outcome, assembled, counts, law⟩

def windowAndLatest : OrderedMap SlotBinding :=
  OrderedMap.ofList [("window", SlotBinding.required 0), ("latest", SlotBinding.optional 1)]

def secondWindowEmpty : Nat → Option NodeValue
  | 0 => some (.listOfLists [(Snapshot.empty.putSpanned "Examples" 1 0).2.artifacts, []])
  | 1 => some (.list (Snapshot.empty.putSpanned "Examples" 1 0).2.artifacts)
  | _ => none

theorem assemble_law_secondWindowEmpty :
    (∀ entry ∈ windowAndLatest.entries, Holds secondWindowEmpty entry.2) ∧
      ¬Uneven secondWindowEmpty windowAndLatest.entries ∧
      ∃ count indices outcome, assemble windowAndLatest secondWindowEmpty = .ok outcome ∧
        IsCount secondWindowEmpty windowAndLatest.entries count ∧
        Lawful secondWindowEmpty windowAndLatest.entries count indices outcome := by
  have held : ∀ entry ∈ windowAndLatest.entries, Holds secondWindowEmpty entry.2 :=
    List.forall_mem_cons.mpr ⟨⟨_, rfl, nofun⟩, List.forall_mem_singleton.mpr ⟨_, rfl, nofun⟩⟩
  have length_eq : ∀ entry ∈ windowAndLatest.entries, ∀ length,
      HoldsSequence secondWindowEmpty entry.2 length → length = 2 := by
    refine List.forall_mem_cons.mpr ⟨?_, List.forall_mem_singleton.mpr ?_⟩
    · rintro length ⟨lists, known, rfl⟩
      cases known
      rfl
    · rintro length ⟨lists, known, rfl⟩
      cases known
  have even : ¬Uneven secondWindowEmpty windowAndLatest.entries := by
    rintro ⟨first, here, second, there, length, other, one, two, apart⟩
    exact apart ((length_eq first here length one).trans (length_eq second there other two).symm)
  exact ⟨held, even, (assemble_law held).2 even⟩

end InputResolution
