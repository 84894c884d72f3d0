import InputResolution.Resolution
import InputResolution.Proofs.OrderedMap
import InputResolution.Proofs.Steps

/-!
How slots are filled. Each slot takes the value of its node, and the sequences among these values agree in length with
the first of them.
-/

namespace InputResolution.Assembly

/-- The first sequence after one more slot with this value. -/
def join (first : Option SequenceSlot) (name : String) : NodeValue → Except ResolveError (Option SequenceSlot)
  | .list _ => .ok first
  | .dict _ => .error (.slotWithDictValue name)
  | .listOfLists lists =>
      match first with
      | none => .ok (some ⟨name, lists.length⟩)
      | some other =>
          if other.length = lists.length then .ok (some other)
          else .error (.unevenSequences name lists.length other.slot other.length)

theorem sequence?_cons (value : Nat → Option NodeValue) (first : Option SequenceSlot) (name : String)
    (binding : SlotBinding) (rest : List (String × SlotBinding)) :
    sequence? value first ((name, binding) :: rest) =
      (match value binding.node with
      | none => .error (.slotNotEvaluated name)
      | some held => do
          let next ← join first name held
          let (found, slots) ← sequence? value next rest
          .ok (found, ⟨name, binding, held⟩ :: slots)) := by
  rw [sequence?]
  cases value binding.node with
  | none => rfl
  | some held =>
      cases held with
      | list artifacts => rfl
      | dict entries => rfl
      | listOfLists lists =>
          cases first with
          | none => rfl
          | some other =>
              dsimp only [join]
              split <;> rfl

def Agrees (found : Option SequenceSlot) (held : NodeValue) : Prop :=
  ∀ lists, held = .listOfLists lists → ∃ sequence, found = some sequence ∧ sequence.length = lists.length

theorem join_eq_ok {first next : Option SequenceSlot} {name : String} {held : NodeValue}
    (joined : join first name held = .ok next) :
    held.shape ≠ .dict ∧ (∀ sequence, first = some sequence → next = some sequence) ∧ Agrees next held := by
  cases held with
  | list artifacts =>
      cases joined
      exact ⟨by simp [NodeValue.shape], fun _ same => same, fun _ impossible => (nomatch impossible)⟩
  | dict entries => cases joined
  | listOfLists lists =>
      refine ⟨by simp [NodeValue.shape], ?_⟩
      cases first with
      | none =>
          cases joined
          refine ⟨fun _ impossible => (nomatch impossible), ?_⟩
          intro others same
          cases same
          exact ⟨_, rfl, rfl⟩
      | some other =>
          simp only [join] at joined
          split at joined
          · next even =>
            cases joined
            refine ⟨fun _ same => same, ?_⟩
            intro others same
            cases same
            exact ⟨other, rfl, even⟩
          · cases joined

def Fills (value : Nat → Option NodeValue) (entry : String × SlotBinding) (slot : FilledSlot) : Prop :=
  slot.name = entry.1 ∧ slot.binding = entry.2 ∧ value entry.2.node = some slot.value

/-- Slots that are filled hold the values of their nodes, no dicts, and sequences of one length. -/
theorem sequence?_eq_ok {value : Nat → Option NodeValue} {first found : Option SequenceSlot}
    {entries : List (String × SlotBinding)} {slots : List FilledSlot}
    (filled : sequence? value first entries = .ok (found, slots)) :
    (∀ sequence, first = some sequence → found = some sequence) ∧ List.Forall₂ (Fills value) entries slots ∧
      ∀ slot ∈ slots, slot.value.shape ≠ .dict ∧ Agrees found slot.value := by
  induction entries generalizing first slots with
  | nil =>
      cases filled
      exact ⟨fun _ same => same, List.Forall₂.nil, fun _ member => nomatch member⟩
  | cons entry rest ih =>
      obtain ⟨name, binding⟩ := entry
      rw [sequence?_cons] at filled
      split at filled
      · cases filled
      · next held known =>
        obtain ⟨next, joined, others⟩ := Steps.bind_eq_ok.mp filled
        obtain ⟨⟨last, tail⟩, restFilled, same⟩ := Steps.bind_eq_ok.mp others
        cases same
        obtain ⟨noDict, kept, agrees⟩ := join_eq_ok joined
        obtain ⟨later, fills, each⟩ := ih restFilled
        refine ⟨fun sequence same => later sequence (kept sequence same),
          List.Forall₂.cons ⟨rfl, rfl, known⟩ fills, ?_⟩
        intro slot member
        rcases List.mem_cons.mp member with rfl | after
        · refine ⟨noDict, ?_⟩
          intro lists same
          obtain ⟨sequence, here, even⟩ := agrees lists same
          exact ⟨sequence, later sequence here, even⟩
        · exact each slot after

/-- With a value for every slot, and no dicts, only uneven sequences stand in the way. -/
theorem sequence?_eq_error {value : Nat → Option NodeValue} {first : Option SequenceSlot}
    {entries : List (String × SlotBinding)} {cause : ResolveError}
    (present : ∀ entry ∈ entries, ∃ held, value entry.2.node = some held ∧ held.shape ≠ .dict)
    (failed : sequence? value first entries = .error cause) : cause.kind = .inconsistentResultShape := by
  induction entries generalizing first with
  | nil => cases failed
  | cons entry rest ih =>
      obtain ⟨name, binding⟩ := entry
      obtain ⟨held, known, noDict⟩ := present (name, binding) List.mem_cons_self
      rw [sequence?_cons, known] at failed
      rcases Steps.bind_eq_error.mp failed with refused | ⟨next, _, others⟩
      · cases held with
        | list artifacts => cases refused
        | dict entries => exact absurd rfl noDict
        | listOfLists lists =>
            cases first with
            | none => cases refused
            | some other =>
                simp only [join] at refused
                split at refused
                · cases refused
                · cases refused
                  rfl
      · rcases Steps.bind_eq_error.mp others with later | ⟨_, _, impossible⟩
        · exact ih (fun entry member => present entry (List.mem_cons_of_mem _ member)) later
        · cases impossible

theorem sequence?_congr {value other : Nat → Option NodeValue} {entries : List (String × SlotBinding)}
    (same : ∀ entry ∈ entries, value entry.2.node = other entry.2.node) (first : Option SequenceSlot) :
    sequence? value first entries = sequence? other first entries := by
  induction entries generalizing first with
  | nil => rfl
  | cons entry rest ih =>
      obtain ⟨name, binding⟩ := entry
      have here := same (name, binding) List.mem_cons_self
      have later := ih fun entry member => same entry (List.mem_cons_of_mem _ member)
      simp only at here
      simp only [sequence?_cons, here, later]

/-! ## Selections -/

theorem names_eq {value : Nat → Option NodeValue} {entries : List (String × SlotBinding)} {slots : List FilledSlot}
    (fills : List.Forall₂ (Fills value) entries slots) :
    slots.map FilledSlot.name = entries.map Prod.fst := by
  induction fills with
  | nil => rfl
  | cons head tail ih => rw [List.map_cons, List.map_cons, head.1, ih]

theorem mem_selections {slots : List FilledSlot} {count : Nat} {selection : Selection}
    (member : selection ∈ selections slots count) :
    ∃ index, selection = selectionAt slots index ∧
      ∀ slot ∈ slots, slot.binding.minCount ≤ (slot.artifactsAt index).length := by
  obtain ⟨index, kept, same⟩ := List.mem_map.mp member
  refine ⟨index, same.symm, ?_⟩
  intro slot there
  have none := (List.mem_filter.mp kept).2
  simp only [shortSlot?, Option.isNone_map, Option.isNone_iff_eq_none, List.find?_eq_none] at none
  have enough := none slot there
  simpa [FilledSlot.isShortAt] using enough

theorem selectionAt_get? {slots : List FilledSlot} (distinct : (slots.map FilledSlot.name).Nodup) (index : Nat)
    {slot : FilledSlot} (member : slot ∈ slots) :
    (selectionAt slots index).artifacts.get? slot.name = some (slot.artifactsAt index) := by
  apply OrderedMap.get?_of_mem
  have keys : ((slots.map fun slot => (slot.name, slot.artifactsAt index)).map Prod.fst).Nodup := by
    rw [List.map_map]
    exact distinct
  rw [selectionAt, OrderedMap.entries_ofList keys]
  exact List.mem_map_of_mem member

end InputResolution.Assembly

namespace InputResolution

/-- Only the values of the nodes that slots are bound to matter. -/
theorem assemble_congr {slots : OrderedMap SlotBinding} {value other : Nat → Option NodeValue}
    (same : ∀ entry ∈ slots.entries, value entry.2.node = other entry.2.node) :
    assemble slots value = assemble slots other := by
  unfold assemble
  rw [Assembly.sequence?_congr same]

theorem assemble_eq_error {slots : OrderedMap SlotBinding} {value : Nat → Option NodeValue} {cause : ResolveError}
    (present : ∀ entry ∈ slots.entries, ∃ held, value entry.2.node = some held ∧ held.shape ≠ .dict)
    (failed : assemble slots value = .error cause) : cause.kind = .inconsistentResultShape := by
  unfold assemble at failed
  rcases Steps.bind_eq_error.mp failed with uneven | ⟨⟨sequence, filled⟩, _, rest⟩
  · exact Assembly.sequence?_eq_error present uneven
  · dsimp only at rest
    split at rest
    · cases rest
    · split at rest <;> cases rest

/-- Every selection of an outcome holds for each slot, at the selection's index, what the node of the slot gave, and no
less of it than the slot needs. -/
theorem assemble_eq_ok {slots : OrderedMap SlotBinding} {value : Nat → Option NodeValue} {outcome : Outcome}
    (assembled : assemble slots value = .ok outcome) {selection : Selection} (member : selection ∈ outcome.selections) :
    ∃ index, ∀ slot binding, (slot, binding) ∈ slots.entries → ∃ filled : FilledSlot,
      value binding.node = some filled.value ∧
        selection.artifacts.get? slot = some (filled.artifactsAt index) ∧
        binding.minCount ≤ (filled.artifactsAt index).length := by
  unfold assemble at assembled
  obtain ⟨⟨sequence, filled⟩, done, rest⟩ := Steps.bind_eq_ok.mp assembled
  obtain ⟨_, fills, _⟩ := Assembly.sequence?_eq_ok done
  have names := Assembly.names_eq fills
  have distinct : (filled.map FilledSlot.name).Nodup := names ▸ slots.nodup
  have kept : selection ∈ Assembly.selections filled ((sequence.map SequenceSlot.length).getD 1) := by
    dsimp only at rest
    split at rest
    · cases rest
      cases member
    · next first others chosen =>
      rw [chosen]
      split at rest
      · cases rest
        rw [List.mem_singleton.mp member]
        exact List.mem_cons_self
      · cases rest
        exact member
  obtain ⟨index, rfl, enough⟩ := Assembly.mem_selections kept
  refine ⟨index, ?_⟩
  intro slot binding entry
  obtain ⟨held, there, named, bound, known⟩ := Steps.exists_of_mem fills entry
  refine ⟨held, known, ?_, ?_⟩
  · have found := Assembly.selectionAt_get? distinct index there
    rw [named] at found
    exact found
  · have least := enough held there
    rw [bound] at least
    exact least

theorem assemble_single {slots : OrderedMap SlotBinding} {value : Nat → Option NodeValue} {slot : String}
    {binding : SlotBinding} {artifacts : List Artifact} (only : slots.entries = [(slot, binding)])
    (held : value binding.node = some (.list artifacts)) :
    assemble slots value =
      if artifacts.length < binding.minCount then .ok (.skip (.requiredSlotEmpty slot))
      else .ok (.trigger (Assembly.selectionAt [⟨slot, binding, .list artifacts⟩] 0)) := by
  have filled : Assembly.sequence? value none slots.entries = .ok (none, [⟨slot, binding, .list artifacts⟩]) := by
    rw [only, Assembly.sequence?_cons, held]
    rfl
  unfold assemble
  rw [filled]
  by_cases short : artifacts.length < binding.minCount
  · simp [Assembly.selections, Assembly.skipReason, Assembly.shortSlot?, FilledSlot.isShortAt, FilledSlot.artifactsAt,
      short, bind, Except.bind]
  · simp [Assembly.selections, Assembly.shortSlot?, FilledSlot.isShortAt, FilledSlot.artifactsAt, short, bind,
      Except.bind]

end InputResolution
