import InputResolution.Proofs.Instant.Text
import InputResolution.Proofs.Record.Restored
import InputResolution.Record.Metadata

/-!
Records of a store come back as they were written, with the order of their event keys and ids. Numbers have to fit
into 64 bits, and instants to be on the calendar.
-/

namespace InputResolution

open Record

/-! ## Sorted maps -/

namespace SortedMap

variable {α : Type} {m : SortedMap α}

theorem insertEntry_last {key : String} {entries : List (String × α)} (above : ∀ k ∈ entries.map Prod.fst, k < key)
    (value : α) : insertEntry key value entries = entries ++ [(key, value)] := by
  induction entries with
  | nil => rfl
  | cons entry rest ih =>
      obtain ⟨first, later⟩ := List.forall_mem_cons.mp above
      have before : ¬key < entry.1 := fun below => String.lt_irrefl _ (String.lt_trans first below)
      have other : ¬key = entry.1 := fun same => String.lt_irrefl _ (same ▸ first)
      rw [insertEntry, if_neg before, if_neg other, ih later, List.cons_append]

theorem entries_foldl_insert {entries : List (String × α)}
    (ascending : ((m.entries ++ entries).map Prod.fst).Pairwise (· < ·)) :
    (entries.foldl (fun m entry => m.insert entry.1 entry.2) m).entries = m.entries ++ entries := by
  induction entries generalizing m with
  | nil => exact (List.append_nil _).symm
  | cons entry rest ih =>
      have above : ∀ k ∈ m.entries.map Prod.fst, k < entry.1 := by
        rw [List.map_append, List.pairwise_append] at ascending
        exact fun k member => ascending.2.2 k member entry.1 List.mem_cons_self
      have grown : (m.insert entry.1 entry.2).entries = m.entries ++ [entry] := insertEntry_last above entry.2
      rw [List.foldl_cons, ih, grown, List.append_assoc, List.singleton_append]
      rw [grown, List.append_assoc, List.singleton_append]
      exact ascending

theorem ofList_entries (m : SortedMap α) : ofList m.entries = m :=
  ext (entries_foldl_insert m.ascending)

end SortedMap

/-! ## Artifacts -/

/-- A whole number has 64 bits with a sign. -/
def Property.Storable : Property → Prop
  | int i => isSigned i = true
  | _ => True

instance : DecidablePred Property.Storable
  | .int i => inferInstanceAs (Decidable (isSigned i = true))
  | .double _ => isTrue trivial
  | .text _ => isTrue trivial

theorem Property.restores {value : Property} (storable : value.Storable) : Restores ofWritten? toJson value := by
  cases value with
  | int i => exact if_pos storable
  | double x => rfl
  | text s => rfl

theorem restores_properties {properties : SortedMap Property}
    (storable : ∀ entry ∈ properties.entries, entry.2.Storable) :
    Restores propertiesOfWritten? propertiesToJson properties := by
  obtain ⟨written, found⟩ := entries?_map fun entry member => Property.restores (storable entry member)
  rw [Restores, propertiesToJson, written, propertiesOfWritten?, found, Option.map_some, SortedMap.ofList_entries]

theorem ArtifactState.restores (spelling : Spelling) (state : ArtifactState) :
    Restores (ofWritten? spelling) toJson state := by
  cases spelling <;> cases state <;> rfl

theorem Instant.restores {t : Instant} (on : t.OnCalendar) : Restores ofWritten? toJson t := by
  have written : text? (.ofJson t.toJson) = some t.text := rfl
  rw [Restores, ofWritten?, written, Option.bind_some, read?_text on]

namespace Artifact

def Storable (a : Artifact) : Prop :=
  isSigned a.id = true ∧ (∀ entry ∈ a.properties.entries, entry.2.Storable) ∧ a.createTime.OnCalendar

instance (a : Artifact) : Decidable a.Storable :=
  inferInstanceAs (Decidable (_ ∧ _ ∧ _))

theorem restores {a : Artifact} (storable : a.Storable) (spelling : Spelling) :
    Restores (ofWritten? spelling) toJson a := by
  obtain ⟨id, properties, created⟩ := storable
  refine Steps.bind_eq_some (fields?_ofJson [] rfl (by simp)) ?_
  refine Steps.bind_eq_some (restores_int id).required ?_
  refine Steps.bind_eq_some (restores_text a.typeName).required ?_
  refine Steps.bind_eq_some ((restores_text a.uri).orElse _) ?_
  refine Steps.bind_eq_some ((a.state.restores spelling).orElse _) ?_
  refine Steps.bind_eq_some ((restores_properties properties).orElse _) ?_
  exact Steps.bind_eq_some (Instant.restores created).required rfl

end Artifact

/-! ## Executions -/

theorem restores_ids {ids : List Int} (fits : ∀ id ∈ ids, isSigned id = true) :
    Restores (list? int?) (ofList Json.int) ids :=
  restores_ofList fun id member => restores_int (fits id member)

namespace Execution

theorem restores_events {events : OrderedMap (List Int)}
    (fits : ∀ entry ∈ events.entries, ∀ id ∈ entry.2, isSigned id = true) :
    Restores eventsOfWritten? eventsToJson events :=
  restores_ofMap fun entry member => restores_ids (fits entry member)

def Storable (e : Execution) : Prop :=
  isSigned e.id = true ∧ e.createTime.OnCalendar ∧
    (∀ entry ∈ e.inputs.entries, ∀ id ∈ entry.2, isSigned id = true) ∧
    (∀ entry ∈ e.outputs.entries, ∀ id ∈ entry.2, isSigned id = true) ∧ ∀ id ∈ e.contexts, isSigned id = true

instance (e : Execution) : Decidable e.Storable :=
  inferInstanceAs (Decidable (_ ∧ _ ∧ _ ∧ _ ∧ _))

theorem restores {e : Execution} (storable : e.Storable) : Restores ofWritten? toJson e := by
  obtain ⟨id, created, inputs, outputs, contexts⟩ := storable
  refine Steps.bind_eq_some (fields?_ofJson [] rfl (by simp)) ?_
  refine Steps.bind_eq_some (restores_int id).required ?_
  refine Steps.bind_eq_some (restores_text e.typeName).required ?_
  refine Steps.bind_eq_some (Instant.restores created).required ?_
  refine Steps.bind_eq_some ((restores_events inputs).orElse _) ?_
  refine Steps.bind_eq_some ((restores_events outputs).orElse _) ?_
  exact Steps.bind_eq_some ((restores_ids contexts).orElse _) rfl

end Execution

theorem RunContext.restores {c : RunContext} (fits : isSigned c.id = true) : Restores ofWritten? toJson c := by
  refine Steps.bind_eq_some (fields?_ofJson [] rfl (by simp)) ?_
  refine Steps.bind_eq_some (restores_int fits).required ?_
  refine Steps.bind_eq_some (restores_text c.typeName).required ?_
  exact Steps.bind_eq_some (restores_text c.name).required rfl

/-! ## Snapshots -/

namespace Snapshot

def Storable (s : Snapshot) : Prop :=
  (∀ a ∈ s.artifacts, a.Storable) ∧ (∀ e ∈ s.executions, e.Storable) ∧ ∀ c ∈ s.contexts, isSigned c.id = true

instance (s : Snapshot) : Decidable s.Storable :=
  inferInstanceAs (Decidable (_ ∧ _ ∧ _))

theorem restores {s : Snapshot} (storable : s.Storable) : Restores ofWritten? toJson s := by
  obtain ⟨artifacts, executions, contexts⟩ := storable
  have artifactsRestored := restores_ofList fun a member => Artifact.restores (artifacts a member) .strict
  have executionsRestored := restores_ofList fun e member => Execution.restores (executions e member)
  have contextsRestored := restores_ofList fun c member => RunContext.restores (contexts c member)
  refine Steps.bind_eq_some (fields?_ofJson [] rfl (by simp)) ?_
  refine Steps.bind_eq_some (artifactsRestored.orElse _) ?_
  refine Steps.bind_eq_some (executionsRestored.orElse _) ?_
  exact Steps.bind_eq_some (contextsRestored.orElse _) rfl

end Snapshot

end InputResolution
