import InputResolution.Fingerprint
import InputResolution.Proofs.Record.Restored.Context
import InputResolution.Record.Outcome
import InputResolution.Resolution

/-!
Outcomes come back as they were written, with the order of their selections. So do the contexts that lead to them and
the snapshots that they are taken from, and whoever reads them gets the answers of the originals.
-/

namespace InputResolution

open Record

/-! ## Outcomes -/

namespace SkipReason

def Storable : SkipReason → Prop
  | insufficientSpans node found needed =>
      isUnsigned node = true ∧ isUnsigned found = true ∧ isUnsigned needed = true
  | missingRequiredSpan node span => isUnsigned node = true ∧ isSigned span = true
  | emptyResult node => isUnsigned node = true
  | _ => True

instance : DecidablePred SkipReason.Storable
  | insufficientSpans _ _ _ => inferInstanceAs (Decidable (_ ∧ _ ∧ _))
  | missingRequiredSpan _ _ => inferInstanceAs (Decidable (_ ∧ _))
  | emptyResult node => inferInstanceAs (Decidable (isUnsigned node = true))
  | requiredSlotEmpty _ => isTrue trivial
  | noSelections => isTrue trivial

theorem restores {reason : SkipReason} (storable : reason.Storable) (spelling : Spelling) :
    Restores (ofWritten? spelling) toJson reason := by
  cases reason with
  | insufficientSpans node found needed =>
      obtain ⟨node, found, needed⟩ := storable
      refine Steps.bind_eq_some (tagged?_ofJson spelling names (by simp)) ?_
      refine Steps.bind_eq_some (fields?_ofJson [] rfl (by simp)) ?_
      refine Steps.bind_eq_some (restores_nat node).required ?_
      refine Steps.bind_eq_some (restores_nat found).required ?_
      exact Steps.bind_eq_some (restores_nat needed).required rfl
  | missingRequiredSpan node span =>
      obtain ⟨node, span⟩ := storable
      refine Steps.bind_eq_some (tagged?_ofJson spelling names (by simp)) ?_
      refine Steps.bind_eq_some (fields?_ofJson [] rfl (by simp)) ?_
      refine Steps.bind_eq_some (restores_nat node).required ?_
      exact Steps.bind_eq_some (restores_int span).required rfl
  | emptyResult node =>
      refine Steps.bind_eq_some (tagged?_ofJson spelling names (by simp)) ?_
      refine Steps.bind_eq_some (fields?_ofJson [] rfl (by simp)) ?_
      exact Steps.bind_eq_some (restores_nat storable).required rfl
  | requiredSlotEmpty slot =>
      refine Steps.bind_eq_some (tagged?_ofJson spelling names (by simp)) ?_
      refine Steps.bind_eq_some (fields?_ofJson [] rfl (by simp)) ?_
      exact Steps.bind_eq_some (restores_text slot).required rfl
  | noSelections => exact Steps.bind_eq_some (tagged?_ofJson spelling names (by simp)) rfl

end SkipReason

namespace Selection

def Storable (selection : Selection) : Prop :=
  (∀ entry ∈ selection.artifacts.entries, ∀ a ∈ entry.2, a.Storable) ∧
    ∀ entry ∈ selection.invocations.entries, entry.2.Storable

instance (selection : Selection) : Decidable selection.Storable :=
  inferInstanceAs (Decidable (_ ∧ _))

/-- No invocations at all is what stands in for a member that is left out. -/
theorem restores {selection : Selection} (storable : selection.Storable) (spelling : Spelling) :
    Restores (ofWritten? spelling) toJson selection := by
  obtain ⟨artifacts, invocations⟩ := selection
  obtain ⟨artifactsStorable, invocationsStorable⟩ := storable
  have artifactsRestored : Restores (map? (list? (Artifact.ofWritten? spelling)))
      (ofMap (ofList Artifact.toJson)) artifacts := by
    refine restores_ofMap fun entry member => restores_ofList fun a held => ?_
    exact Artifact.restores (artifactsStorable entry member a held) spelling
  have invocationsRestored : Restores (map? (Invocation.ofWritten? spelling)) (ofMap Invocation.toJson) invocations :=
    restores_ofMap fun entry member => Invocation.restores (invocationsStorable entry member) spelling
  unfold Restores toJson
  split
  · next empty =>
    have none : OrderedMap.empty = invocations := OrderedMap.ext (List.isEmpty_iff.mp empty).symm
    refine Steps.bind_eq_some (fields?_ofJson ["invocations"] rfl (by simp)) ?_
    refine Steps.bind_eq_some artifactsRestored.required ?_
    exact none ▸ rfl
  · refine Steps.bind_eq_some (fields?_ofJson [] rfl (by simp)) ?_
    refine Steps.bind_eq_some artifactsRestored.required ?_
    exact Steps.bind_eq_some (invocationsRestored.orElse _) rfl

end Selection

namespace Outcome

def Storable : Outcome → Prop
  | trigger selection => selection.Storable
  | triggerSequence selections => ∀ selection ∈ selections, selection.Storable
  | skip reason => reason.Storable

instance : DecidablePred Outcome.Storable
  | trigger selection => inferInstanceAs (Decidable selection.Storable)
  | triggerSequence selections => inferInstanceAs (Decidable (∀ selection ∈ selections, selection.Storable))
  | skip reason => inferInstanceAs (Decidable reason.Storable)

theorem restores {outcome : Outcome} (storable : outcome.Storable) : Restores ofWritten? toJson outcome := by
  cases outcome with
  | trigger selection =>
      refine Steps.bind_eq_some (tagged?_ofJson .strict [] (by simp [members])) ?_
      refine Steps.bind_eq_some (fields?_ofJson [] rfl (by simp)) ?_
      exact Steps.bind_eq_some (Selection.restores storable .free).required rfl
  | triggerSequence selections =>
      have restored := restores_ofList fun selection member => Selection.restores (storable selection member) .free
      refine Steps.bind_eq_some (tagged?_ofJson .strict [] (by simp [members])) ?_
      refine Steps.bind_eq_some (fields?_ofJson [] rfl (by simp)) ?_
      exact Steps.bind_eq_some restored.required rfl
  | skip reason =>
      refine Steps.bind_eq_some (tagged?_ofJson .strict [] (by simp [members])) ?_
      refine Steps.bind_eq_some (fields?_ofJson [] rfl (by simp)) ?_
      exact Steps.bind_eq_some (SkipReason.restores storable .free).required rfl

end Outcome

/-! ## Answers -/

/-- Contexts, outcomes and snapshots are read as they were written. So what is read of a context is validated, has its
fingerprints and is resolved as before, also against what is read of a snapshot. -/
theorem ResolutionContext.answers_restored {context : ResolutionContext} {outcome : Outcome} {s : Snapshot}
    (contextStorable : context.Storable) (outcomeStorable : outcome.Storable) (snapshotStorable : s.Storable) :
    Restores ofWritten? toJson context ∧ Restores Outcome.ofWritten? Outcome.toJson outcome ∧
      Restores Snapshot.ofWritten? Snapshot.toJson s ∧
      ∀ read stored, ofWritten? (.ofJson context.toJson) = some read →
        Snapshot.ofWritten? (.ofJson s.toJson) = some stored →
          read.validate = context.validate ∧ read.graph.fingerprint = context.graph.fingerprint ∧
            read.fingerprint = context.fingerprint ∧
            ∀ {σ : Type} (seeding : Seeding) (state : σ),
              read.resolve stored.source seeding state = context.resolve s.source seeding state := by
  have contextRestored := restores contextStorable
  have snapshotRestored := Snapshot.restores snapshotStorable
  refine ⟨contextRestored, Outcome.restores outcomeStorable, snapshotRestored, ?_⟩
  intro read stored found kept
  cases Option.some.inj (contextRestored.symm.trans found)
  cases Option.some.inj (snapshotRestored.symm.trans kept)
  exact ⟨rfl, rfl, rfl, fun _ _ => rfl⟩

def twoFold : Double :=
  ⟨false, 4611686018427387904, by decide⟩

def unsoundContext : ResolutionContext where
  graph := ⟨[⟨0, .input ⟨"Examples", [⟨"share", .lt, .double twoFold⟩], none⟩, [], .list⟩,
    ⟨1, .shuffle none, [0], .list⟩, ⟨7, .skipIfInsufficientSpans 2 (some (-3)), [1, 9], .dict⟩]⟩
  slots := OrderedMap.ofList [
    ("rest", ⟨1, 0, none⟩),
    ("examples", ⟨2, 1, some ⟨"shuffle", [.input 0 "Examples", .channel 1 "shuffle"],
      OrderedMap.ofList [("seed", .null), ("by", .object [("z", .int 1), ("a", .array [.bool true, .object []])])]⟩⟩)]

/-- From before 1970, with a fraction of a second, and with properties of all kinds. -/
def oldExample : Artifact where
  id := -4
  typeName := "Examples"
  uri := ""
  state := .abandoned
  properties := SortedMap.ofList [("span", .int 2), ("share", .double twoFold), ("label", .text "2")]
  createTime := ⟨-5, 125000000, by decide⟩

/-- A training in the leap second at the end of 2016. -/
def leapTraining : Snapshot where
  artifacts := [oldExample]
  executions := [⟨1, "Trainer", ⟨1483228799, 1500000000, by decide⟩,
    OrderedMap.ofList [("val", [-4]), ("examples", [-4, 7, -4])], OrderedMap.empty, [3, 2]⟩]
  contexts := [⟨3, "pipeline", "nightly"⟩]

def oldSelections : Outcome :=
  .triggerSequence [⟨OrderedMap.ofList [("rest", []), ("examples", [oldExample])], OrderedMap.empty⟩,
    ⟨OrderedMap.empty, OrderedMap.ofList [("rest", ⟨"all_spans", [], OrderedMap.empty⟩)]⟩]

theorem ResolutionContext.answers_restored_unsoundContext :
    unsoundContext.validate.toBool = false ∧
      unsoundContext.Storable ∧ Restores ofWritten? toJson unsoundContext ∧
      oldSelections.Storable ∧ Restores Outcome.ofWritten? Outcome.toJson oldSelections ∧
      leapTraining.Storable ∧ Restores Snapshot.ofWritten? Snapshot.toJson leapTraining := by
  have contextStorable : unsoundContext.Storable := by decide +kernel
  have outcomeStorable : oldSelections.Storable := by decide +kernel
  have snapshotStorable : leapTraining.Storable := by decide +kernel
  obtain ⟨context, outcome, snapshot, _⟩ := answers_restored contextStorable outcomeStorable snapshotStorable
  exact ⟨by decide +kernel, contextStorable, context, outcomeStorable, outcome, snapshotStorable, snapshot⟩

end InputResolution
