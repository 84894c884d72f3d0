import InputResolution.Outcome
import InputResolution.Record.Context

/-!
Outcomes and errors as JSON. A selection without invocations leaves that member out.
-/

namespace InputResolution

open Record

namespace SkipReason

def names : List String := [
  "insufficient_spans", "missing_required_span", "empty_result", "required_slot_empty", "no_selections"]

def ofWritten? (spelling : Spelling) (written : Written) : Option SkipReason := do
  let (reason, record) ← tagged? spelling "reason" names written
  match reason with
  | "insufficient_spans" =>
      match ← fields? ["node", "found", "required"] record with
      | [node, found, needed] =>
          return insufficientSpans (← required nat? node) (← required nat? found) (← required nat? needed)
      | _ => none
  | "missing_required_span" =>
      match ← fields? ["node", "span"] record with
      | [node, span] => return missingRequiredSpan (← required nat? node) (← required int? span)
      | _ => none
  | "empty_result" =>
      match ← fields? ["node"] record with
      | [node] => return emptyResult (← required nat? node)
      | _ => none
  | "required_slot_empty" =>
      match ← fields? ["slot"] record with
      | [slot] => return requiredSlotEmpty (← required text? slot)
      | _ => none
  | "no_selections" => (empty? record).map fun _ => noSelections
  | _ => none

def toJson : SkipReason → Json
  | insufficientSpans node found needed =>
      .object [("reason", .string "insufficient_spans"), ("node", ofNat node), ("found", ofNat found),
        ("required", ofNat needed)]
  | missingRequiredSpan node span =>
      .object [("reason", .string "missing_required_span"), ("node", ofNat node), ("span", .int span)]
  | emptyResult node => .object [("reason", .string "empty_result"), ("node", ofNat node)]
  | requiredSlotEmpty slot => .object [("reason", .string "required_slot_empty"), ("slot", .string slot)]
  | noSelections => .object [("reason", .string "no_selections")]

end SkipReason

namespace Selection

def ofWritten? (spelling : Spelling) (written : Written) : Option Selection := do
  match ← fields? ["artifacts", "invocations"] written with
  | [artifacts, invocations] =>
      some {
        artifacts := ← required (map? (list? (Artifact.ofWritten? spelling))) artifacts
        invocations := ← orElse OrderedMap.empty (map? (Invocation.ofWritten? spelling)) invocations }
  | _ => none

def toJson (selection : Selection) : Json :=
  let invocations :=
    if selection.invocations.isEmpty then []
    else [("invocations", ofMap Invocation.toJson selection.invocations)]
  .object (("artifacts", ofMap (ofList Artifact.toJson) selection.artifacts) :: invocations)

end Selection

namespace Outcome

def ofWritten? (written : Written) : Option Outcome := do
  let (kind, record) ← tagged? .strict "outcome" [] written
  match kind with
  | "trigger" =>
      match ← fields? ["selection"] record with
      | [selection] => return trigger (← required (Selection.ofWritten? .free) selection)
      | _ => none
  | "trigger_sequence" =>
      match ← fields? ["selections"] record with
      | [selections] => return triggerSequence (← required (list? (Selection.ofWritten? .free)) selections)
      | _ => none
  | "skip" =>
      match ← fields? ["reason"] record with
      | [reason] => return skip (← required (SkipReason.ofWritten? .free) reason)
      | _ => none
  | _ => none

def members : Outcome → List (String × Json)
  | trigger selection => [("selection", selection.toJson)]
  | triggerSequence selections => [("selections", ofList Selection.toJson selections)]
  | skip reason => [("reason", reason.toJson)]

def toJson (outcome : Outcome) : Json :=
  .object (("outcome", .string outcome.kind) :: outcome.members)

end Outcome

namespace StoreError

def ofWritten? : Written → Option StoreError
  | .object [("Unavailable", .string text)] => some (unavailable text)
  | .object [("Corrupt", .string text)] => some (corrupt text)
  | _ => none

def toJson (failure : StoreError) : Json :=
  .object [(failure.name, .string failure.detail)]

end StoreError

namespace ErrorReport

def ofWritten? : Written → Option ErrorReport
  | .object [(name, .string detail)] =>
      let kinds := [ErrorKind.invalidArgument, .inconsistentResultShape, .storeUnavailable, .invalidGraph, .internal]
      (kinds.find? fun kind => kind.name = name).map fun kind => ⟨kind, detail⟩
  | _ => none

def toJson (report : ErrorReport) : Json :=
  .object [(report.kind.name, .string report.detail)]

end ErrorReport

end InputResolution
