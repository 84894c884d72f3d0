import InputResolution.Proofs.Record.Faithful
import InputResolution.Record.Operator

/-!
Graphs are written faithfully. An operation is told by its name and its parameters, and a node by its operation, its id,
its inputs and its shape; so no two graphs have one canonical text.
-/

namespace InputResolution

open Record

theorem Shape.name_injective : Function.Injective Shape.name := by
  intro a b same
  cases a <;> cases b <;> first | rfl | exact absurd same (by decide)

theorem Record.faithful_ofOption_int : Faithful (ofOption Json.int) :=
  faithful_ofOption faithful_int fun _ => nofun

/-! ## Parameters -/

theorem StaticRange.eq_of_members {a b : StaticRange}
    (same : a.members.map Json.normalMember = b.members.map Json.normalMember) : a = b := by
  simp only [members, Json.map_normalMember_cons, List.map_nil, and_true] at same
  obtain ⟨startSpan, endSpan, keepAllVersions, excludedSpans⟩ := same
  cases a
  cases b
  simp only [StaticRange.mk.injEq]
  exact ⟨faithful_ofOption_int startSpan, faithful_int endSpan, faithful_bool keepAllVersions,
    faithful_ofList faithful_int excludedSpans⟩

theorem RollingRange.eq_of_members {a b : RollingRange}
    (same : a.members.map Json.normalMember = b.members.map Json.normalMember) : a = b := by
  simp only [members, Json.map_normalMember_cons, List.map_nil, and_true] at same
  obtain ⟨startSpan, numSpans, skippedRecentSpans, keepAllVersions⟩ := same
  cases a
  cases b
  simp only [RollingRange.mk.injEq]
  exact ⟨faithful_int startSpan, faithful_ofNat numSpans, faithful_ofNat skippedRecentSpans,
    faithful_bool keepAllVersions⟩

theorem SequentialRange.eq_of_members {a b : SequentialRange}
    (same : a.members.map Json.normalMember = b.members.map Json.normalMember) : a = b := by
  simp only [members, Json.map_normalMember_cons, List.map_nil, and_true] at same
  obtain ⟨startSpan, numSpans, skippedRecentSpans, keepAllVersions, excludedSpans⟩ := same
  cases a
  cases b
  simp only [SequentialRange.mk.injEq]
  exact ⟨faithful_int startSpan, faithful_ofNat numSpans, faithful_ofNat skippedRecentSpans,
    faithful_bool keepAllVersions, faithful_ofList faithful_int excludedSpans⟩

theorem SpanDriven.eq_of_members {a b : SpanDriven}
    (same : a.members.map Json.normalMember = b.members.map Json.normalMember) : a = b := by
  simp only [members, Json.map_normalMember_cons, List.map_nil, and_true] at same
  obtain ⟨waitSpans, trainingOffset, additionalSpans, startSpan⟩ := same
  cases a
  cases b
  simp only [SpanDriven.mk.injEq]
  exact ⟨faithful_int waitSpans, faithful_int trainingOffset, faithful_int additionalSpans, faithful_int startSpan⟩

/-! ## Operations -/

namespace Operator

theorem faithful_ofSeed : Faithful ofSeed :=
  fun _ _ same => UInt64.toNat_inj.mp (faithful_ofNat same)

theorem faithful_ofOption_seed : Faithful (ofOption ofSeed) :=
  faithful_ofOption faithful_ofSeed fun _ => nofun

theorem nodup_members (op : Operator) : ("kind" :: op.parameters.map Prod.fst).Nodup := by
  cases op <;>
    simp [parameters, StaticRange.members, RollingRange.members, SequentialRange.members, SpanDriven.members]

theorem keys_eq_of_name_eq {a b : Operator} (named : a.name = b.name) :
    a.parameters.map Prod.fst = b.parameters.map Prod.fst := by
  cases a <;> cases b <;> first | rfl | simp [name] at named

theorem eq_of_parameters_eq {a b : Operator} (named : a.name = b.name)
    (same : a.parameters.map Json.normalMember = b.parameters.map Json.normalMember) : a = b := by
  cases a <;> cases b <;> first | rfl | simp [name] at named
  case staticRange.staticRange => exact congrArg staticRange (StaticRange.eq_of_members same)
  case rollingRange.rollingRange => exact congrArg rollingRange (RollingRange.eq_of_members same)
  case sequentialRange.sequentialRange => exact congrArg sequentialRange (SequentialRange.eq_of_members same)
  case evaluatorInputs.evaluatorInputs => exact congrArg evaluatorInputs (SpanDriven.eq_of_members same)
  all_goals
    simp only [parameters, Json.map_normalMember_cons, List.map_nil, and_true] at same
  case input.input => exact congrArg input (Query.faithful_toJson same)
  case latestPipelineRunOutputs.latestPipelineRunOutputs =>
    exact congrArg₂ latestPipelineRunOutputs (faithful_string same.1) (faithful_string same.2)
  case latestCreated.latestCreated => exact congrArg latestCreated (faithful_ofNat same)
  case latestVersion.latestVersion => exact congrArg latestVersion (faithful_ofNat same)
  case shuffle.shuffle => exact congrArg shuffle (faithful_ofOption_seed same)
  case trainingRange.trainingRange => exact congrArg trainingRange (faithful_string same)
  case select.select => exact congrArg select (faithful_string same)
  case skipIfInsufficientSpans.skipIfInsufficientSpans =>
    exact congrArg₂ skipIfInsufficientSpans (faithful_ofNat same.1) (faithful_ofOption_int same.2)

theorem faithful_toJson : Faithful Operator.toJson := by
  intro a b same
  have named : a.name = b.name :=
    faithful_string (Json.value_normal_eq same b.nodup_members List.mem_cons_self List.mem_cons_self)
  have members := Json.members_eq_of_normal_eq same (congrArg ("kind" :: ·) (keys_eq_of_name_eq named)) b.nodup_members
  exact eq_of_parameters_eq named (List.cons.inj members).2

end Operator

/-! ## Nodes -/

theorem Node.faithful_toJson : Faithful Node.toJson := by
  intro a b same
  have values := Json.members_eq_of_normal_eq same rfl (by simp)
  simp only [Json.map_normalMember_cons, List.map_nil, and_true] at values
  obtain ⟨id, op, inputs, outputShape⟩ := values
  cases a
  cases b
  simp only [Node.mk.injEq]
  exact ⟨faithful_ofNat id, Operator.faithful_toJson op, faithful_ofList faithful_ofNat inputs,
    faithful_name Shape.name_injective outputShape⟩

end InputResolution
