import InputResolution.Proofs.Record.Graph
import InputResolution.Proofs.Record.Restored.Store

/-!
Graphs come back as they were written. Every operation is read under the name that its tag gives, and no parameter is
taken for the one that would stand in for a missing one. Numbers have to fit into 64 bits.
-/

namespace InputResolution

open Record

/-! ## Queries -/

theorem Relation.restores (spelling : Spelling) (relation : Relation) :
    Restores (ofWritten? spelling) toJson relation := by
  cases spelling <;> cases relation <;> rfl

theorem Filter.restores {f : Filter} (storable : f.value.Storable) (spelling : Spelling) :
    Restores (ofWritten? spelling) toJson f := by
  refine Steps.bind_eq_some (fields?_ofJson [] rfl (by simp)) ?_
  refine Steps.bind_eq_some (restores_text f.property).required ?_
  refine Steps.bind_eq_some (f.relation.restores spelling).required ?_
  exact Steps.bind_eq_some (Property.restores storable).required rfl

namespace Query

def Storable (q : Query) : Prop :=
  ∀ f ∈ q.filters, f.value.Storable

instance (q : Query) : Decidable q.Storable :=
  inferInstanceAs (Decidable (∀ f ∈ q.filters, f.value.Storable))

/-- No state is not the state that stands in for a missing one. -/
theorem restores_state (spelling : Spelling) (state : Option ArtifactState) :
    Restores (stateOfWritten? spelling) (ofOption ArtifactState.toJson) state := by
  cases state with
  | none => rfl
  | some state => exact congrArg (Option.map some) (state.restores spelling)

theorem restores {q : Query} (storable : q.Storable) (spelling : Spelling) :
    Restores (ofWritten? spelling) toJson q := by
  have filters := restores_ofList fun f member => Filter.restores (storable f member) spelling
  refine Steps.bind_eq_some (fields?_ofJson [] rfl (by simp)) ?_
  refine Steps.bind_eq_some (restores_text q.typeName).required ?_
  refine Steps.bind_eq_some (filters.orElse _) ?_
  exact Steps.bind_eq_some ((restores_state spelling q.state).orElse _) rfl

end Query

/-! ## Parameters -/

theorem optional_int {x : Option Int} (fits : ∀ i ∈ x, isSigned i = true) :
    optional int? (some (.ofJson (ofOption .int x))) = some x :=
  optional_ofOption (fun i member => restores_int (fits i member)) fun _ => nofun

namespace StaticRange

def Storable (range : StaticRange) : Prop :=
  (∀ span ∈ range.startSpan, isSigned span = true) ∧ isSigned range.endSpan = true ∧
    ∀ span ∈ range.excludedSpans, isSigned span = true

instance (range : StaticRange) : Decidable range.Storable :=
  inferInstanceAs (Decidable (_ ∧ _ ∧ _))

theorem restores {range : StaticRange} (storable : range.Storable) :
    Restores ofWritten? (fun range => .object range.members) range := by
  obtain ⟨startSpan, endSpan, excludedSpans⟩ := storable
  refine Steps.bind_eq_some (fields?_ofJson [] rfl (by simp)) ?_
  refine Steps.bind_eq_some (optional_int startSpan) ?_
  refine Steps.bind_eq_some (restores_int endSpan).required ?_
  refine Steps.bind_eq_some ((restores_bool range.keepAllVersions).orElse _) ?_
  exact Steps.bind_eq_some ((restores_ids excludedSpans).orElse _) rfl

end StaticRange

namespace RollingRange

def Storable (range : RollingRange) : Prop :=
  isSigned range.startSpan = true ∧ isUnsigned range.numSpans = true ∧ isUnsigned range.skippedRecentSpans = true

instance (range : RollingRange) : Decidable range.Storable :=
  inferInstanceAs (Decidable (_ ∧ _ ∧ _))

theorem restores {range : RollingRange} (storable : range.Storable) :
    Restores ofWritten? (fun range => .object range.members) range := by
  obtain ⟨startSpan, numSpans, skippedRecentSpans⟩ := storable
  refine Steps.bind_eq_some (fields?_ofJson [] rfl (by simp)) ?_
  refine Steps.bind_eq_some (restores_int startSpan).required ?_
  refine Steps.bind_eq_some (restores_nat numSpans).required ?_
  refine Steps.bind_eq_some ((restores_nat skippedRecentSpans).orElse _) ?_
  exact Steps.bind_eq_some ((restores_bool range.keepAllVersions).orElse _) rfl

end RollingRange

namespace SequentialRange

def Storable (range : SequentialRange) : Prop :=
  isSigned range.startSpan = true ∧ isUnsigned range.numSpans = true ∧ isUnsigned range.skippedRecentSpans = true ∧
    ∀ span ∈ range.excludedSpans, isSigned span = true

instance (range : SequentialRange) : Decidable range.Storable :=
  inferInstanceAs (Decidable (_ ∧ _ ∧ _ ∧ _))

theorem restores {range : SequentialRange} (storable : range.Storable) :
    Restores ofWritten? (fun range => .object range.members) range := by
  obtain ⟨startSpan, numSpans, skippedRecentSpans, excludedSpans⟩ := storable
  refine Steps.bind_eq_some (fields?_ofJson [] rfl (by simp)) ?_
  refine Steps.bind_eq_some (restores_int startSpan).required ?_
  refine Steps.bind_eq_some (restores_nat numSpans).required ?_
  refine Steps.bind_eq_some ((restores_nat skippedRecentSpans).orElse _) ?_
  refine Steps.bind_eq_some ((restores_bool range.keepAllVersions).orElse _) ?_
  exact Steps.bind_eq_some ((restores_ids excludedSpans).orElse _) rfl

end SequentialRange

namespace SpanDriven

def Storable (params : SpanDriven) : Prop :=
  isSigned params.waitSpans = true ∧ isSigned params.trainingOffset = true ∧
    isSigned params.additionalSpans = true ∧ isSigned params.startSpan = true

instance (params : SpanDriven) : Decidable params.Storable :=
  inferInstanceAs (Decidable (_ ∧ _ ∧ _ ∧ _))

theorem restores {params : SpanDriven} (storable : params.Storable) :
    Restores ofWritten? (fun params => .object params.members) params := by
  obtain ⟨waitSpans, trainingOffset, additionalSpans, startSpan⟩ := storable
  refine Steps.bind_eq_some (fields?_ofJson [] rfl (by simp)) ?_
  refine Steps.bind_eq_some ((restores_int waitSpans).orElse _) ?_
  refine Steps.bind_eq_some ((restores_int trainingOffset).orElse _) ?_
  refine Steps.bind_eq_some ((restores_int additionalSpans).orElse _) ?_
  exact Steps.bind_eq_some ((restores_int startSpan).orElse _) rfl

end SpanDriven

/-! ## Operations -/

namespace Operator

theorem restores_seed (seed : UInt64) : Restores seed? ofSeed seed := by
  have storable : isUnsigned seed.toNat = true := by
    have bound := seed.toNat_lt
    simp only [isUnsigned, Bool.and_eq_true, decide_eq_true_eq]
    omega
  rw [Restores, seed?, ofSeed, restores_nat storable, Option.map_some]
  exact congrArg some UInt64.ofNat_toNat

theorem optional_seed (seed : Option UInt64) : optional seed? (some (.ofJson (ofOption ofSeed seed))) = some seed :=
  optional_ofOption (fun seed _ => restores_seed seed) fun _ => nofun

def Storable : Operator → Prop
  | input query => query.Storable
  | latestCreated n => isUnsigned n = true
  | latestVersion n => isUnsigned n = true
  | staticRange range => range.Storable
  | rollingRange range => range.Storable
  | sequentialRange range => range.Storable
  | evaluatorInputs params => params.Storable
  | skipIfInsufficientSpans minSpans requiredSpan =>
      isUnsigned minSpans = true ∧ ∀ span ∈ requiredSpan, isSigned span = true
  | _ => True

instance : DecidablePred Operator.Storable
  | input query => inferInstanceAs (Decidable query.Storable)
  | latestCreated n => inferInstanceAs (Decidable (isUnsigned n = true))
  | latestVersion n => inferInstanceAs (Decidable (isUnsigned n = true))
  | staticRange range => inferInstanceAs (Decidable range.Storable)
  | rollingRange range => inferInstanceAs (Decidable range.Storable)
  | sequentialRange range => inferInstanceAs (Decidable range.Storable)
  | evaluatorInputs params => inferInstanceAs (Decidable params.Storable)
  | skipIfInsufficientSpans _ _ => inferInstanceAs (Decidable (_ ∧ _))
  | latestPipelineRunOutputs _ _ => isTrue trivial
  | allSpans => isTrue trivial
  | shuffle _ => isTrue trivial
  | trainingRange _ => isTrue trivial
  | latestTrained => isTrue trivial
  | select _ => isTrue trivial
  | skipIfEmpty => isTrue trivial

theorem ofParameters?_name {op : Operator} (storable : op.Storable) :
    ofParameters? op.name (.ofJson (.object op.parameters)) = some op := by
  cases op <;> rw [name, parameters, ofParameters?]
  case input query =>
    refine Steps.bind_eq_some (fields?_ofJson [] rfl (by simp)) ?_
    exact Steps.bind_eq_some (Query.restores storable .free).required rfl
  case latestPipelineRunOutputs pipeline outputKey =>
    refine Steps.bind_eq_some (fields?_ofJson [] rfl (by simp)) ?_
    refine Steps.bind_eq_some (restores_text pipeline).required ?_
    exact Steps.bind_eq_some (restores_text outputKey).required rfl
  case latestCreated n =>
    refine Steps.bind_eq_some (fields?_ofJson [] rfl (by simp)) ?_
    exact Steps.bind_eq_some (restores_nat storable).required rfl
  case latestVersion n =>
    refine Steps.bind_eq_some (fields?_ofJson [] rfl (by simp)) ?_
    exact Steps.bind_eq_some (restores_nat storable).required rfl
  case allSpans => rfl
  case staticRange range => exact congrArg (Option.map staticRange) (StaticRange.restores storable)
  case rollingRange range => exact congrArg (Option.map rollingRange) (RollingRange.restores storable)
  case sequentialRange range => exact congrArg (Option.map sequentialRange) (SequentialRange.restores storable)
  case shuffle seed =>
    refine Steps.bind_eq_some (fields?_ofJson [] rfl (by simp)) ?_
    exact Steps.bind_eq_some (optional_seed seed) rfl
  case trainingRange examplesType =>
    refine Steps.bind_eq_some (fields?_ofJson [] rfl (by simp)) ?_
    exact Steps.bind_eq_some ((restores_text examplesType).orElse _) rfl
  case latestTrained => rfl
  case evaluatorInputs params => exact congrArg (Option.map evaluatorInputs) (SpanDriven.restores storable)
  case select key =>
    refine Steps.bind_eq_some (fields?_ofJson [] rfl (by simp)) ?_
    exact Steps.bind_eq_some (restores_text key).required rfl
  case skipIfInsufficientSpans minSpans requiredSpan =>
    refine Steps.bind_eq_some (fields?_ofJson [] rfl (by simp)) ?_
    refine Steps.bind_eq_some (restores_nat storable.1).required ?_
    exact Steps.bind_eq_some (optional_int storable.2) rfl
  case skipIfEmpty => rfl

theorem restores {op : Operator} (storable : op.Storable) : Restores ofWritten? toJson op := by
  have tag : "kind" ∉ op.parameters.map Prod.fst := (List.nodup_cons.mp op.nodup_members).1
  exact Steps.bind_eq_some (tagged?_ofJson .strict [] tag) (ofParameters?_name storable)

end Operator

/-! ## Nodes -/

theorem Shape.restores (shape : Shape) : Restores ofWritten? toJson shape := by
  cases shape <;> rfl

theorem restores_nodeIds {ids : List Nat} (fits : ∀ id ∈ ids, isUnsigned id = true) :
    Restores (list? nat?) (ofList ofNat) ids :=
  restores_ofList fun id member => restores_nat (fits id member)

namespace Node

def Storable (node : Node) : Prop :=
  isUnsigned node.id = true ∧ node.op.Storable ∧ ∀ input ∈ node.inputs, isUnsigned input = true

instance (node : Node) : Decidable node.Storable :=
  inferInstanceAs (Decidable (_ ∧ _ ∧ _))

theorem restores {node : Node} (storable : node.Storable) : Restores ofWritten? toJson node := by
  obtain ⟨id, op, inputs⟩ := storable
  refine Steps.bind_eq_some (fields?_ofJson [] rfl (by simp)) ?_
  refine Steps.bind_eq_some (restores_nat id).required ?_
  refine Steps.bind_eq_some (Operator.restores op).required ?_
  refine Steps.bind_eq_some ((restores_nodeIds inputs).orElse _) ?_
  exact Steps.bind_eq_some node.outputShape.restores.required rfl

end Node

namespace Graph

def Storable (g : Graph) : Prop :=
  ∀ node ∈ g.nodes, node.Storable

instance (g : Graph) : Decidable g.Storable :=
  inferInstanceAs (Decidable (∀ node ∈ g.nodes, node.Storable))

theorem restores {g : Graph} (storable : g.Storable) : Restores ofWritten? toJson g := by
  have nodes := restores_ofList fun node member => Node.restores (storable node member)
  refine Steps.bind_eq_some (fields?_ofJson [] rfl (by simp)) ?_
  exact Steps.bind_eq_some (nodes.orElse _) rfl

end Graph

end InputResolution
