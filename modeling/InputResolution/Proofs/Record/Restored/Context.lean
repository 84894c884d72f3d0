import InputResolution.Proofs.Record.Restored.Graph
import InputResolution.Record.Context

/-!
Resolution contexts come back as they were written, valid or not, with the order of their slots. A slot without an
invocation leaves that member out, and nothing else is read as no invocation.
-/

namespace InputResolution

open Record

/-! ## Invocations -/

namespace Argument

theorem restores {argument : Argument} (fits : isUnsigned argument.node = true) (spelling : Spelling) :
    Restores (ofWritten? spelling) toJson argument := by
  cases argument with
  | input node typeName =>
      refine Steps.bind_eq_some (tagged?_ofJson spelling kinds (by simp)) ?_
      refine Steps.bind_eq_some (fields?_ofJson [] rfl (by simp)) ?_
      refine Steps.bind_eq_some (restores_nat fits).required ?_
      exact Steps.bind_eq_some (restores_text typeName).required rfl
  | channel node operation =>
      refine Steps.bind_eq_some (tagged?_ofJson spelling kinds (by simp)) ?_
      refine Steps.bind_eq_some (fields?_ofJson [] rfl (by simp)) ?_
      refine Steps.bind_eq_some (restores_nat fits).required ?_
      exact Steps.bind_eq_some (restores_text operation).required rfl

end Argument

namespace Invocation

/-- The nodes fit, and no parameter holds an object that holds a name twice. -/
def Storable (call : Invocation) : Prop :=
  (∀ argument ∈ call.args, isUnsigned argument.node = true) ∧
    ∀ entry ∈ call.kwargs.entries, entry.2.hasDistinctNames = true

instance (call : Invocation) : Decidable call.Storable :=
  inferInstanceAs (Decidable (_ ∧ _))

theorem restores {call : Invocation} (storable : call.Storable) (spelling : Spelling) :
    Restores (ofWritten? spelling) toJson call := by
  obtain ⟨args, kwargs⟩ := storable
  have argsRestored := restores_ofList fun argument member => Argument.restores (args argument member) spelling
  have kwargsRestored := restores_ofMap fun entry member => restores_json (kwargs entry member)
  refine Steps.bind_eq_some (fields?_ofJson [] rfl (by simp)) ?_
  refine Steps.bind_eq_some (restores_text call.function).required ?_
  refine Steps.bind_eq_some (argsRestored.orElse _) ?_
  exact Steps.bind_eq_some (kwargsRestored.orElse _) rfl

end Invocation

/-! ## Slots -/

namespace SlotBinding

def Storable (binding : SlotBinding) : Prop :=
  isUnsigned binding.node = true ∧ isUnsigned binding.minCount = true ∧ ∀ call ∈ binding.invocation, call.Storable

instance (binding : SlotBinding) : Decidable binding.Storable :=
  inferInstanceAs (Decidable (_ ∧ _ ∧ _))

theorem restores {binding : SlotBinding} (storable : binding.Storable) : Restores ofWritten? toJson binding := by
  obtain ⟨node, minCount, invocation⟩ := storable
  obtain ⟨_, _, _ | call⟩ := binding
  · refine Steps.bind_eq_some (fields?_ofJson ["invocation"] rfl (by simp)) ?_
    refine Steps.bind_eq_some (restores_nat node).required ?_
    exact Steps.bind_eq_some ((restores_nat minCount).orElse _) rfl
  · have restored := Invocation.restores (invocation call rfl) .strict
    refine Steps.bind_eq_some (fields?_ofJson [] rfl (by simp)) ?_
    refine Steps.bind_eq_some (restores_nat node).required ?_
    refine Steps.bind_eq_some ((restores_nat minCount).orElse _) ?_
    exact Steps.bind_eq_some (restored.optional nofun) rfl

end SlotBinding

namespace ResolutionContext

def Storable (context : ResolutionContext) : Prop :=
  context.graph.Storable ∧ ∀ entry ∈ context.slots.entries, entry.2.Storable

instance (context : ResolutionContext) : Decidable context.Storable :=
  inferInstanceAs (Decidable (_ ∧ _))

theorem restores {context : ResolutionContext} (storable : context.Storable) : Restores ofWritten? toJson context := by
  obtain ⟨graph, slots⟩ := storable
  have slotsRestored := restores_ofMap fun entry member => SlotBinding.restores (slots entry member)
  refine Steps.bind_eq_some (fields?_ofJson [] rfl (by simp)) ?_
  refine Steps.bind_eq_some (Graph.restores graph).required ?_
  exact Steps.bind_eq_some (slotsRestored.orElse _) rfl

end ResolutionContext

end InputResolution
