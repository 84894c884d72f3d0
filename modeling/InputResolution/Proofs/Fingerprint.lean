import InputResolution.Fingerprint
import InputResolution.Proofs.Json.CanonicalText
import InputResolution.Proofs.Record.Graph

/-!
What fingerprints identify. If no two texts have one digest, then the fingerprint of a graph tells all of its nodes, and
that of a context the graph and the name, the node and the count of each slot. The order of slots and their invocations
do not show.
-/

namespace InputResolution

open Record

theorem Graph.fingerprintWith_injective {hash : String → String} (injective : Function.Injective hash) :
    Function.Injective (Graph.fingerprintWith hash) := by
  intro g h same
  have normal := Json.normal_eq_of_canonicalText_eq (injective same)
  have values := Json.members_eq_of_normal_eq normal rfl (by simp)
  simp only [Json.map_normalMember_cons, List.map_nil, true_and, and_true] at values
  cases g
  cases h
  exact congrArg Graph.mk (faithful_ofList Node.faithful_toJson values)

namespace ResolutionContext

def coveredEntry (entry : String × SlotBinding) : String × Nat × Nat :=
  (entry.1, entry.2.node, entry.2.minCount)

/-- Contexts that may differ in the order of their slots and in the invocations, and in nothing else. -/
structure Alike (a b : ResolutionContext) : Prop where
  graph : a.graph = b.graph
  slots : (a.slots.entries.map coveredEntry).Perm (b.slots.entries.map coveredEntry)

def coveredMember (covered : String × Nat × Nat) : String × Json :=
  (covered.1, .object [("node", ofNat covered.2.1), ("min_count", ofNat covered.2.2)])

theorem ofMap_coveredSlot (slots : OrderedMap SlotBinding) :
    ofMap coveredSlot slots = .object ((slots.entries.map coveredEntry).map coveredMember) := by
  rw [ofMap, List.map_map]
  rfl

theorem keys_coveredMember (slots : OrderedMap SlotBinding) :
    ((slots.entries.map coveredEntry).map coveredMember).map Prod.fst = slots.entries.map Prod.fst := by
  rw [List.map_map, List.map_map]
  rfl

theorem normal_coveredMember_injective : Function.Injective (Json.normalMember ∘ coveredMember) := by
  rintro ⟨name, node, minCount⟩ ⟨other, otherNode, otherCount⟩ same
  obtain ⟨names, normal⟩ := Prod.mk.inj same
  have values := Json.members_eq_of_normal_eq normal rfl (by simp)
  simp only [Json.map_normalMember_cons, List.map_nil, and_true] at values
  exact Prod.ext names (Prod.ext (faithful_ofNat values.1) (faithful_ofNat values.2))

variable {hash : String → String} {a b : ResolutionContext}

theorem alike_of_fingerprint_eq (injective : Function.Injective hash)
    (same : a.fingerprintWith hash = b.fingerprintWith hash) : a.Alike b := by
  have normal := Json.normal_eq_of_canonicalText_eq (injective same)
  have values := Json.members_eq_of_normal_eq normal rfl (by simp)
  simp only [Json.map_normalMember_cons, List.map_nil, true_and, and_true] at values
  obtain ⟨graphs, slots⟩ := values
  refine ⟨Graph.fingerprintWith_injective injective (faithful_string graphs), ?_⟩
  rw [ofMap_coveredSlot, ofMap_coveredSlot] at slots
  apply (List.map_perm_map_iff normal_coveredMember_injective).mp
  rw [← List.map_map, ← List.map_map]
  exact Json.perm_of_normal_eq slots

theorem fingerprint_eq_of_alike (hash : String → String) (alike : a.Alike b) :
    a.fingerprintWith hash = b.fingerprintWith hash := by
  have slots : (ofMap coveredSlot a.slots).canonicalText = (ofMap coveredSlot b.slots).canonicalText := by
    rw [ofMap_coveredSlot, ofMap_coveredSlot]
    apply Json.canonicalText_eq_of_perm (alike.slots.map _)
    rw [keys_coveredMember]
    exact a.slots.nodup
  unfold fingerprintWith covered
  rw [Json.canonicalText, Json.canonicalText]
  simp only [Json.memberTexts, slots, alike.graph]

end ResolutionContext

end InputResolution
