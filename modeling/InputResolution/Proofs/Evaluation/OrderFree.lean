import InputResolution.Proofs.Assembly
import InputResolution.Proofs.Evaluation.Rearranged
import InputResolution.Proofs.Evaluation.Shapes

/-!
Results that do not depend on any order. An evaluation goes side by side with the one that gets the answers of the
snapshot itself and shuffles nothing, and at order-free nodes both have the same values. So a context whose slots are
bound to such nodes has one result for all sources that hold the records of one snapshot.
-/

namespace InputResolution

namespace Graph

variable {s : Snapshot} {g : Graph} {known expected : List (Nat × NodeValue)} {first second : Arrangement}

/-- A node that settles the order of its result, or a guard over such a node. -/
inductive OrderFree (g : Graph) : Nat → Prop where
  | settled {id : Nat} {node : Node} (found : g.node? id = some node) (settles : node.op.settlesOrder = true) :
      g.OrderFree id
  | guarded {id input : Nat} {node : Node} (found : g.node? id = some node) (guards : node.op.isGuard = true)
      (single : node.inputs = [input]) (free : g.OrderFree input) : g.OrderFree id

/-- The values of two evaluations go side by side, and order-free nodes have the same value in both. -/
structure Mirrors (s : Snapshot) (g : Graph) (known expected : List (Nat × NodeValue)) : Prop where
  values : ∀ id, Option.Rel (NodeValue.Rearranged s) (known.lookup id) (expected.lookup id)
  free : ∀ id, g.OrderFree id → known.lookup id = expected.lookup id

theorem mirrors_nil (s : Snapshot) (g : Graph) : g.Mirrors s [] [] :=
  ⟨fun _ => Option.Rel.none, fun _ _ => rfl⟩

theorem Mirrors.cons (mirrors : g.Mirrors s known expected) {id : Nat} {value other : NodeValue}
    (rearranged : NodeValue.Rearranged s value other) (same : g.OrderFree id → value = other) :
    g.Mirrors s ((id, value) :: known) ((id, other) :: expected) := by
  constructor
  · intro asked
    by_cases here : asked = id
    · subst here
      rw [List.lookup_cons_self, List.lookup_cons_self]
      exact Option.Rel.some rearranged
    · rw [lookup_cons_ne here, lookup_cons_ne here]
      exact mirrors.values asked
  · intro asked free
    by_cases here : asked = id
    · subst here
      rw [List.lookup_cons_self, List.lookup_cons_self, same free]
    · rw [lookup_cons_ne here, lookup_cons_ne here]
      exact mirrors.free asked free

theorem Mirrors.inputValues (mirrors : g.Mirrors s known expected) (node : Node) :
    Steps.Agree (List.Forall₂ (NodeValue.Rearranged s)) (node.inputValues known) (node.inputValues expected) := by
  refine Steps.Agree.mapM fun input _ => ?_
  have found := mirrors.values input
  generalize known.lookup input = here, expected.lookup input = there at found
  cases found with
  | some rearranged => exact Steps.Agree.ok rearranged
  | none => exact Steps.Agree.error _

/-! ## One step -/

theorem Mirrors.agree_step (mirrors : g.Mirrors s known expected) (distinct : s.Distinct) (id : Nat) :
    (g.stepArranged first known id).EnsuresUnder s.Admits fun outcome =>
      Steps.Agree (NodeValue.Rearranged s) outcome ((g.stepArranged second expected id).value s.answer) := by
  unfold stepArranged
  cases g.node? id with
  | none => exact Steps.Agree.error _
  | some node =>
      have inputs := mirrors.inputValues node
      dsimp only
      generalize node.inputValues known = here, node.inputValues expected = there at inputs
      cases inputs with
      | ok related => exact Node.arranged_agree distinct related
      | error halt => exact Steps.Agree.error halt

theorem Mirrors.settles_step (mirrors : g.Mirrors s known expected) (distinct : s.Distinct) {id : Nat}
    (free : g.OrderFree id) : s.Settles (g.stepArranged first known id) (g.stepArranged second expected id) := by
  cases free with
  | settled found settles =>
      simp only [stepArranged, found]
      exact Node.settles_proceed (mirrors.inputValues _) fun _ _ related =>
        Node.settles_arranged distinct settles related
  | @guarded _ input node found guards single free =>
      -- A guard hands on what it gets, so its only input has to be the same, not just side by side.
      have same : node.inputValues known = node.inputValues expected := by
        simp only [Node.inputValues, single, List.mapM_cons, List.mapM_nil, mirrors.free input free]
      simp only [stepArranged, found, same]
      refine Node.settles_proceed (Steps.agree_eq_iff.mpr rfl) fun values _ equal => ?_
      exact equal ▸ Node.settles_guard guards values

/-- One step keeps the values side by side, and it makes the same value at an order-free node. -/
theorem Mirrors.step (mirrors : g.Mirrors s known expected) (distinct : s.Distinct) (first second : Arrangement)
    (id : Nat) :
    (g.stepArranged first known id).EnsuresUnder s.Admits fun outcome =>
      Steps.Agree (NodeValue.Rearranged s) outcome ((g.stepArranged second expected id).value s.answer) ∧
        (g.OrderFree id → outcome = (g.stepArranged second expected id).value s.answer) := by
  by_cases free : g.OrderFree id
  · exact (mirrors.agree_step distinct id).and ((mirrors.settles_step distinct free).mono fun _ same _ => same)
  · exact (mirrors.agree_step distinct id).mono fun _ alike => ⟨alike, fun other => absurd other free⟩

/-! ## A whole evaluation -/

theorem Mirrors.evaluate (mirrors : g.Mirrors s known expected) (distinct : s.Distinct) (order : List Nat) :
    (g.evaluateArranged first known order).EnsuresUnder s.Admits fun result =>
      Steps.Agree (g.Mirrors s) result ((g.evaluateArranged second expected order).value s.answer) := by
  induction order generalizing known expected with
  | nil => exact Steps.Agree.ok mirrors
  | cons id rest ih =>
      refine Reading.EnsuresUnder.bind ((mirrors.step distinct first second id).mono ?_)
      rintro outcome ⟨alike, same⟩
      rw [evaluateArranged, Reading.value_bind]
      -- Only the outcome of the plain evaluation counts from here on, not how it came about.
      generalize (g.stepArranged second expected id).value s.answer = there at alike same
      cases alike with
      | error halt => exact Steps.Agree.error halt
      | ok rearranged => exact ih (mirrors.cons rearranged fun free => Except.ok.inj (same free))

end Graph

/-! ## A resolution -/

namespace ResolutionContext

variable {σ τ : Type} {s : Snapshot} {context : ResolutionContext}

def OrderFree (context : ResolutionContext) : Prop :=
  ∀ entry ∈ context.slots.entries, context.graph.OrderFree entry.2.node

theorem OrderFree.finish_eq (free : context.OrderFree) {result expected : Evaluated (List (Nat × NodeValue))}
    (alike : Steps.Agree (context.graph.Mirrors s) result expected) :
    context.finish result = context.finish expected := by
  cases alike with
  | error halt => rfl
  | ok mirrors => exact assemble_congr fun entry member => mirrors.free entry.2.node (free entry member)

def plainResult (s : Snapshot) (context : ResolutionContext) : Except ResolveError Outcome :=
  match context.resolutionArranged .identity with
  | .error cause => .error cause
  | .ok reading => reading.value s.answer

theorem OrderFree.resolveArranged_eq (free : context.OrderFree) (distinct : s.Distinct) {source : Source σ}
    (shown : s.ShownBy source) (arrangement : Arrangement) (state : σ) :
    (context.resolveArranged source arrangement state).1 = context.plainResult s := by
  rcases context.resolutionArranged_cases with ⟨cause, failed⟩ | ⟨order, planned⟩
  · rw [resolveArranged, plainResult, failed, failed]
  · have ensured : (context.graph.evaluateArranged arrangement [] order >>= fun values =>
        pure (context.finish values)).EnsuresUnder s.Admits fun result =>
          result = context.finish ((context.graph.evaluateArranged .identity [] order).value s.answer) :=
      Reading.EnsuresUnder.bind (((Graph.mirrors_nil s _).evaluate distinct order).mono fun _ alike =>
        free.finish_eq alike)
    obtain ⟨result, cache, later, ran, same⟩ := (Cache.reflects_empty s).run distinct.artifacts shown ensured state
    rw [ResolutionContext.resolveArranged_eq (planned arrangement) ran, plainResult, planned, same]
    dsimp only
    rw [Reading.value_bind]
    rfl

/-- A context whose slots are bound to order-free nodes has one result for all sources that hold the records of one
snapshot, in whatever order they answer each time, and for all shuffles on the way. Seeds are one way to shuffle; the
second part allows every other. -/
theorem resolve_orderFree (free : context.OrderFree) (distinct : s.Distinct) {source : Source σ} {other : Source τ}
    (shown : s.ShownBy source) (otherShown : s.ShownBy other) :
    (∀ seeding otherSeeding state otherState,
      (context.resolve source seeding state).1 = (context.resolve other otherSeeding otherState).1) ∧
    ∀ arrangement otherArrangement state otherState,
      (context.resolveArranged source arrangement state).1 =
        (context.resolveArranged other otherArrangement otherState).1 := by
  have same : ∀ arrangement otherArrangement state otherState, (context.resolveArranged source arrangement state).1 =
      (context.resolveArranged other otherArrangement otherState).1 := by
    intro arrangement otherArrangement state otherState
    rw [free.resolveArranged_eq distinct shown, free.resolveArranged_eq distinct otherShown]
  refine ⟨?_, same⟩
  intro seeding otherSeeding state otherState
  rw [resolve_eq_resolveArranged, resolve_eq_resolveArranged]
  exact same _ _ state otherState

def newestShuffled : ResolutionContext where
  graph := ⟨[⟨0, .input (Query.ofType "Examples"), [], .list⟩, ⟨1, .shuffle none, [0], .list⟩,
    ⟨2, .latestVersion 1, [1], .list⟩, ⟨3, .skipIfEmpty, [2], .list⟩]⟩
  slots := OrderedMap.ofList [("examples", SlotBinding.required 3)]

def lastFirst : Snapshot :=
  { Snapshot.threeSpans with artifacts := Snapshot.threeSpans.artifacts.reverse }

theorem resolve_orderFree_newestShuffled :
    newestShuffled.OrderFree ∧ Snapshot.threeSpans.Distinct ∧
      Snapshot.threeSpans.ShownBy (Snapshot.threeSpans.source : Source Nat) ∧
      Snapshot.threeSpans.ShownBy (lastFirst.source : Source Unit) ∧
      (newestShuffled.resolve Snapshot.threeSpans.source ⟨some 5, fun _ => 0⟩ 7).1 =
        (newestShuffled.resolve lastFirst.source ⟨none, fun _ => 8⟩ ()).1 := by
  have free : newestShuffled.OrderFree := by
    intro entry member
    cases List.mem_singleton.mp member
    exact Graph.OrderFree.guarded rfl rfl rfl (Graph.OrderFree.settled rfl rfl)
  have distinct : Snapshot.threeSpans.Distinct := ⟨by decide, by decide⟩
  have shown : Snapshot.threeSpans.ShownBy (Snapshot.threeSpans.source : Source Nat) :=
    Snapshot.shownBy_of_perm distinct.artifacts (List.Perm.refl _) (List.Perm.refl _) rfl
  have reversed : Snapshot.threeSpans.ShownBy (lastFirst.source : Source Unit) :=
    Snapshot.shownBy_of_perm distinct.artifacts (List.reverse_perm _) (List.Perm.refl _) rfl
  exact ⟨free, distinct, shown, reversed, (resolve_orderFree free distinct shown reversed).1 _ _ 7 ()⟩

/-- Two contexts of one type and name, each with a run that trained a model of its own. -/
def namesakes : Snapshot where
  artifacts := [⟨1, "Model", "", .live, SortedMap.empty, Instant.ofSeconds 1⟩,
    ⟨2, "Model", "", .live, SortedMap.empty, Instant.ofSeconds 2⟩]
  executions := [⟨1, "Trainer", Instant.ofSeconds 1, OrderedMap.empty, OrderedMap.ofList [("model", [1])], [1]⟩,
    ⟨2, "Trainer", Instant.ofSeconds 2, OrderedMap.empty, OrderedMap.ofList [("model", [2])], [2]⟩]
  contexts := [⟨1, Lineage.pipelineContextType, "nightly"⟩, ⟨2, Lineage.pipelineContextType, "nightly"⟩]

def otherNamesakeFirst : Snapshot :=
  { namesakes with contexts := namesakes.contexts.reverse }

def latestModel : ResolutionContext where
  graph := ⟨[⟨0, .latestPipelineRunOutputs "nightly" "model", [], .list⟩]⟩
  slots := OrderedMap.ofList [("model", SlotBinding.required 0)]

/-- The records alone do not settle a result: of two contexts with one name, the one that is stored first is found. -/
theorem latestModel_of_namesakes :
    namesakes.Distinct ∧ otherNamesakeFirst.artifacts = namesakes.artifacts ∧
      otherNamesakeFirst.executions = namesakes.executions ∧ otherNamesakeFirst.contexts.Perm namesakes.contexts ∧
      (∀ query, otherNamesakeFirst.answer (.artifacts query) = namesakes.answer (.artifacts query)) ∧
      (∀ anchor, otherNamesakeFirst.answer (.lineage anchor) = namesakes.answer (.lineage anchor)) ∧
      (∀ ids, otherNamesakeFirst.answer (.byId ids) = namesakes.answer (.byId ids)) ∧
      latestModel.validate = .ok () ∧ latestModel.OrderFree ∧
      (latestModel.resolve (namesakes.source : Source Nat) ⟨none, fun _ => 0⟩ 7).1 ≠
        (latestModel.resolve (otherNamesakeFirst.source : Source Nat) ⟨none, fun _ => 0⟩ 7).1 := by
  have free : latestModel.OrderFree := by
    intro entry member
    cases List.mem_singleton.mp member
    exact Graph.OrderFree.settled rfl rfl
  have distinct : namesakes.Distinct := ⟨by decide, by decide⟩
  refine ⟨distinct, rfl, rfl, List.reverse_perm _, fun _ => rfl, fun _ => rfl, fun _ => rfl, rfl, free, ?_⟩
  have first : ∃ chosen, (latestModel.resolve (namesakes.source : Source Nat) ⟨none, fun _ => 0⟩ 7).1 =
      .ok (.trigger chosen) ∧ (chosen.artifacts.get? "model").map (List.map Artifact.id) = some [1] :=
    ⟨_, by with_unfolding_all rfl, by rfl⟩
  have second : ∃ chosen, (latestModel.resolve (otherNamesakeFirst.source : Source Nat) ⟨none, fun _ => 0⟩ 7).1 =
      .ok (.trigger chosen) ∧ (chosen.artifacts.get? "model").map (List.map Artifact.id) = some [2] :=
    ⟨_, by with_unfolding_all rfl, by rfl⟩
  obtain ⟨chosen, resolved, one⟩ := first
  obtain ⟨other, otherwise, two⟩ := second
  intro same
  cases (resolved.symm.trans same).trans otherwise
  cases one.symm.trans two

end ResolutionContext

end InputResolution
