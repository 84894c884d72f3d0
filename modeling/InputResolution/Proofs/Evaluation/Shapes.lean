import InputResolution.Proofs.Assembly
import InputResolution.Proofs.Cache
import InputResolution.Proofs.Evaluation.Trace

/-!
Shapes of values. On a valid graph an operation that gets values of the declared shapes makes one of its own declared
shape, or it skips, or it fails for a reason that lies in its parameters. So a whole evaluation never meets a value that
is missing or has an unexpected shape, whatever the source answers.
-/

namespace InputResolution

/-- An end that is no defect of the graph or of the evaluation. -/
def Halt.Proper : Halt → Prop
  | .skip _ => True
  | .error cause => cause.kind ≠ .internal ∧ cause.kind ≠ .invalidGraph

def Yields (shape : Shape) : Evaluated NodeValue → Prop
  | .ok value => value.shape = shape
  | .error halt => halt.Proper

theorem NodeValue.exists_list {value : NodeValue} (shaped : value.shape = .list) :
    ∃ artifacts, value = .list artifacts := by
  cases value <;> first | exact ⟨_, rfl⟩ | cases shaped

theorem NodeValue.exists_dict {value : NodeValue} (shaped : value.shape = .dict) :
    ∃ entries, value = .dict entries := by
  cases value <;> first | exact ⟨_, rfl⟩ | cases shaped

/-! ## One operation -/

namespace Node

theorem yields_listOf (reading : Reading (List Artifact)) : (listOf reading).Ensures (Yields .list) :=
  Reading.Ensures.bind ((Reading.ensures_true reading).mono fun _ _ => rfl)

theorem exists_single {values : List NodeValue} (count : values.length = 1) : ∃ value, values = [value] :=
  List.length_eq_one_iff.mp count

variable {id : Nat} {op : Operator} {inputs : List Nat} {shape : Shape}

theorem exists_onlyList {values : List NodeValue} (count : values.length = 1)
    (lists : ∀ value ∈ values, value.shape = .list) : ∃ artifacts, values = [.list artifacts] := by
  obtain ⟨value, rfl⟩ := exists_single count
  obtain ⟨artifacts, rfl⟩ := NodeValue.exists_list (lists value List.mem_cons_self)
  exact ⟨artifacts, rfl⟩

/-- An operation on accepted values makes a value of the shape that it declares. -/
theorem yields_value (seeding : Seeding) (node : Node) {values : List NodeValue}
    (count : values.length = node.op.arity) (accepted : ∀ value ∈ values, node.op.accepts value.shape = true) :
    (node.value seeding values).Ensures (Yields (node.op.outputShape (values.map NodeValue.shape))) := by
  obtain ⟨id, op, inputs, shape⟩ := node
  dsimp only at count accepted ⊢
  cases op with
  | input query => exact yields_listOf _
  | latestPipelineRunOutputs pipeline outputKey => exact yields_listOf _
  | evaluatorInputs params =>
      obtain ⟨first, second, rfl⟩ := List.length_eq_two.mp count
      obtain ⟨examples, rfl⟩ := NodeValue.exists_list (by simpa [Operator.accepts] using accepted first (by simp))
      obtain ⟨models, rfl⟩ := NodeValue.exists_list (by simpa [Operator.accepts] using accepted second (by simp))
      exact Reading.Ensures.bind ((Reading.ensures_true _).mono fun _ _ => rfl)
  | select key =>
      obtain ⟨value, rfl⟩ := exists_single count
      obtain ⟨entries, rfl⟩ := NodeValue.exists_dict (by simpa [Operator.accepts] using accepted value (by simp))
      change Yields .list (selectKey _ key (.dict entries))
      simp only [selectKey]
      split
      · rfl
      · exact ⟨by simp [ResolveError.kind], by simp [ResolveError.kind]⟩
  | skipIfEmpty =>
      obtain ⟨value, rfl⟩ := exists_single count
      change Yields value.shape (guardNotEmpty _ value)
      unfold guardNotEmpty
      split
      · trivial
      · rfl
  | skipIfInsufficientSpans minSpans requiredSpan =>
      obtain ⟨artifacts, rfl⟩ := exists_onlyList count (by simpa [Operator.accepts] using accepted)
      change Yields .list (guardSpans _ minSpans requiredSpan artifacts)
      unfold guardSpans
      split
      · trivial
      · rfl
  | trainingRange examplesType =>
      obtain ⟨artifacts, rfl⟩ := exists_onlyList count (by simpa [Operator.accepts] using accepted)
      exact yields_listOf _
  | latestTrained =>
      obtain ⟨artifacts, rfl⟩ := exists_onlyList count (by simpa [Operator.accepts] using accepted)
      exact yields_listOf _
  | _ =>
      obtain ⟨artifacts, rfl⟩ := exists_onlyList count (by simpa [Operator.accepts] using accepted)
      rfl

end Node

/-! ## One step -/

namespace Graph

variable {g : Graph} {known : List (Nat × NodeValue)}

def Shaped (g : Graph) (known : List (Nat × NodeValue)) : Prop :=
  ∀ entry ∈ known, ∃ node, g.node? entry.1 = some node ∧ entry.2.shape = node.outputShape

/-- Every value, newest first, comes after those of the inputs of its node. -/
def Ordered (g : Graph) (known : List (Nat × NodeValue)) : Prop :=
  ∀ id value earlier, (id, value) :: earlier <:+ known → ∀ node, g.node? id = some node →
    ∀ input ∈ node.inputs, input ∈ earlier.map Prod.fst

theorem shaped_nil (g : Graph) : g.Shaped [] :=
  fun _ member => nomatch member

theorem ordered_nil (g : Graph) : g.Ordered [] := by
  intro id value earlier suffix
  simp at suffix

theorem Shaped.cons (shaped : g.Shaped known) {id : Nat} {node : Node} (found : g.node? id = some node)
    {value : NodeValue} (same : value.shape = node.outputShape) : g.Shaped ((id, value) :: known) := by
  intro entry member
  rcases List.mem_cons.mp member with rfl | earlier
  · exact ⟨node, found, same⟩
  · exact shaped entry earlier

theorem Ordered.cons (ordered : g.Ordered known) {id : Nat} {node : Node} (found : g.node? id = some node)
    (done : ∀ input ∈ node.inputs, input ∈ known.map Prod.fst) (value : NodeValue) :
    g.Ordered ((id, value) :: known) := by
  intro other held earlier suffix consumer here input feeds
  rcases List.suffix_cons_iff.mp suffix with newest | older
  · cases newest
    cases Option.some.inj (found.symm.trans here)
    exact done input feeds
  · exact ordered other held earlier older consumer here input feeds

theorem Shaped.shape_eq (shaped : g.Shaped known) {id input : Nat} {op : Operator} {source : Node} {value : NodeValue}
    (feeds : g.Feeds id op input source) (held : known.lookup input = some value) :
    value.shape = source.outputShape := by
  obtain ⟨node, found, same⟩ := shaped (input, value) (mem_of_lookup held)
  cases Option.some.inj (feeds.found.symm.trans found)
  exact same

theorem Shaped.shapes_eq (shaped : g.Shaped known) {id : Nat} {op : Operator} {inputs : List Nat} {sources : List Node}
    {values : List NodeValue} (feeds : List.Forall₂ (g.Feeds id op) inputs sources)
    (held : List.Forall₂ (fun input value => known.lookup input = some value) inputs values) :
    values.map NodeValue.shape = sources.map Node.outputShape := by
  induction feeds generalizing values with
  | nil =>
      cases held
      rfl
  | cons head tail ih =>
      cases held with
      | cons first rest => rw [List.map_cons, List.map_cons, shaped.shape_eq head first, ih rest]

/-- Known values of the inputs of a node are as many as its operation takes, each of a shape that it accepts, and from
their shapes it produces the declared one. -/
theorem Valid.accepts_values (valid : g.Valid) (shaped : g.Shaped known) {id : Nat} {node : Node}
    (found : g.node? id = some node) {values : List NodeValue}
    (held : List.Forall₂ (fun input value => known.lookup input = some value) node.inputs values) :
    values.length = node.op.arity ∧ (∀ value ∈ values, node.op.accepts value.shape = true) ∧
      node.op.outputShape (values.map NodeValue.shape) = node.outputShape := by
  have fits := valid.fits found
  obtain ⟨sources, feeds, produced⟩ := fits.sources
  have shapes := shaped.shapes_eq feeds held
  refine ⟨by rw [← held.length_eq, fits.arity], ?_, by rw [shapes, produced]⟩
  intro value member
  have shape : value.shape ∈ sources.map Node.outputShape := by
    rw [← shapes]
    exact List.mem_map_of_mem member
  obtain ⟨source, there, same⟩ := List.mem_map.mp shape
  obtain ⟨input, _, feed⟩ := Steps.exists_of_mem feeds.flip there
  rw [← same]
  exact feed.accepted

theorem Valid.yields_step (valid : g.Valid) (shaped : g.Shaped known) (seeding : Seeding) {id : Nat} {node : Node}
    (found : g.node? id = some node) (done : ∀ input ∈ node.inputs, input ∈ known.map Prod.fst) :
    (g.step seeding known id).Ensures (Yields node.outputShape) := by
  obtain ⟨values, ready⟩ := Node.exists_inputValues done
  obtain ⟨count, accepted, produced⟩ := valid.accepts_values shaped found (Node.inputValues_eq_ok.mp ready)
  rw [step_eq found ready, ← produced]
  exact node.yields_value seeding count accepted

/-! ## A whole evaluation -/

end Graph

structure Trace.Sound (g : Graph) (trace : Trace) : Prop where
  shaped : g.Shaped trace.values
  ordered : g.Ordered trace.values
  proper : ∀ halt, trace.halt = some halt → halt.Proper

theorem Graph.Valid.sound_trace {g : Graph} (valid : g.Valid) (seeding : Seeding) {known : List (Nat × NodeValue)}
    (shaped : g.Shaped known) (ordered : g.Ordered known) {order : List Nat}
    (scheduled : g.Scheduled (known.map Prod.fst) order) :
    (g.trace seeding known order).Ensures fun trace => trace.Sound g ∧
      (trace.halt = none → trace.values.map Prod.fst = order.reverse ++ known.map Prod.fst) := by
  induction order generalizing known with
  | nil => exact ⟨⟨shaped, ordered, fun _ impossible => nomatch impossible⟩, fun _ => rfl⟩
  | cons id rest ih =>
      obtain ⟨⟨node, found, done⟩, later⟩ := scheduled
      apply Reading.Ensures.bind
      apply (valid.yields_step shaped seeding found done).mono
      intro outcome yields
      cases outcome with
      | error halt =>
          refine ⟨⟨shaped, ordered, ?_⟩, fun impossible => nomatch impossible⟩
          intro other same
          cases same
          exact yields
      | ok value =>
          apply (ih (shaped.cons found yields) (ordered.cons found done value) later).mono
          rintro trace ⟨sound, complete⟩
          refine ⟨sound, fun ended => ?_⟩
          rw [complete ended]
          simp

/-! ## A resolution -/

def Snapshot.threeSpans : Snapshot :=
  [1, 2, 4].foldl (fun s span => (s.putSpanned "Examples" span 0).2) Snapshot.empty

namespace ResolutionContext

variable {context : ResolutionContext} {σ : Type}

structure Assembles (context : ResolutionContext) (value : Nat → Option NodeValue) : Prop where
  filled : ∀ entry ∈ context.slots.entries, ∃ held, value entry.2.node = some held ∧ held.shape ≠ .dict
  inRange : ∀ sequence slots, Assembly.sequence? value none context.slots.entries = .ok (sequence, slots) →
    ∀ slot ∈ slots, ∀ lists, slot.value = .listOfLists lists →
      ∀ index < (sequence.map SequenceSlot.length).getD 1, index < lists.length

theorem inRange_of_sequence? {value : Nat → Option NodeValue} {entries : List (String × SlotBinding)}
    {sequence : Option SequenceSlot} {slots : List FilledSlot}
    (filled : Assembly.sequence? value none entries = .ok (sequence, slots)) {slot : FilledSlot} (member : slot ∈ slots)
    {lists : List (List Artifact)} (held : slot.value = .listOfLists lists) {index : Nat}
    (bound : index < (sequence.map SequenceSlot.length).getD 1) : index < lists.length := by
  obtain ⟨_, _, each⟩ := Assembly.sequence?_eq_ok filled
  obtain ⟨common, found, length⟩ := (each slot member).2 lists held
  rw [found] at bound
  change index < common.length at bound
  omega

/-- After a complete evaluation the slots can be put together. -/
theorem Valid.assembles (valid : context.Valid) {trace : Trace} (sound : trace.Sound context.graph)
    (evaluated : ∀ id, context.Needs id → id ∈ trace.values.map Prod.fst) :
    context.Assembles fun id => trace.values.lookup id := by
  refine ⟨?_, fun _ _ filled _ member _ held _ bound => inRange_of_sequence? filled member held bound⟩
  intro entry member
  obtain ⟨node, found, noDict⟩ := valid.slots entry member
  have needed : context.Needs entry.2.node := Graph.Reaches.root (mem_roots.mpr ⟨entry, member, rfl⟩)
  obtain ⟨held, looked⟩ := exists_lookup (evaluated _ needed)
  refine ⟨held, looked, ?_⟩
  obtain ⟨other, here, shape⟩ := sound.shaped _ (mem_of_lookup looked)
  cases Option.some.inj (found.symm.trans here)
  exact shape ▸ noDict

theorem proper_of_finish {trace : Trace} (proper : ∀ halt, trace.halt = some halt → halt.Proper)
    (assembles : trace.halt = none → context.Assembles fun id => trace.values.lookup id) {cause : ResolveError}
    (failed : context.finish trace.result = .error cause) : cause.kind ≠ .internal ∧ cause.kind ≠ .invalidGraph := by
  unfold Trace.result at failed
  cases ended : trace.halt with
  | none =>
      rw [ended] at failed
      have kind := assemble_eq_error (assembles ended).filled failed
      simp [kind]
  | some halt =>
      rw [ended] at failed
      cases halt with
      | skip reason => cases failed
      | error other =>
          cases failed
          exact proper _ ended

/-- Evaluation of a valid context is sound against every source that never fails: each value has the shape that its node
declares and comes after those of its inputs, no look-up of a value or of an index fails while the slots are put
together, and an error lies neither in the graph nor in the evaluation. -/
theorem resolve_shape_sound (valid : context.validate = .ok ()) {source : Source σ} (answers : Reading.Answers source)
    (seeding : Seeding) (state : σ) :
    ∃ order trace cache after,
      context.graph.ancestors context.roots = .ok order ∧
      (context.graph.trace seeding [] order).run (Cache.through source) (Cache.empty, state) =
        (.ok trace, (cache, after)) ∧
      context.resolve source seeding state = (context.finish trace.result, after) ∧
      trace.Sound context.graph ∧
      (trace.halt = none →
        trace.values.map Prod.fst = order.reverse ∧ context.Assembles fun id => trace.values.lookup id) ∧
      ∀ cause, (context.resolve source seeding state).1 = .error cause →
        cause.kind ≠ .internal ∧ cause.kind ≠ .invalidGraph := by
  have accepted := validate_eq_ok.mp valid
  obtain ⟨order, found, scheduled⟩ := accepted.scheduled
  obtain ⟨trace, ⟨cache, after⟩, ran⟩ := Reading.run_of_answers _ (Cache.answers_through answers)
    (context.graph.trace seeding [] order) (Cache.empty, state)
  obtain ⟨sound, complete⟩ := (accepted.graph.sound_trace seeding context.graph.shaped_nil context.graph.ordered_nil
    scheduled).of_run ran
  have resolved := resolve_eq_finish (trace_eq_ok accepted found seeding) ran
  have assembles : trace.halt = none → context.Assembles fun id => trace.values.lookup id := by
    intro ended
    apply accepted.assembles sound
    intro id needed
    rw [complete ended, List.map_nil, List.append_nil, List.mem_reverse]
    exact ((Graph.ancestors_spec found).2 id).mpr needed
  refine ⟨order, trace, cache, after, found, ran, resolved, sound, ?_, ?_⟩
  · intro ended
    refine ⟨?_, assembles ended⟩
    simpa using complete ended
  · intro cause failed
    rw [resolved] at failed
    exact proper_of_finish sound.proper assembles failed

def neighbours : ResolutionContext where
  graph := ⟨[⟨0, .input (Query.ofType "Examples"), [], .list⟩,
    ⟨1, .sequentialRange ⟨0, 2, 0, false, [3]⟩, [0], .listOfLists⟩]⟩
  slots := OrderedMap.ofList [("examples", SlotBinding.required 1)]

theorem resolve_shape_sound_neighbours :
    neighbours.validate = .ok () ∧ Reading.Answers (Snapshot.threeSpans.source : Source Nat) ∧
      ∃ trace : Trace, trace.Sound neighbours.graph ∧
        (neighbours.resolve Snapshot.threeSpans.source ⟨none, fun _ => 0⟩ 7).1 = neighbours.finish trace.result := by
  have answers : Reading.Answers (Snapshot.threeSpans.source : Source Nat) := fun _ _ => ⟨_, _, rfl⟩
  have valid : neighbours.validate = .ok () := by rfl
  obtain ⟨_, trace, _, _, _, _, resolved, sound, _⟩ := resolve_shape_sound valid answers ⟨none, fun _ => 0⟩ 7
  exact ⟨valid, answers, trace, sound, congrArg Prod.fst resolved⟩

end ResolutionContext

end InputResolution
