import InputResolution.Proofs.Evaluation.Trace

/-!
Traces as solutions. In the trace of a schedule every value is one that the operation of its node can give on the values
of its inputs, and an early end is one that the next node of the schedule can give. So what a node holds can be
computed from what its inputs hold, without following the evaluation.
-/

namespace InputResolution

namespace Graph

variable {g : Graph} {seeding : Seeding} {known : List (Nat × NodeValue)}

def Makes (g : Graph) (seeding : Seeding) (known : List (Nat × NodeValue)) (id : Nat)
    (outcome : Evaluated NodeValue) : Prop :=
  ∃ node values, g.node? id = some node ∧
    List.Forall₂ (fun input value => known.lookup input = some value) node.inputs values ∧
    (node.value seeding values).Gives outcome

/-- Values of different nodes, each made from others among them. -/
structure Grounded (g : Graph) (seeding : Seeding) (known : List (Nat × NodeValue)) : Prop where
  distinct : (known.map Prod.fst).Nodup
  made : ∀ id value, known.lookup id = some value → g.Makes seeding known id (.ok value)

theorem grounded_nil (g : Graph) (seeding : Seeding) : g.Grounded seeding [] :=
  ⟨List.nodup_nil, fun _ _ impossible => nomatch impossible⟩

theorem Makes.cons {id : Nat} {outcome : Evaluated NodeValue} (makes : g.Makes seeding known id outcome) {other : Nat}
    (new : other ∉ known.map Prod.fst) (held : NodeValue) : g.Makes seeding ((other, held) :: known) id outcome := by
  obtain ⟨node, values, found, inputs, gives⟩ := makes
  refine ⟨node, values, found, inputs.imp fun input value looked => ?_, gives⟩
  have apart : input ≠ other := by
    rintro rfl
    exact new (mem_keys_of_lookup looked)
  rw [lookup_cons_ne apart, looked]

theorem Grounded.cons (grounded : g.Grounded seeding known) {id : Nat} (new : id ∉ known.map Prod.fst)
    {value : NodeValue} (makes : g.Makes seeding known id (.ok value)) :
    g.Grounded seeding ((id, value) :: known) := by
  refine ⟨List.nodup_cons.mpr ⟨new, grounded.distinct⟩, ?_⟩
  intro other held looked
  by_cases same : other = id
  · subst same
    rw [List.lookup_cons_self] at looked
    cases looked
    exact makes.cons new value
  · rw [lookup_cons_ne same] at looked
    exact (grounded.made other held looked).cons new value

theorem makes_step {id : Nat} {node : Node} (found : g.node? id = some node)
    (done : ∀ input ∈ node.inputs, input ∈ known.map Prod.fst) :
    (g.step seeding known id).Ensures (g.Makes seeding known id) := by
  obtain ⟨values, ready⟩ := Node.exists_inputValues done
  rw [step_eq found ready]
  apply (Reading.ensures_gives _).mono
  intro outcome gives
  exact ⟨node, values, found, Node.inputValues_eq_ok.mp ready, gives⟩

end Graph

def Trace.Covers (g : Graph) (seeding : Seeding) (order : List Nat) (trace : Trace) : Prop :=
  match trace.halt with
  | none => trace.values.map Prod.fst = order.reverse
  | some halt => ∃ before id after, order = before ++ id :: after ∧ trace.values.map Prod.fst = before.reverse ∧
      g.Makes seeding trace.values id (.error halt)

namespace Graph

variable {g : Graph} {seeding : Seeding}

theorem grounded_trace {done : List Nat} {known : List (Nat × NodeValue)} (grounded : g.Grounded seeding known)
    (keys : known.map Prod.fst = done.reverse) {order : List Nat} (distinct : (done ++ order).Nodup)
    (scheduled : g.Scheduled (known.map Prod.fst) order) :
    (g.trace seeding known order).Ensures fun trace =>
      g.Grounded seeding trace.values ∧ trace.Covers g seeding (done ++ order) := by
  induction order generalizing done known with
  | nil =>
      refine ⟨grounded, ?_⟩
      rw [List.append_nil]
      exact keys
  | cons id rest ih =>
      obtain ⟨⟨node, found, ready⟩, later⟩ := scheduled
      apply Reading.Ensures.bind
      apply (makes_step found ready).mono
      intro outcome makes
      cases outcome with
      | error halt => exact ⟨grounded, done, id, rest, rfl, keys, makes⟩
      | ok value =>
          have new : id ∉ known.map Prod.fst := by
            rw [keys, List.mem_reverse]
            intro member
            exact (List.nodup_append.mp distinct).2.2 id member id List.mem_cons_self rfl
          have grown : ((id, value) :: known).map Prod.fst = (done ++ [id]).reverse := by
            rw [List.map_cons, keys, List.reverse_append, List.reverse_singleton, List.singleton_append]
          have rests := ih (grounded.cons new makes) grown (by simpa using distinct) later
          simpa using rests

end Graph

end InputResolution
