import InputResolution.Proofs.Graph.Validity

/-!
Which nodes are evaluated and in which order. The search finds exactly the ids that the roots reach; on a valid graph it
always ends with them, and their ascending order puts the inputs of a node before the node.
-/

namespace InputResolution.Graph

inductive Reaches (g : Graph) (roots : List Nat) : Nat → Prop where
  | root {id : Nat} (member : id ∈ roots) : Reaches g roots id
  | input {id input : Nat} {node : Node} (reached : Reaches g roots id) (found : g.node? id = some node)
      (member : input ∈ node.inputs) : Reaches g roots input

section Search

variable {g : Graph} {roots others : List Nat}

theorem Reaches.mono (subset : ∀ id ∈ roots, g.Reaches others id) {id : Nat} (reached : g.Reaches roots id) :
    g.Reaches others id := by
  induction reached with
  | root member => exact subset _ member
  | input _ found member ih => exact ih.input found member

/-- What holds the roots, and with every node its inputs, holds all that is reached. -/
theorem Reaches.mem_of_closed (ids : List Nat) (start : ∀ id ∈ roots, id ∈ ids)
    (closed : ∀ id ∈ ids, ∀ input ∈ (g.node? id).elim [] Node.inputs, input ∈ ids) {id : Nat}
    (reached : g.Reaches roots id) : id ∈ ids := by
  induction reached with
  | root member => exact start _ member
  | input _ found member ih => exact closed _ ih _ (by rwa [found])

/-- What a search that waits for some ids finds besides what it has seen. -/
structure Found (g : Graph) (seen waiting found : List Nat) : Prop where
  kept : ∀ id ∈ seen, id ∈ found
  visited : ∀ id ∈ waiting, id ∈ found
  new : ∀ id ∈ found, id ∈ seen ∨
    (g.Reaches waiting id ∧ ∃ node, g.node? id = some node ∧ ∀ input ∈ node.inputs, input ∈ found)

theorem reaches_rest {id : Nat} {waiting : List Nat} {target : Nat} (reached : g.Reaches waiting target) :
    g.Reaches (id :: waiting) target :=
  reached.mono fun _ member => Reaches.root (List.mem_cons_of_mem id member)

theorem reaches_inputs {id : Nat} {node : Node} {waiting : List Nat} (found : g.node? id = some node) {target : Nat}
    (reached : g.Reaches (node.inputs.reverse ++ waiting) target) : g.Reaches (id :: waiting) target := by
  apply reached.mono
  intro other member
  rcases List.mem_append.mp member with input | later
  · exact (Reaches.root List.mem_cons_self).input found (List.mem_reverse.mp input)
  · exact Reaches.root (List.mem_cons_of_mem id later)

theorem collect_missing {id : Nat} (missing : g.node? id = none) (seen waiting : List Nat) :
    g.collect seen (id :: waiting) = .error (.unknownNode id) := by
  rw [collect]
  split
  · rfl
  · next node present => exact absurd (missing.symm.trans present) (by simp)

theorem collect_known {id : Nat} {node : Node} (present : g.node? id = some node) {seen : List Nat}
    (known : seen.contains id = true) (waiting : List Nat) :
    g.collect seen (id :: waiting) = g.collect seen waiting := by
  rw [collect]
  split
  · next missing => exact absurd (missing.symm.trans present) (by simp)
  · exact dif_pos known

theorem collect_new {id : Nat} {node : Node} (present : g.node? id = some node) {seen : List Nat}
    (unknown : ¬seen.contains id = true) (waiting : List Nat) :
    g.collect seen (id :: waiting) = g.collect (id :: seen) (node.inputs.reverse ++ waiting) := by
  rw [collect]
  split
  · next missing => exact absurd (missing.symm.trans present) (by simp)
  · next other here =>
    cases Option.some.inj (present.symm.trans here)
    exact dif_neg unknown

theorem found_collect (seen waiting : List Nat) {found : List Nat} (ended : g.collect seen waiting = .ok found) :
    g.Found seen waiting found := by
  induction seen, waiting using collect.induct g with
  | case1 seen =>
      rw [collect] at ended
      cases ended
      exact ⟨fun _ member => member, fun _ member => (nomatch member), fun _ member => Or.inl member⟩
  | case2 seen id waiting missing =>
      rw [collect_missing missing] at ended
      cases ended
  | case3 seen id waiting node present known ih =>
      rw [collect_known present known] at ended
      have rest := ih ended
      refine ⟨rest.kept, ?_, ?_⟩
      · intro other member
        rcases List.mem_cons.mp member with rfl | later
        · exact rest.kept _ (by simpa using known)
        · exact rest.visited other later
      · intro other member
        rcases rest.new other member with before | ⟨reached, closed⟩
        · exact Or.inl before
        · exact Or.inr ⟨reaches_rest reached, closed⟩
  | case4 seen id waiting node present unknown ih =>
      rw [collect_new present unknown] at ended
      have rest := ih ended
      have self : id ∈ found := rest.kept id List.mem_cons_self
      have inputs : ∀ input ∈ node.inputs, input ∈ found := fun input member =>
        rest.visited input (List.mem_append_left _ (List.mem_reverse.mpr member))
      refine ⟨fun target member => rest.kept target (List.mem_cons_of_mem id member), ?_, ?_⟩
      · intro target member
        rcases List.mem_cons.mp member with rfl | later
        · exact self
        · exact rest.visited target (List.mem_append_right _ later)
      · intro target member
        rcases rest.new target member with before | ⟨reached, closed⟩
        · rcases List.mem_cons.mp before with rfl | earlier
          · exact Or.inr ⟨Reaches.root List.mem_cons_self, node, present, inputs⟩
          · exact Or.inl earlier
        · exact Or.inr ⟨reaches_inputs present reached, closed⟩

/-- A search fails only at an id that it reaches and that no node has. -/
theorem collect_eq_error (seen waiting : List Nat) {cause : ResolveError}
    (failed : g.collect seen waiting = .error cause) :
    ∃ id, g.Reaches waiting id ∧ g.node? id = none ∧ cause = .unknownNode id := by
  induction seen, waiting using collect.induct g with
  | case1 seen =>
      rw [collect] at failed
      cases failed
  | case2 seen id waiting missing =>
      rw [collect_missing missing] at failed
      exact ⟨id, Reaches.root List.mem_cons_self, missing, (Except.error.inj failed).symm⟩
  | case3 seen id waiting node present known ih =>
      rw [collect_known present known] at failed
      obtain ⟨target, reached, lost⟩ := ih failed
      exact ⟨target, reaches_rest reached, lost⟩
  | case4 seen id waiting node present unknown ih =>
      rw [collect_new present unknown] at failed
      obtain ⟨target, reached, lost⟩ := ih failed
      exact ⟨target, reaches_inputs present reached, lost⟩

theorem Found.mem_iff {found : List Nat} (search : g.Found [] roots found) {id : Nat} :
    id ∈ found ↔ g.Reaches roots id := by
  constructor
  · intro member
    rcases search.new id member with before | ⟨reached, _⟩
    · cases before
    · exact reached
  · intro reached
    induction reached with
    | root member => exact search.visited _ member
    | input _ present member ih =>
        rcases search.new _ ih with before | ⟨_, node, found, closed⟩
        · cases before
        · cases Option.some.inj (present.symm.trans found)
          exact closed _ member

theorem reaches_reverse {id : Nat} : g.Reaches roots.reverse id ↔ g.Reaches roots id :=
  ⟨Reaches.mono fun _ member => Reaches.root (List.mem_reverse.mp member),
    Reaches.mono fun _ member => Reaches.root (List.mem_reverse.mpr member)⟩

/-- The ids found are those reached, each once and in ascending order. -/
theorem ancestors_spec {order : List Nat} (found : g.ancestors roots = .ok order) :
    order.Pairwise (· < ·) ∧ ∀ id, id ∈ order ↔ g.Reaches roots id := by
  obtain ⟨seen, collected, same⟩ := Steps.bind_eq_ok.mp found
  have search := found_collect [] roots.reverse collected
  cases Except.ok.inj same
  refine ⟨List.pairwise_lt_range.filter _, ?_⟩
  intro id
  rw [List.mem_filter, List.mem_range, List.contains_iff_mem, search.mem_iff, reaches_reverse, and_iff_right_iff_imp]
  intro reached
  rcases search.new id (search.mem_iff.mpr (reaches_reverse.mpr reached)) with before | ⟨_, node, present, _⟩
  · cases before
  · exact (List.getElem?_eq_some_iff.mp present).1

theorem exists_ancestors (present : ∀ id, g.Reaches roots id → (g.node? id).isSome) :
    ∃ order, g.ancestors roots = .ok order := by
  unfold ancestors
  cases collected : g.collect [] roots.reverse with
  | ok seen => exact ⟨_, rfl⟩
  | error cause =>
      obtain ⟨id, reached, missing, _⟩ := collect_eq_error [] roots.reverse collected
      have found := present id (reaches_reverse.mp reached)
      rw [missing] at found
      cases found

end Search

/-! ## Schedules -/

def Scheduled (g : Graph) : List Nat → List Nat → Prop
  | _, [] => True
  | done, id :: rest =>
      (∃ node, g.node? id = some node ∧ ∀ input ∈ node.inputs, input ∈ done) ∧ g.Scheduled (id :: done) rest

variable {g : Graph}

theorem Valid.isSome_of_reaches (valid : g.Valid) {roots : List Nat} (present : ∀ id ∈ roots, (g.node? id).isSome)
    {id : Nat} (reached : g.Reaches roots id) : (g.node? id).isSome := by
  cases reached with
  | root member => exact present _ member
  | input _ found member =>
      obtain ⟨source, feeds⟩ := valid.source found member
      rw [feeds.found]
      rfl

theorem Valid.scheduled_of_closed (valid : g.Valid) {done rest : List Nat} (ascending : rest.Pairwise (· < ·))
    (present : ∀ id ∈ rest, (g.node? id).isSome)
    (closed : ∀ id ∈ rest, ∀ node, g.node? id = some node → ∀ input ∈ node.inputs, input ∈ done ∨ input ∈ rest) :
    g.Scheduled done rest := by
  induction rest generalizing done with
  | nil => trivial
  | cons id rest ih =>
      obtain ⟨above, tail⟩ := List.pairwise_cons.mp ascending
      refine ⟨?_, ih tail (fun other member => present other (List.mem_cons_of_mem id member)) ?_⟩
      · obtain ⟨node, found⟩ := Option.isSome_iff_exists.mp (present id List.mem_cons_self)
        refine ⟨node, found, fun input member => ?_⟩
        have before := valid.input_lt found member
        rcases closed id List.mem_cons_self node found input member with known | later
        · exact known
        · rcases List.mem_cons.mp later with rfl | after
          · omega
          · have := above input after
            omega
      · intro other member node found input feeds
        rcases closed other (List.mem_cons_of_mem id member) node found input feeds with known | later
        · exact Or.inl (List.mem_cons_of_mem id known)
        · rcases List.mem_cons.mp later with rfl | after
          · exact Or.inl List.mem_cons_self
          · exact Or.inr after

/-- On a valid graph the search ends, and the order it gives is a schedule. -/
theorem Valid.scheduled (valid : g.Valid) {roots : List Nat} (present : ∀ id ∈ roots, (g.node? id).isSome) :
    ∃ order, g.ancestors roots = .ok order ∧ g.Scheduled [] order := by
  obtain ⟨order, found⟩ := exists_ancestors fun id => valid.isSome_of_reaches present
  obtain ⟨ascending, reached⟩ := ancestors_spec found
  refine ⟨order, found, valid.scheduled_of_closed ascending ?_ ?_⟩
  · intro id member
    exact valid.isSome_of_reaches present ((reached id).mp member)
  · intro id member node here input feeds
    exact Or.inr ((reached input).mpr (((reached id).mp member).input here feeds))

end InputResolution.Graph
