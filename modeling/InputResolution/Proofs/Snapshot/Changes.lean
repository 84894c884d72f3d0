import InputResolution.Proofs.Lineage.Disorder

/-!
Snapshots that change. A snapshot makes artifacts, executions and contexts of its own, and takes in artifacts as they
are. Whatever is done to it, ids and the names of contexts stay distinct. A record that the snapshot makes is above all
others in its table and later than every record with a time, so the records that it made and that nothing has replaced
since stand in the order of their creation, across both tables.

Ids and seconds are integers without bounds here: what is said holds as long as neither leaves its range.
-/

namespace InputResolution

/-! ## Newest ids and times -/

theorem Instant.key_lt_iff {t u : Instant} :
    t.key < u.key ↔ t.seconds < u.seconds ∨ t.seconds = u.seconds ∧ t.nanos < u.nanos := by
  simp [key, List.cons_lt_cons_iff]

namespace Snapshot

variable {s : Snapshot}

theorem lt_nextId {ids : List Int} {id : Int} (member : id ∈ ids) : id < nextId ids := by
  unfold nextId
  cases greatest : ids.max? with
  | none =>
      rw [List.max?_eq_none_iff.mp greatest] at member
      cases member
  | some top =>
      have below := (List.max?_eq_some_iff.mp greatest).2 id member
      rw [Option.getD_some]
      omega

theorem nodup_concat_nextId {ids : List Int} (distinct : ids.Nodup) : (ids ++ [nextId ids]).Nodup :=
  List.Nodup.append distinct (List.nodup_singleton _) fun id member last => by
    have above := lt_nextId member
    rw [List.mem_singleton.mp last] at above
    exact lt_irrefl _ above

/-- The next time is in a full second that no record has reached, whatever part of a second the latest one is at. -/
theorem lt_nextTime {t : Instant} (member : t ∈ s.times) : t.key < s.nextTime.key := by
  have greatest := isGreatest?_latestBy? Instant.key s.times
  unfold nextTime
  generalize latestBy? Instant.key s.times = latest at greatest
  cases latest with
  | none =>
      rw [show s.times = [] from greatest] at member
      cases member
  | some last =>
      have later : last.key < (Instant.ofSeconds (last.seconds + 1)).key :=
        Instant.key_lt_iff.mpr (Or.inl (Int.lt_succ last.seconds))
      exact lt_of_le_of_lt (greatest.2 t member) later

end Snapshot

/-! ## Changes -/

inductive TimedRecord where
  | artifact (a : Artifact)
  | execution (e : Execution)
deriving DecidableEq

namespace TimedRecord

def createTime : TimedRecord → Instant
  | artifact a => a.createTime
  | execution e => e.createTime

def id : TimedRecord → Int
  | artifact a => a.id
  | execution e => e.id

def artifact? : TimedRecord → Option Artifact
  | artifact a => some a
  | execution _ => none

def execution? : TimedRecord → Option Execution
  | artifact _ => none
  | execution e => some e

def tableIds (s : Snapshot) : TimedRecord → List Int
  | artifact _ => s.artifacts.map Artifact.id
  | execution _ => s.executions.map Execution.id

structure Tops (record : TimedRecord) (s : Snapshot) : Prop where
  ids : ∀ other ∈ record.tableIds s, other < record.id
  times : ∀ t ∈ s.times, t.key < record.createTime.key

def Before (record later : TimedRecord) : Prop :=
  record.createTime.key < later.createTime.key

end TimedRecord

inductive Change where
  | putArtifact (typeName : String) (properties : List (String × Property))
  | putSpanned (typeName : String) (span version : Int)
  | putExecution (typeName : String) (inputs outputs : List (String × List Int)) (contexts : List Int)
  | putContext (typeName name : String)
  | insertArtifact (artifact : Artifact)

/-- Whether a record stays when the change is made. An artifact that is inserted replaces the one with its id. -/
def Change.spares : Change → TimedRecord → Bool
  | insertArtifact x, .artifact a => a.id ≠ x.id
  | _, _ => true

namespace Snapshot

def after (s : Snapshot) : Change → Snapshot
  | .putArtifact typeName properties => (s.putArtifact typeName properties).2
  | .putSpanned typeName span version => (s.putSpanned typeName span version).2
  | .putExecution typeName inputs outputs contexts => (s.putExecution typeName inputs outputs contexts).2
  | .putContext typeName name => (s.putContext typeName name).2
  | .insertArtifact artifact => s.insertArtifact artifact

def made? (s : Snapshot) : Change → Option TimedRecord
  | .putArtifact typeName properties => some (.artifact (s.putArtifact typeName properties).1)
  | .putSpanned typeName span version => some (.artifact (s.putSpanned typeName span version).1)
  | .putExecution typeName inputs outputs contexts =>
      some (.execution (s.putExecution typeName inputs outputs contexts).1)
  | .putContext _ _ => none
  | .insertArtifact _ => none

def afterAll (s : Snapshot) (changes : List Change) : Snapshot :=
  changes.foldl after s

/-- The records made in these changes and before, without those that were replaced, in the order of the changes. -/
def standing (s : Snapshot) (made : List TimedRecord) : List Change → List TimedRecord
  | [] => made
  | change :: rest => (s.after change).standing (made.filter change.spares ++ (s.made? change).toList) rest

/-! ## What every change keeps -/

/-- Ids are distinct in each table, and no two contexts share their type and their name. -/
structure WellKept (s : Snapshot) : Prop where
  artifacts : s.DistinctArtifacts
  executions : s.DistinctExecutions
  contexts : (s.contexts.map RunContext.id).Nodup
  names : (s.contexts.map fun c => (c.typeName, c.name)).Nodup

variable {s : Snapshot}

theorem wellKept_empty : empty.WellKept :=
  ⟨List.nodup_nil, List.nodup_nil, List.nodup_nil, List.nodup_nil⟩

theorem DistinctArtifacts.putArtifact (distinct : s.DistinctArtifacts) (typeName : String)
    (properties : List (String × Property)) : (s.putArtifact typeName properties).2.DistinctArtifacts := by
  simpa [DistinctArtifacts, Snapshot.putArtifact] using nodup_concat_nextId distinct

theorem DistinctArtifacts.insertArtifact (distinct : s.DistinctArtifacts) (x : Artifact) :
    (s.insertArtifact x).DistinctArtifacts := by
  unfold DistinctArtifacts Snapshot.insertArtifact
  rw [List.map_append]
  refine List.Nodup.append (distinct.sublist (List.filter_sublist.map _)) (List.nodup_singleton _) ?_
  intro id member last
  obtain ⟨a, kept, rfl⟩ := List.mem_map.mp member
  have apart : a.id ≠ x.id := by simpa using (List.mem_filter.mp kept).2
  exact apart (List.mem_singleton.mp last)

theorem DistinctExecutions.putExecution (distinct : s.DistinctExecutions) (typeName : String)
    (inputs outputs : List (String × List Int)) (contexts : List Int) :
    (s.putExecution typeName inputs outputs contexts).2.DistinctExecutions := by
  simpa [DistinctExecutions, Snapshot.putExecution] using nodup_concat_nextId distinct

theorem WellKept.putContext (kept : s.WellKept) (typeName name : String) : (s.putContext typeName name).2.WellKept := by
  unfold Snapshot.putContext
  cases found : s.context? typeName name with
  | some context => exact kept
  | none =>
      refine ⟨kept.artifacts, kept.executions, ?_, ?_⟩
      · simpa using nodup_concat_nextId kept.contexts
      · have absent : ∀ c ∈ s.contexts, c.typeName = typeName → ¬c.name = name := by
          simpa [context?] using found
        rw [List.map_append]
        refine List.Nodup.append kept.names (List.nodup_singleton _) ?_
        intro key member last
        obtain ⟨c, here, rfl⟩ := List.mem_map.mp member
        obtain ⟨sameType, sameName⟩ := Prod.mk.inj (List.mem_singleton.mp last)
        exact absent c here sameType sameName

theorem WellKept.after (kept : s.WellKept) (change : Change) : (s.after change).WellKept := by
  cases change with
  | putArtifact typeName properties =>
      exact ⟨kept.artifacts.putArtifact typeName properties, kept.executions, kept.contexts, kept.names⟩
  | putSpanned typeName span version =>
      exact ⟨kept.artifacts.putArtifact typeName _, kept.executions, kept.contexts, kept.names⟩
  | putExecution typeName inputs outputs contexts =>
      exact ⟨kept.artifacts, kept.executions.putExecution typeName inputs outputs contexts, kept.contexts, kept.names⟩
  | putContext typeName name => exact kept.putContext typeName name
  | insertArtifact x => exact ⟨kept.artifacts.insertArtifact x, kept.executions, kept.contexts, kept.names⟩

theorem WellKept.afterAll (kept : s.WellKept) (changes : List Change) : (s.afterAll changes).WellKept := by
  induction changes generalizing s with
  | nil => exact kept
  | cons change rest ih => exact ih (kept.after change)

/-! ## New records -/

/-- What a snapshot makes is newer than all that it holds. -/
theorem tops_of_made {change : Change} {record : TimedRecord} (made : s.made? change = some record) :
    record.Tops s := by
  cases change <;> cases made <;> exact ⟨fun _ member => lt_nextId member, fun _ member => lt_nextTime member⟩

structure Stand (s : Snapshot) (made : List TimedRecord) : Prop where
  ascending : made.Pairwise TimedRecord.Before
  artifacts : (made.filterMap TimedRecord.artifact?).Sublist s.artifacts
  executions : (made.filterMap TimedRecord.execution?).Sublist s.executions

theorem stand_nil (s : Snapshot) : s.Stand [] :=
  ⟨List.Pairwise.nil, List.nil_sublist _, List.nil_sublist _⟩

variable {made : List TimedRecord}

theorem Stand.time_mem (stand : s.Stand made) {record : TimedRecord} (member : record ∈ made) :
    record.createTime ∈ s.times := by
  cases record with
  | artifact a =>
      have held := stand.artifacts.subset (List.mem_filterMap.mpr ⟨_, member, rfl⟩)
      exact List.mem_append_left _ (List.mem_map_of_mem held)
  | execution e =>
      have held := stand.executions.subset (List.mem_filterMap.mpr ⟨_, member, rfl⟩)
      exact List.mem_append_right _ (List.mem_map_of_mem held)

/-- A new record joins the others at the end. -/
theorem Stand.ascending_concat (stand : s.Stand made) {record : TimedRecord} (tops : record.Tops s) :
    (made ++ [record]).Pairwise TimedRecord.Before := by
  refine List.pairwise_append.mpr ⟨stand.ascending, List.pairwise_singleton _ _, ?_⟩
  intro earlier member last single
  cases List.mem_singleton.mp single
  exact tops.times _ (stand.time_mem member)

theorem Stand.concat_artifact (stand : s.Stand made) {a : Artifact} (tops : (TimedRecord.artifact a).Tops s) :
    { s with artifacts := s.artifacts ++ [a] }.Stand (made ++ [TimedRecord.artifact a]) where
  ascending := stand.ascending_concat tops
  artifacts := by
    rw [List.filterMap_append]
    exact stand.artifacts.append (List.Sublist.refl [a])
  executions := by
    rw [List.filterMap_append]
    exact (List.append_nil _).symm ▸ stand.executions

theorem Stand.concat_execution (stand : s.Stand made) {e : Execution} (tops : (TimedRecord.execution e).Tops s) :
    { s with executions := s.executions ++ [e] }.Stand (made ++ [TimedRecord.execution e]) where
  ascending := stand.ascending_concat tops
  artifacts := by
    rw [List.filterMap_append]
    exact (List.append_nil _).symm ▸ stand.artifacts
  executions := by
    rw [List.filterMap_append]
    exact stand.executions.append (List.Sublist.refl [e])

/-- An artifact that is inserted takes the one that it replaces out of both lists. -/
theorem Stand.insertArtifact (stand : s.Stand made) (x : Artifact) :
    (s.insertArtifact x).Stand (made.filter (Change.insertArtifact x).spares) where
  ascending := stand.ascending.filter _
  artifacts := by
    have same : (made.filter (Change.insertArtifact x).spares).filterMap TimedRecord.artifact? =
        (made.filterMap TimedRecord.artifact?).filter fun a => a.id ≠ x.id := by
      rw [List.filter_filterMap, List.filterMap_filter]
      apply List.filterMap_congr
      intro record _
      cases record with
      | artifact a => by_cases same : a.id = x.id <;> simp [Change.spares, TimedRecord.artifact?, Option.filter, same]
      | execution e => simp [Change.spares, TimedRecord.artifact?]
    rw [same]
    exact (stand.artifacts.filter _).trans (List.sublist_append_left _ _)
  executions := (List.filter_sublist.filterMap _).trans stand.executions

theorem Stand.after (stand : s.Stand made) (change : Change) :
    (s.after change).Stand (made.filter change.spares ++ (s.made? change).toList) := by
  have all : ∀ change : Change, (∀ record, change.spares record = true) → made.filter change.spares = made :=
    fun change spares => List.filter_eq_self.mpr fun record _ => spares record
  cases change with
  | putArtifact typeName properties =>
      rw [all _ fun _ => rfl]
      have made : s.made? (.putArtifact typeName properties) = some (.artifact _) := rfl
      exact stand.concat_artifact (tops_of_made made)
  | putSpanned typeName span version =>
      rw [all _ fun _ => rfl]
      have made : s.made? (.putSpanned typeName span version) = some (.artifact _) := rfl
      exact stand.concat_artifact (tops_of_made made)
  | putExecution typeName inputs outputs contexts =>
      rw [all _ fun _ => rfl]
      have made : s.made? (.putExecution typeName inputs outputs contexts) = some (.execution _) := rfl
      exact stand.concat_execution (tops_of_made made)
  | putContext typeName name =>
      rw [all _ fun _ => rfl, made?, Option.toList_none, List.append_nil]
      change (s.putContext typeName name).2.Stand made
      unfold Snapshot.putContext
      cases s.context? typeName name <;> exact ⟨stand.ascending, stand.artifacts, stand.executions⟩
  | insertArtifact x =>
      rw [made?, Option.toList_none, List.append_nil]
      exact stand.insertArtifact x

theorem Stand.standing (stand : s.Stand made) (changes : List Change) :
    (s.afterAll changes).Stand (s.standing made changes) := by
  induction changes generalizing s made with
  | nil => exact stand
  | cons change rest ih => exact ih (stand.after change)

/-- However a snapshot is changed, ids and the names of contexts stay distinct, and each record that it makes is newer
than all that it holds then. So the records that it made and that nothing has replaced were created in the order in
which they were made, and stand so in its tables. -/
theorem changes_keep_order (kept : s.WellKept) (changes : List Change) :
    (s.afterAll changes).WellKept ∧
      (∀ change record, (s.afterAll changes).made? change = some record → record.Tops (s.afterAll changes)) ∧
      (s.afterAll changes).Stand (s.standing [] changes) :=
  ⟨kept.afterAll changes, fun _ _ => tops_of_made, (stand_nil s).standing changes⟩

def ancient : Snapshot where
  artifacts := [⟨7, "Examples", "", .live, SortedMap.empty, ⟨-5, 500000000, by decide⟩⟩,
    ⟨3, "Model", "", .live, SortedMap.empty, ⟨-9, 250000000, by decide⟩⟩]
  executions := [⟨2, "Trainer", Instant.ofSeconds (-7), OrderedMap.empty, OrderedMap.ofList [("model", [3])], [1]⟩]
  contexts := [⟨1, "pipeline", "nightly"⟩]

def modelReplaced : List Change := [
  .putSpanned "Examples" 3 0,
  .insertArtifact ⟨3, "Model", "", .live, SortedMap.empty, ⟨100, 999999999, by decide⟩⟩,
  .putExecution "Trainer" [("examples", [8])] [("model", [3])] [1],
  .insertArtifact ⟨3, "Model", "", .live, SortedMap.empty, Instant.ofSeconds (-20)⟩,
  .putContext "pipeline" "nightly",
  .putArtifact "Model" []]

theorem changes_keep_order_modelReplaced :
    ancient.WellKept ∧ (ancient.afterAll modelReplaced).WellKept ∧
      (ancient.afterAll modelReplaced).Stand (ancient.standing [] modelReplaced) ∧
      (ancient.standing [] modelReplaced).map TimedRecord.createTime =
        [Instant.ofSeconds (-4), Instant.ofSeconds 101, Instant.ofSeconds 102] := by
  have kept : ancient.WellKept := ⟨by decide, by decide, by decide, by decide⟩
  obtain ⟨still, _, stand⟩ := changes_keep_order kept modelReplaced
  exact ⟨kept, still, stand, by decide⟩

end Snapshot

end InputResolution
