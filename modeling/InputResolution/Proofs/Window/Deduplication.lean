import InputResolution.Proofs.OrderedMap
import InputResolution.Proofs.Window.Keys

/-!
Deduplication by versions. For each span that occurs it keeps one artifact, in ascending order of the spans: the one of
the greatest version, of several the one created last, and of records with one creation the first in the list. The same
artifacts are kept by taking all of them in one after another, each in place of the one held for its span if that one
has a smaller key.
-/

namespace InputResolution

namespace Artifact

variable {a b : Artifact}

def revisionKey (a : Artifact) : SortKey :=
  a.version :: a.creationKey

theorem spanKey_eq {span : Int} (placed : a.span? = some span) : a.spanKey = span :: a.revisionKey := by
  rw [spanKey, placed, revisionKey]

theorem spanKey_eq_iff (placed : a.span?.isSome) :
    b.spanKey = a.spanKey ↔ b.span? = a.span? ∧ b.revisionKey = a.revisionKey := by
  obtain ⟨span, here⟩ := Option.isSome_iff_exists.mp placed
  rw [spanKey_eq here, here]
  cases there : b.span? with
  | none => simp [spanKey, there]
  | some other => rw [spanKey_eq there, List.cons.injEq, Option.some.injEq]

theorem spanKey_le_iff (same : b.span? = a.span?) (placed : a.span?.isSome) :
    b.spanKey ≤ a.spanKey ↔ b.revisionKey ≤ a.revisionKey := by
  obtain ⟨span, here⟩ := Option.isSome_iff_exists.mp placed
  rw [spanKey_eq here, spanKey_eq (same.trans here), ← not_lt, ← not_lt, List.cons_lt_cons_iff]
  simp

end Artifact

namespace Window

/-! ## The first greatest element -/

section Greatest

variable {α : Type} {key : α → SortKey} {xs : List α} {x : α}

theorem find?_of_firstGreatest? (found : firstGreatest? key xs = some x) :
    xs.find? (fun y => key y = key x) = some x := by
  induction xs generalizing x with
  | nil => cases found
  | cons y rest ih =>
      rw [firstGreatest?] at found
      split at found
      · cases found
        exact List.find?_cons_of_pos (by simp)
      · next best greatest =>
        split at found
        · next less =>
          cases found
          rw [List.find?_cons_of_neg (by simpa using ne_of_lt less)]
          exact ih greatest
        · cases found
          exact List.find?_cons_of_pos (by simp)

/-- No element exceeds it, and it is the first of those with its key. -/
theorem firstGreatest?_eq_some_iff :
    firstGreatest? key xs = some x ↔
      (∀ y ∈ xs, key y ≤ key x) ∧ xs.find? (fun y => key y = key x) = some x := by
  constructor
  · intro found
    have greatest := isGreatest?_firstGreatest? key xs
    rw [found] at greatest
    exact ⟨greatest.2, find?_of_firstGreatest? found⟩
  · rintro ⟨above, first⟩
    have member : x ∈ xs := List.mem_of_find?_eq_some first
    obtain ⟨best, found⟩ := exists_firstGreatest? key (List.ne_nil_of_mem member)
    have greatest := isGreatest?_firstGreatest? key xs
    rw [found] at greatest
    have same : key best = key x := le_antisymm (above best greatest.1) (greatest.2 x member)
    have other := find?_of_firstGreatest? found
    rw [same, first] at other
    rw [found, other]

def orGreater (key : α → SortKey) : Option α → α → α
  | none, x => x
  | some best, x => if key best < key x then x else best

theorem firstGreatest?_concat (key : α → SortKey) (xs : List α) (x : α) :
    firstGreatest? key (xs ++ [x]) = some (orGreater key (firstGreatest? key xs) x) := by
  have greatest := isGreatest?_firstGreatest? key xs
  cases found : firstGreatest? key xs with
  | none =>
      rw [found] at greatest
      cases show xs = [] from greatest
      rfl
  | some best =>
      obtain ⟨above, first⟩ := firstGreatest?_eq_some_iff.mp found
      rw [orGreater, firstGreatest?_eq_some_iff]
      by_cases less : key best < key x
      · have none : xs.find? (fun y => key y = key x) = none :=
          List.find?_eq_none.mpr fun y member => by simpa using ne_of_lt (lt_of_le_of_lt (above y member) less)
        rw [if_pos less, List.find?_append, none]
        refine ⟨?_, by simp⟩
        intro y member
        rcases List.mem_append.mp member with earlier | last
        · exact le_of_lt (lt_of_le_of_lt (above y earlier) less)
        · rw [List.mem_singleton.mp last]
      · rw [if_neg less, List.find?_append, first]
        refine ⟨?_, rfl⟩
        intro y member
        rcases List.mem_append.mp member with earlier | last
        · exact above y earlier
        · rw [List.mem_singleton.mp last]
          exact not_lt.mp less

end Greatest

/-! ## What is kept -/

variable {artifacts kept : List Artifact} {a : Artifact}

/-- Deduplication keeps one artifact for each span, in ascending order of spans. -/
theorem pairwise_latestVersions (artifacts : List Artifact) :
    (latestVersions artifacts).Pairwise fun a b => ∃ span other, a.span? = some span ∧ b.span? = some other ∧
      span < other := by
  apply (pairwise_distinctAscending _).filterMap
  intro span other less a first b second
  have here := (mem_ofSpan.mp (mem_of_firstGreatest? first)).2
  have there := (mem_ofSpan.mp (mem_of_firstGreatest? second)).2
  exact ⟨span, other, here, there, less⟩

theorem spanKey_le_of_mem_latestVersions (member : a ∈ latestVersions artifacts) {b : Artifact} (held : b ∈ artifacts)
    (same : b.span? = a.span?) : b.spanKey ≤ a.spanKey := by
  obtain ⟨span, placed, found⟩ := mem_latestVersions member
  exact (firstGreatest?_eq_some_iff.mp found).1 b (mem_ofSpan.mpr ⟨held, same.trans placed⟩)

theorem isSome_span_of_mem_latestVersions (member : a ∈ latestVersions artifacts) : a.span?.isSome := by
  obtain ⟨span, placed, _⟩ := mem_latestVersions member
  rw [placed]
  rfl

/-- The list keeps for each span the latest of its artifacts, and nothing else, in ascending order of the spans. Of
several artifacts that are the latest it keeps the first. -/
structure KeepsLatest (artifacts kept : List Artifact) : Prop where
  ascending : kept.Pairwise fun a b => ∃ span other, a.span? = some span ∧ b.span? = some other ∧ span < other
  placed : ∀ a ∈ kept, a.span?.isSome
  covers : ∀ a ∈ artifacts, a.span?.isSome → ∃ b ∈ kept, b.span? = a.span?
  latest : ∀ a ∈ kept, ∀ b ∈ artifacts, b.span? = a.span? → b.revisionKey ≤ a.revisionKey
  first : ∀ a ∈ kept, artifacts.find? (fun b => b.span? = a.span? ∧ b.revisionKey = a.revisionKey) = some a

theorem keepsLatest_latestVersions (artifacts : List Artifact) : KeepsLatest artifacts (latestVersions artifacts) where
  ascending := pairwise_latestVersions artifacts
  placed _ member := isSome_span_of_mem_latestVersions member
  covers a held placed := by
    obtain ⟨span, here⟩ := Option.isSome_iff_exists.mp placed
    have shown := distinctSpans_latestVersions.mpr (mem_distinctSpans.mpr ⟨a, held, here⟩)
    rw [here]
    exact mem_distinctSpans.mp shown
  latest a member b held same :=
    (Artifact.spanKey_le_iff same (isSome_span_of_mem_latestVersions member)).mp
      (spanKey_le_of_mem_latestVersions member held same)
  first a member := by
    obtain ⟨span, placed, found⟩ := mem_latestVersions member
    have first := (firstGreatest?_eq_some_iff.mp found).2
    rw [ofSpan, List.find?_filter] at first
    rw [← first]
    congr 1
    funext b
    -- With the key of the span go the span and the version.
    rw [Bool.eq_iff_iff]
    simp [Artifact.spanKey_eq_iff (b := b) (isSome_span_of_mem_latestVersions member), placed]

theorem KeepsLatest.subset {others : List Artifact} (keeps : KeepsLatest artifacts kept)
    (also : KeepsLatest artifacts others) : ∀ a ∈ kept, a ∈ others := by
  intro a member
  have held : a ∈ artifacts := List.mem_of_find?_eq_some (keeps.first a member)
  obtain ⟨b, there, same⟩ := also.covers a held (keeps.placed a member)
  have other : b ∈ artifacts := List.mem_of_find?_eq_some (also.first b there)
  have equal : b.revisionKey = a.revisionKey :=
    le_antisymm (keeps.latest a member b other same) (also.latest b there a held same.symm)
  have first := also.first b there
  rw [same, equal, keeps.first a member] at first
  rw [Option.some.inj first]
  exact there

theorem nodup_span_of_ascending
    (ascending : kept.Pairwise fun a b => ∃ span other, a.span? = some span ∧ b.span? = some other ∧ span < other) :
    (kept.map Artifact.span?).Nodup := by
  apply List.pairwise_map.mpr
  apply ascending.imp
  rintro a b ⟨span, other, here, there, less⟩ same
  rw [here, there] at same
  exact ne_of_lt less (Option.some.inj same)

theorem KeepsLatest.nodup_span (keeps : KeepsLatest artifacts kept) : (kept.map Artifact.span?).Nodup :=
  nodup_span_of_ascending keeps.ascending

/-- What is to be kept settles the list. -/
theorem KeepsLatest.unique {others : List Artifact} (keeps : KeepsLatest artifacts kept)
    (also : KeepsLatest artifacts others) : kept = others := by
  have rearranged : kept.Perm others :=
    (List.perm_ext_iff_of_nodup keeps.nodup_span.of_map also.nodup_span.of_map).mpr
      fun a => ⟨keeps.subset also a, also.subset keeps a⟩
  apply rearranged.eq_of_pairwise _ keeps.ascending also.ascending
  rintro a b _ _ ⟨span, other, here, there, less⟩ ⟨later, sooner, second, first, more⟩
  rw [here] at first
  rw [there] at second
  cases first
  cases second
  omega

/-! ## One after another -/

/-- Holds an artifact under its span, unless what is held there has no smaller key. -/
def hold (span : Int) (a : Artifact) : List (Int × Artifact) → List (Int × Artifact)
  | [] => [(span, a)]
  | (other, best) :: rest =>
      if span < other then (span, a) :: (other, best) :: rest
      else if span = other then (span, if best.spanKey < a.spanKey then a else best) :: rest
      else (other, best) :: hold span a rest

def takeIn (held : List (Int × Artifact)) (a : Artifact) : List (Int × Artifact) :=
  match a.span? with
  | some span => hold span a held
  | none => held

variable {held : List (Int × Artifact)}

theorem keys_hold (span : Int) (a : Artifact) (held : List (Int × Artifact)) :
    (hold span a held).map Prod.fst = insertDistinct span (held.map Prod.fst) := by
  induction held with
  | nil => rfl
  | cons entry rest ih =>
      obtain ⟨other, best⟩ := entry
      rw [hold, List.map_cons, insertDistinct]
      by_cases less : span < other
      · rw [if_pos less, if_pos less, List.map_cons, List.map_cons]
      · by_cases same : span = other
        · rw [if_neg less, if_neg less, if_pos same, if_pos same, List.map_cons, same]
        · rw [if_neg less, if_neg less, if_neg same, if_neg same, List.map_cons, ih]

theorem lookup_eq_none_of_above {span : Int} (above : ∀ other ∈ held.map Prod.fst, span < other) :
    held.lookup span = none := by
  cases found : held.lookup span with
  | none => rfl
  | some best => exact absurd (above span (mem_keys_of_lookup found)) (lt_irrefl span)

/-- Only what is held under the span of the artifact may change. -/
theorem lookup_hold (ascending : (held.map Prod.fst).Pairwise (· < ·)) (span : Int) (a : Artifact) (other : Int) :
    (hold span a held).lookup other =
      if other = span then some (orGreater Artifact.spanKey (held.lookup span) a) else held.lookup other := by
  induction held with
  | nil =>
      by_cases same : other = span
      · rw [if_pos same, same, hold, List.lookup_cons_self]
        rfl
      · rw [if_neg same, hold, lookup_cons_ne same]
  | cons entry rest ih =>
      obtain ⟨place, best⟩ := entry
      obtain ⟨above, tail⟩ := List.pairwise_cons.mp ascending
      rw [hold]
      by_cases less : span < place
      · have absent : ((place, best) :: rest).lookup span = none :=
          lookup_eq_none_of_above <| List.forall_mem_cons.mpr
            ⟨less, fun later member => lt_trans less (above later member)⟩
        rw [if_pos less, absent]
        by_cases same : other = span
        · rw [if_pos same, same, List.lookup_cons_self]
          rfl
        · rw [if_neg same, lookup_cons_ne same]
      · rw [if_neg less]
        by_cases here : span = place
        · subst here
          rw [if_pos rfl, List.lookup_cons_self]
          by_cases same : other = span
          · rw [if_pos same, same, List.lookup_cons_self]
            rfl
          · rw [if_neg same, lookup_cons_ne same, lookup_cons_ne same]
        · rw [if_neg here, lookup_cons_ne here]
          by_cases there : other = place
          · have apart : other ≠ span := fun same => here (same.symm.trans there)
            rw [if_neg apart, there, List.lookup_cons_self, List.lookup_cons_self]
          · rw [lookup_cons_ne there, ih tail, lookup_cons_ne there]

structure HoldsLatest (artifacts : List Artifact) (held : List (Int × Artifact)) : Prop where
  ascending : (held.map Prod.fst).Pairwise (· < ·)
  lookup : ∀ span, held.lookup span = firstGreatest? Artifact.spanKey (ofSpan span artifacts)

theorem ofSpan_concat (span : Int) (artifacts : List Artifact) (a : Artifact) :
    ofSpan span (artifacts ++ [a]) =
      if a.span? = some span then ofSpan span artifacts ++ [a] else ofSpan span artifacts := by
  by_cases same : a.span? = some span
  · simp [ofSpan, same]
  · simp [ofSpan, same]

theorem HoldsLatest.takeIn (holds : HoldsLatest artifacts held) (a : Artifact) :
    HoldsLatest (artifacts ++ [a]) (takeIn held a) := by
  unfold Window.takeIn
  cases placed : a.span? with
  | none =>
      refine ⟨holds.ascending, fun span => ?_⟩
      rw [ofSpan_concat, placed, if_neg nofun]
      exact holds.lookup span
  | some span =>
      refine ⟨?_, fun other => ?_⟩
      · rw [keys_hold]
        exact pairwise_insertDistinct holds.ascending
      · rw [lookup_hold holds.ascending, ofSpan_concat, placed]
        by_cases same : other = span
        · rw [if_pos same, if_pos (congrArg some same.symm), firstGreatest?_concat, holds.lookup, same]
        · rw [if_neg same, if_neg fun equal => same (Option.some.inj equal).symm, holds.lookup]

theorem HoldsLatest.foldl (holds : HoldsLatest artifacts held) (more : List Artifact) :
    HoldsLatest (artifacts ++ more) (more.foldl Window.takeIn held) := by
  induction more generalizing artifacts held with
  | nil => rwa [List.append_nil]
  | cons a rest ih =>
      have after := ih (holds.takeIn a)
      rwa [List.append_assoc, List.singleton_append] at after

theorem holdsLatest_nil : HoldsLatest [] [] :=
  ⟨List.Pairwise.nil, fun _ => rfl⟩

theorem filterMap_lookup {κ α : Type} [BEq κ] [LawfulBEq κ] {entries : List (κ × α)}
    (distinct : (entries.map Prod.fst).Nodup) :
    (entries.map Prod.fst).filterMap (fun key => entries.lookup key) = entries.map Prod.snd := by
  rw [List.filterMap_map, ← List.filterMap_eq_map]
  apply List.filterMap_congr
  rintro ⟨key, value⟩ member
  exact lookup_of_mem distinct member

theorem HoldsLatest.values_eq (holds : HoldsLatest artifacts held) : held.map Prod.snd = latestVersions artifacts := by
  have keys : held.map Prod.fst = distinctSpans artifacts := by
    apply holds.ascending.eq_of_mem_iff (pairwise_distinctAscending _)
    intro span
    rw [← distinctSpans, mem_distinctSpans]
    constructor
    · intro member
      obtain ⟨a, found⟩ := exists_lookup member
      rw [holds.lookup] at found
      exact ⟨a, mem_ofSpan.mp (mem_of_firstGreatest? found)⟩
    · rintro ⟨a, there, placed⟩
      have nonempty : ofSpan span artifacts ≠ [] := List.ne_nil_of_mem (mem_ofSpan.mpr ⟨there, placed⟩)
      obtain ⟨best, greatest⟩ := exists_firstGreatest? Artifact.spanKey nonempty
      rw [← holds.lookup] at greatest
      exact mem_keys_of_lookup greatest
  rw [← filterMap_lookup (holds.ascending.imp ne_of_lt), keys, latestVersions]
  exact List.filterMap_congr fun span _ => holds.lookup span

/-! ## The law -/

/-- Deduplication keeps the latest artifact of each span, the first of several; the artifacts may as well be taken in
one after another. -/
theorem latestVersions_eq_iff (artifacts kept : List Artifact) :
    (latestVersions artifacts = kept ↔ KeepsLatest artifacts kept) ∧
      (allSpans artifacts = kept ↔ KeepsLatest artifacts kept) ∧
      ((artifacts.foldl takeIn []).map Prod.snd = kept ↔ KeepsLatest artifacts kept) := by
  have law : latestVersions artifacts = kept ↔ KeepsLatest artifacts kept := by
    constructor
    · rintro rfl
      exact keepsLatest_latestVersions artifacts
    · exact (keepsLatest_latestVersions artifacts).unique
  have taken : (artifacts.foldl takeIn []).map Prod.snd = latestVersions artifacts :=
    (holdsLatest_nil.foldl artifacts).values_eq
  exact ⟨law, law, taken ▸ law⟩

end Window

end InputResolution
