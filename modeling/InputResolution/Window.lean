import InputResolution.Metadata

/-!
Windows over the spans of artifacts. No function here depends on a store.

Deduplication keeps one artifact for each span, the one with the greatest version, and of several the latest in
creation order. A range keeps the artifacts whose span lies in a set of spans; it then shows all their versions in
order, or only the one that deduplication keeps. Artifacts without a span belong to no range.
-/

namespace InputResolution

structure StaticRange where
  startSpan : Option Int
  endSpan : Int
  keepAllVersions : Bool
  excludedSpans : List Int
deriving DecidableEq

structure RollingRange where
  startSpan : Int
  numSpans : Nat
  skippedRecentSpans : Nat
  keepAllVersions : Bool
deriving DecidableEq

structure SequentialRange where
  startSpan : Int
  numSpans : Nat
  skippedRecentSpans : Nat
  keepAllVersions : Bool
  excludedSpans : List Int
deriving DecidableEq

namespace Window

def spanned (artifacts : List Artifact) : List Artifact :=
  artifacts.filter fun a => a.span?.isSome

def sortBySpan (artifacts : List Artifact) : List Artifact :=
  sortBy Artifact.spanKey artifacts

def spanSorted (artifacts : List Artifact) : List Artifact :=
  sortBySpan (spanned artifacts)

def distinctSpans (artifacts : List Artifact) : List Int :=
  distinctAscending (artifacts.filterMap Artifact.span?)

/-- The element with the greatest key, the first of several. -/
def firstGreatest? {α : Type} (key : α → SortKey) : List α → Option α
  | [] => none
  | x :: rest =>
      match firstGreatest? key rest with
      | none => some x
      | some best => if key x < key best then some best else some x

def ofSpan (span : Int) (artifacts : List Artifact) : List Artifact :=
  artifacts.filter fun a => a.span? = some span

/-- One artifact for each span, in ascending order of spans. -/
def latestVersions (artifacts : List Artifact) : List Artifact :=
  (distinctSpans artifacts).filterMap fun span => firstGreatest? Artifact.spanKey (ofSpan span artifacts)

def finalize (keepAllVersions : Bool) (artifacts : List Artifact) : List Artifact :=
  if keepAllVersions then sortBySpan artifacts else latestVersions artifacts

def lastOf {α : Type} (n : Nat) (xs : List α) : List α :=
  xs.drop (xs.length - n)

def latestCreated (n : Nat) (artifacts : List Artifact) : List Artifact :=
  lastOf n (sortBy Artifact.creationKey artifacts)

def latestVersion (n : Nat) (artifacts : List Artifact) : List Artifact :=
  lastOf n (latestVersions artifacts)

def allSpans (artifacts : List Artifact) : List Artifact :=
  latestVersions artifacts

def within (keepAllVersions : Bool) (test : Int → Bool) (artifacts : List Artifact) : List Artifact :=
  finalize keepAllVersions (artifacts.filter fun a => a.span?.any test)

def staticRange (range : StaticRange) (artifacts : List Artifact) : List Artifact :=
  within range.keepAllVersions
    (fun span => range.startSpan.all (· ≤ span) && span ≤ range.endSpan && !range.excludedSpans.contains span)
    artifacts

def candidateSpans (startSpan : Int) (skipped : Nat) (artifacts : List Artifact) : List Int :=
  let spans := (distinctSpans artifacts).filter fun span => decide (startSpan ≤ span)
  spans.take (spans.length - skipped)

/-- The earliest candidate spans, or nothing if there are too few. -/
def rollingRange (range : RollingRange) (artifacts : List Artifact) : List Artifact :=
  let spans := candidateSpans range.startSpan range.skippedRecentSpans artifacts
  if spans.length < range.numSpans then []
  else within range.keepAllVersions (fun span => (spans.take range.numSpans).contains span) artifacts

def runs {α : Type} (n : Nat) (xs : List α) : List (List α) :=
  if n = 0 then [] else (List.range (xs.length + 1 - n)).map fun start => (xs.drop start).take n

/-- One window for each run of `numSpans` candidate spans, those excluded left out first. -/
def sequentialRange (range : SequentialRange) (artifacts : List Artifact) : List (List Artifact) :=
  let spans := (candidateSpans range.startSpan range.skippedRecentSpans artifacts).filter fun span =>
    !range.excludedSpans.contains span
  (runs range.numSpans spans).map fun run =>
    within range.keepAllVersions (fun span => run.contains span) artifacts

end Window

end InputResolution
