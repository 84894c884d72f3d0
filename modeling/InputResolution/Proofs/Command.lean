import InputResolution.Command
import InputResolution.Proofs.Evaluation.Trace

/-!
How commands end. A file may be unreadable or may hold no record of the wanted kind, a context may be refused, and a
resolution may fail or skip the step. The exit code tells these apart: what is wrong with files goes before what is
wrong with a context, and that before what comes of its resolution.
-/

namespace InputResolution.Command

variable {α : Type} {files : Files} {read : Written → Option α} {path inputs : String}

def exitCode : Except CommandError Report → Nat
  | .ok report => report.exitCode
  | .error error => error.exitCode

/-! ## Files -/

def Holds (files : Files) (read : Written → Option α) (path : String) (value : α) : Prop :=
  ∃ text, files path = some text ∧ (Written.read? text).bind read = some value

/-- The file cannot be read, or what is written in it is not of the kind. -/
def HoldsNone (files : Files) (read : Written → Option α) (path : String) : Prop :=
  ∀ value, ¬Holds files read path value

theorem readRecord_eq_ok {value : α} : readRecord files read path = .ok value ↔ Holds files read path value := by
  unfold readRecord Holds
  cases files path with
  | none => simp
  | some text =>
      simp only [Option.some.injEq, exists_eq_left']
      cases (Written.read? text).bind read <;> simp

theorem exists_holds (readable : (readRecord files read path).toOption.isSome) :
    ∃ value, Holds files read path value := by
  cases done : readRecord files read path with
  | error error =>
      rw [done] at readable
      cases readable
  | ok value => exact ⟨value, readRecord_eq_ok.mp done⟩

theorem exitCode_of_readRecord_eq_error {error : CommandError} (failed : readRecord files read path = .error error) :
    error.exitCode = 2 := by
  unfold readRecord at failed
  split at failed
  · cases failed
    rfl
  · split at failed
    · cases failed
      rfl
    · cases failed

theorem exists_readRecord_eq_error (absent : HoldsNone files read path) :
    ∃ error, readRecord files read path = .error error ∧ error.exitCode = 2 := by
  cases done : readRecord files read path with
  | error error => exact ⟨error, rfl, exitCode_of_readRecord_eq_error done⟩
  | ok value => exact absurd (readRecord_eq_ok.mp done) (absent value)

theorem holdsNone_or (files : Files) (read : Written → Option α) (path : String) :
    HoldsNone files read path ∨ ∃ value, Holds files read path value := by
  by_cases held : ∃ value, Holds files read path value
  · exact .inr held
  · exact .inl fun value holds => held ⟨value, holds⟩

/-! ## The loaded context -/

inductive Looks (files : Files) (inputs : String) : Nat → Prop where
  | passed {context : ResolutionContext} (holds : Holds files ResolutionContext.ofWritten? inputs context)
      (accepted : context.validate = .ok ()) : Looks files inputs 0
  | absent (absent : HoldsNone files ResolutionContext.ofWritten? inputs) : Looks files inputs 2
  | refused {context : ResolutionContext} {cause : ResolveError}
      (holds : Holds files ResolutionContext.ofWritten? inputs context) (refused : context.validate = .error cause) :
      Looks files inputs 4

variable {context : ResolutionContext}

theorem loadContext_of_holds (holds : Holds files ResolutionContext.ofWritten? inputs context) :
    loadContext files inputs = (lift context.validate).map fun _ => context := by
  rw [loadContext, readRecord_eq_ok.mpr holds]
  change (lift context.validate >>= fun _ => .ok context) = _
  cases context.validate <;> rfl

theorem exists_loadContext_eq_error (absent : HoldsNone files ResolutionContext.ofWritten? inputs) :
    ∃ error, loadContext files inputs = .error error ∧ error.exitCode = 2 := by
  obtain ⟨error, failed, code⟩ := exists_readRecord_eq_error absent
  exact ⟨error, by rw [loadContext, failed]; rfl, code⟩

theorem looks_of_report {report : ResolutionContext → Report} (passes : ∀ context, (report context).exitCode = 0) :
    Looks files inputs (exitCode (loadContext files inputs >>= fun context => .ok (report context))) := by
  rcases holdsNone_or files ResolutionContext.ofWritten? inputs with absent | ⟨context, holds⟩
  · obtain ⟨error, failed, code⟩ := exists_loadContext_eq_error absent
    rw [failed]
    change Looks files inputs error.exitCode
    rw [code]
    exact .absent absent
  · rw [loadContext_of_holds holds]
    cases validated : context.validate with
    | error cause => exact .refused holds validated
    | ok =>
        change Looks files inputs (report context).exitCode
        rw [passes context]
        exact .passed holds validated

theorem exitCode_looking (report other : ResolutionContext → Report)
    (same : ∀ context, (report context).exitCode = (other context).exitCode) :
    exitCode (loadContext files inputs >>= fun context => .ok (report context)) =
      exitCode (loadContext files inputs >>= fun context => .ok (other context)) := by
  cases loadContext files inputs with
  | error error => rfl
  | ok context => exact same context

/-! ## The resolution -/

variable {runId snapshot : String} {seeding : Seeding} {records : Snapshot}

theorem exitCode_runResolve_of_absent
    (absent : HoldsNone files Snapshot.ofWritten? snapshot ∨ HoldsNone files ResolutionContext.ofWritten? inputs) :
    exitCode (runResolve files runId seeding snapshot inputs) = 2 := by
  unfold runResolve
  cases first : readRecord files Snapshot.ofWritten? snapshot with
  | error error => exact exitCode_of_readRecord_eq_error first
  | ok records =>
      obtain ⟨error, failed, code⟩ :=
        exists_loadContext_eq_error (absent.resolve_left fun none => none records (readRecord_eq_ok.mp first))
      rw [failed]
      exact code

/-- With both files at hand the command ends as the resolution does. A context that is refused is no exception, since
its resolution gives the same error. -/
theorem runResolve_of_holds (held : Holds files Snapshot.ofWritten? snapshot records)
    (holds : Holds files ResolutionContext.ofWritten? inputs context) :
    runResolve files runId seeding snapshot inputs =
      (lift (context.resolve records.source seeding ()).1).map (resolveReport runId context) := by
  rw [runResolve, readRecord_eq_ok.mpr held, loadContext_of_holds holds]
  change ((lift context.validate).map fun _ => context) >>= (fun context =>
    lift (context.resolve records.source seeding ()).1 >>= fun outcome => .ok (resolveReport runId context outcome)) = _
  cases validated : context.validate with
  | error cause =>
      rw [ResolutionContext.resolve_of_refused validated]
      rfl
  | ok =>
      change (lift (context.resolve records.source seeding ()).1 >>=
        fun outcome => .ok (resolveReport runId context outcome)) = _
      cases (context.resolve records.source seeding ()).1 <;> rfl

structure Ends (runId : String) (context : ResolutionContext) (resolved : Except ResolveError Outcome)
    (ended : Except CommandError Report) : Prop where
  failed : exitCode ended = 4 ↔ (∃ cause, context.validate = .error cause) ∨ ∃ cause, resolved = .error cause
  skipped : exitCode ended = 3 ↔ ∃ reason, resolved = .ok (.skip reason)
  triggered : exitCode ended = 0 ↔
    (∃ selection, resolved = .ok (.trigger selection)) ∨ ∃ selections, resolved = .ok (.triggerSequence selections)
  reported : ∀ outcome, resolved = .ok outcome → ∃ report, ended = .ok report ∧
    report.output = .object [
      ("run_id", .string runId),
      ("context_fingerprint", .string context.fingerprint),
      ("result", outcome.toJson)]

theorem ends_resolveReport {resolved : Except ResolveError Outcome}
    (refuses : ∀ cause, context.validate = .error cause → resolved = .error cause) :
    Ends runId context resolved ((lift resolved).map (resolveReport runId context)) := by
  cases resolved with
  | error cause =>
      have code : exitCode ((lift (.error cause)).map (resolveReport runId context)) = 4 := rfl
      exact {
        failed := iff_of_true code (.inr ⟨cause, rfl⟩)
        skipped := by simp [code]
        triggered := by simp [code]
        reported := nofun }
  | ok outcome =>
      have accepted : ∀ cause, context.validate ≠ .error cause := fun cause refused => nomatch refuses cause refused
      have code : exitCode ((lift (.ok outcome)).map (resolveReport runId context)) =
          if outcome.isSkip then 3 else 0 := rfl
      exact {
        failed := by
          rw [code]
          split <;> simp [accepted]
        skipped := by
          rw [code]
          cases outcome <;> simp [Outcome.isSkip, Outcome.skipReason?]
        triggered := by
          rw [code]
          cases outcome <;> simp [Outcome.isSkip, Outcome.skipReason?]
        reported := by
          intro other same
          cases same
          exact ⟨_, rfl, rfl⟩ }

theorem exitCode_lift_ne_two (resolved : Except ResolveError Outcome) :
    exitCode ((lift resolved).map (resolveReport runId context)) ≠ 2 := by
  cases resolved with
  | error cause => nofun
  | ok outcome =>
      change (if outcome.isSkip then 3 else 0) ≠ 2
      split <;> decide

/-! ## Whole commands -/

variable {drawn : Nat → UInt64} {settings : Settings} {seed : Option UInt64} {given : Option String}

/-- The snapshot that a resolution is given, on the command line or else by the settings. -/
def Given (settings : Settings) (given : Option String) (path : String) : Prop :=
  (given <|> settings.snapshot) = some path

theorem run_resolve (named : Given settings given snapshot) :
    run files runId drawn settings (.resolve given inputs seed) =
      runResolve files runId ⟨seed <|> settings.seed, drawn⟩ snapshot inputs := by
  rw [run, named]

theorem exitCode_resolve_eq_two :
    exitCode (run files runId drawn settings (.resolve given inputs seed)) = 2 ↔
      (∀ path, ¬Given settings given path) ∨
      (∃ path, Given settings given path ∧ HoldsNone files Snapshot.ofWritten? path) ∨
      HoldsNone files ResolutionContext.ofWritten? inputs := by
  cases named : given <|> settings.snapshot with
  | none =>
      have code : exitCode (run files runId drawn settings (.resolve given inputs seed)) = 2 := by
        rw [run, named]
        rfl
      exact iff_of_true code (.inl fun path some => nomatch named.symm.trans some)
  | some snapshot =>
      rw [run_resolve named]
      constructor
      · intro code
        rcases holdsNone_or files Snapshot.ofWritten? snapshot with absent | ⟨records, held⟩
        · exact .inr (.inl ⟨snapshot, named, absent⟩)
        rcases holdsNone_or files ResolutionContext.ofWritten? inputs with absent | ⟨context, holds⟩
        · exact .inr (.inr absent)
        -- With both files at hand the code is that of the resolution.
        rw [runResolve_of_holds held holds] at code
        exact absurd code (exitCode_lift_ne_two _)
      · rintro (unnamed | ⟨path, same, absent⟩ | absent)
        · exact absurd named (unnamed snapshot)
        · cases named.symm.trans same
          exact exitCode_runResolve_of_absent (.inl absent)
        · exact exitCode_runResolve_of_absent (.inr absent)

theorem ends_resolve (named : Given settings given snapshot) (held : Holds files Snapshot.ofWritten? snapshot records)
    (holds : Holds files ResolutionContext.ofWritten? inputs context) :
    Ends runId context (context.resolve records.source ⟨seed <|> settings.seed, drawn⟩ ()).1
      (run files runId drawn settings (.resolve given inputs seed)) := by
  rw [run_resolve named, runResolve_of_holds held holds]
  apply ends_resolveReport
  intro cause refused
  rw [ResolutionContext.resolve_of_refused refused]

/-- How the commands end. What a check refuses, a resolution with a snapshot refuses too. -/
theorem exitCode_run (files : Files) (runId : String) (drawn : Nat → UInt64) (settings : Settings) (inputs : String) :
    (∀ given seed,
      (exitCode (run files runId drawn settings (.resolve given inputs seed)) = 2 ↔
        (∀ path, ¬Given settings given path) ∨
        (∃ path, Given settings given path ∧ HoldsNone files Snapshot.ofWritten? path) ∨
        HoldsNone files ResolutionContext.ofWritten? inputs) ∧
      ∀ snapshot records context, Given settings given snapshot → Holds files Snapshot.ofWritten? snapshot records →
        Holds files ResolutionContext.ofWritten? inputs context →
        Ends runId context (context.resolve records.source ⟨seed <|> settings.seed, drawn⟩ ()).1
          (run files runId drawn settings (.resolve given inputs seed))) ∧
    Looks files inputs (exitCode (run files runId drawn settings (.validate inputs))) ∧
    exitCode (run files runId drawn settings (.fingerprint inputs)) =
      exitCode (run files runId drawn settings (.validate inputs)) ∧
    (exitCode (run files runId drawn settings (.validate inputs)) = 4 →
      ∀ given seed snapshot records, Given settings given snapshot →
        Holds files Snapshot.ofWritten? snapshot records →
        exitCode (run files runId drawn settings (.resolve given inputs seed)) = 4) := by
  have looks : Looks files inputs (exitCode (run files runId drawn settings (.validate inputs))) :=
    looks_of_report fun _ => rfl
  refine ⟨fun given seed => ⟨exitCode_resolve_eq_two, fun _ _ _ => ends_resolve⟩, looks, exitCode_looking _ _ fun _ => rfl, ?_⟩
  intro code given seed snapshot records named held
  rw [code] at looks
  cases looks with
  | @refused context cause holds refused => exact (ends_resolve named held holds).failed.mpr (.inl ⟨cause, refused⟩)

def deskFiles : Files
  | "snapshot.json" =>
      some "\x7b\"artifacts\":[[1,\"Examples\",\"\",\"LIVE\",\x7b\x7d,\"2024-01-01T00:00:00Z\"]]\x7d"
  | "examples.json" =>
      some "\x7b\"graph\":[[[0,[\"input\",[\"Examples\"]],[],\"list\"]]],\"slots\":\x7b\"examples\":[0]\x7d\x7d"
  | "dangling.json" => some "\x7b\"graph\":[[]],\"slots\":\x7b\"examples\":[0]\x7d\x7d"
  | _ => none

def deskSettings : Settings :=
  ⟨"info", some "snapshot.json", none⟩

theorem exitCode_run_desk :
    (∃ records context, Holds deskFiles Snapshot.ofWritten? "snapshot.json" records ∧
      Holds deskFiles ResolutionContext.ofWritten? "examples.json" context ∧
      Ends "run" context (context.resolve records.source ⟨none, fun _ => 0⟩ ()).1
        (run deskFiles "run" (fun _ => 0) deskSettings (.resolve none "examples.json" none))) ∧
    exitCode (run deskFiles "run" (fun _ => 0) deskSettings (.resolve none "examples.json" none)) = 0 ∧
    exitCode (run deskFiles "run" (fun _ => 0) deskSettings (.validate "dangling.json")) = 4 ∧
    exitCode (run deskFiles "run" (fun _ => 0) deskSettings (.resolve none "dangling.json" (some 7))) = 4 := by
  have named : Given deskSettings none "snapshot.json" := rfl
  have held : ∃ records, Holds deskFiles Snapshot.ofWritten? "snapshot.json" records :=
    exists_holds (by decide +kernel)
  have holds : ∃ context, Holds deskFiles ResolutionContext.ofWritten? "examples.json" context :=
    exists_holds (by decide +kernel)
  obtain ⟨records, held⟩ := held
  obtain ⟨context, holds⟩ := holds
  have codes := exitCode_run deskFiles "run" (fun _ => 0) deskSettings
  have refused : exitCode (run deskFiles "run" (fun _ => 0) deskSettings (.validate "dangling.json")) = 4 := by
    decide +kernel
  exact ⟨⟨records, context, held, holds, ((codes "examples.json").1 none none).2 _ _ _ named held holds⟩,
    by decide +kernel, refused, (codes "dangling.json").2.2.2 refused none (some 7) _ _ named held⟩

end InputResolution.Command
