import InputResolution.Command.Settings
import InputResolution.Fingerprint
import InputResolution.Record.Outcome
import InputResolution.Record.Metadata
import InputResolution.Resolution
import InputResolution.Written.Reader

/-!
The commands: to resolve a context against a snapshot, to validate one, and to print its fingerprints. A command reads
its files through a function, so that what it does is a function of their texts. It exits with 0, or with 3 if the
step is to be skipped; errors exit with 2, or with 4 when they come from the resolution.
-/

namespace InputResolution

/-- The text of a file, if it can be read. -/
abbrev Files : Type :=
  String → Option String

structure Report where
  exitCode : Nat
  output : Json

def Report.render (report : Report) (pretty : Bool) : String :=
  if pretty then report.output.indentedText 0 else report.output.canonicalText

namespace Command

variable {α : Type}

def readRecord (files : Files) (read : Written → Option α) (path : String) : Except CommandError α :=
  match files path with
  | none => .error .io
  | some text =>
      match (Written.read? text).bind read with
      | none => .error .json
      | some value => .ok value

def lift (result : Except ResolveError α) : Except CommandError α :=
  result.mapError .resolve

def loadContext (files : Files) (path : String) : Except CommandError ResolutionContext := do
  let context ← readRecord files ResolutionContext.ofWritten? path
  lift context.validate
  .ok context

def skipCode : Nat := 3

def resolveReport (runId : String) (context : ResolutionContext) (outcome : Outcome) : Report :=
  { exitCode := if outcome.isSkip then skipCode else 0
    output := .object [
      ("run_id", .string runId),
      ("context_fingerprint", .string context.fingerprint),
      ("result", outcome.toJson)] }

def runResolve (files : Files) (runId : String) (seeding : Seeding) (snapshot inputs : String) :
    Except CommandError Report := do
  let records ← readRecord files Snapshot.ofWritten? snapshot
  let context ← loadContext files inputs
  let outcome ← lift (context.resolve records.source seeding ()).1
  .ok (resolveReport runId context outcome)

def slotReport (graph : Graph) (slot : String) (binding : SlotBinding) : Json :=
  let node := graph.node? binding.node
  .object [
    ("slot", .string slot),
    ("node", Record.ofNat binding.node),
    ("operation", Record.ofOption (fun found => .string found.op.name) node),
    ("shape", Record.ofOption (fun found => found.outputShape.toJson) node),
    ("min_count", Record.ofNat binding.minCount)]

def runValidate (files : Files) (inputs : String) : Except CommandError Report := do
  let context ← loadContext files inputs
  let slots := context.slots.entries.map fun entry => slotReport context.graph entry.1 entry.2
  .ok {
    exitCode := 0
    output := .object [("valid", .bool true), ("nodes", Record.ofNat context.graph.size), ("slots", .array slots)] }

def runFingerprint (files : Files) (inputs : String) : Except CommandError Report := do
  let context ← loadContext files inputs
  .ok {
    exitCode := 0
    output := .object [
      ("graph", .string context.graph.fingerprint), ("context", .string context.fingerprint)] }

/-- Runs a command. The identifier names the run in its report, and `drawn` gives shuffles the seeds that neither they
nor the command line nor the settings have. -/
def run (files : Files) (runId : String) (drawn : Nat → UInt64) (settings : Settings) :
    Command → Except CommandError Report
  | resolve snapshot inputs seed =>
      match snapshot <|> settings.snapshot with
      | none => .error .noSnapshot
      | some path => runResolve files runId ⟨seed <|> settings.seed, drawn⟩ path inputs
  | validate inputs => runValidate files inputs
  | fingerprint inputs => runFingerprint files inputs

end Command

end InputResolution
