import InputResolution.Command

/-!
The program: it reads the command line and the variables of its surroundings, runs the command on files, prints the
report, and ends with the exit code. What goes wrong is told on the standard error.
-/

open InputResolution

def filesOf (line : CommandLine) (settings : Settings) : List String :=
  match line.command with
  | .resolve snapshot inputs _ => (snapshot <|> settings.snapshot).toList ++ [inputs]
  | .validate inputs => [inputs]
  | .fingerprint inputs => [inputs]

def readText? (path : String) : IO (Option String) := do
  try
    return some (← IO.FS.readFile path)
  catch _ =>
    return none

def usageText : String :=
  "Usage: spanflow [--pretty] <resolve|validate|fingerprint> --inputs <FILE> [--snapshot <FILE>] [--seed <SEED>]"

def randomName : IO String := do
  let high ← IO.rand 0 4611686018427387903
  let low ← IO.rand 0 4611686018427387903
  return String.ofList (Nat.toDigits 16 high ++ Nat.toDigits 16 low)

def tell (error : CommandError) : String :=
  match error with
  | .io => "cannot read a file"
  | .json => "a file holds no such record"
  | other => other.message?.getD ""

def perform (line : CommandLine) (settings : Settings) : IO UInt32 := do
  let texts ← (filesOf line settings).mapM fun path => return (path, ← readText? path)
  let seed ← IO.rand 0 18446744073709551615
  let files (path : String) : Option String := (texts.lookup path).join
  match line.command.run files (← randomName) (fun node => (seed + node).toUInt64) settings with
  | .ok report =>
      IO.println (report.render line.pretty)
      return report.exitCode.toUInt32
  | .error error =>
      IO.eprintln ("[spanflow] " ++ tell error)
      return error.exitCode.toUInt32

def main (args : List String) : IO UInt32 := do
  match CommandLine.read args with
  | .error .help =>
      IO.println usageText
      return 0
  | .error .mistake =>
      IO.eprintln usageText
      return 2
  | .ok line =>
      let names := [Settings.logVariable, Settings.snapshotVariable, Settings.seedVariable]
      let values ← names.mapM fun name => return (name, ← IO.getEnv name)
      match Settings.ofLookup fun name => (values.lookup name).join with
      | .error error =>
          IO.eprintln ("[spanflow] " ++ tell error)
          return error.exitCode.toUInt32
      | .ok settings => perform line settings
