import InputResolution.Characters
import InputResolution.Command.Line
import InputResolution.ResolveError

/-!
Settings from the surroundings, by the names of variables, and the failures of commands. Options of the command line
go before settings. A blank variable counts as one that is not set, except for the seed, which must be a number.
-/

namespace InputResolution

inductive CommandError where
  | io
  | json
  | noSnapshot
  | badSeed (text : String) (cause : NumberError)
  | resolve (cause : ResolveError)
deriving DecidableEq

structure Settings where
  logFilter : String
  snapshot : Option String
  seed : Option UInt64
deriving DecidableEq

namespace Settings

def logVariable : String := "SPANFLOW_LOG"

def snapshotVariable : String := "SPANFLOW_SNAPSHOT"

def seedVariable : String := "SPANFLOW_SHUFFLE_SEED"

def defaultLogFilter : String := "info"

def ofLookup (lookup : String → Option String) : Except CommandError Settings := do
  let seed ←
    match lookup seedVariable with
    | none => .ok none
    | some text =>
        match CommandLine.readNumber (trimmed text) with
        | .ok seed => .ok (some seed)
        | .error cause => .error (.badSeed text cause)
  .ok {
    logFilter := ((lookup logVariable).filter fun text => !isBlank text).getD defaultLogFilter
    snapshot := (lookup snapshotVariable).filter fun text => !isBlank text
    seed }

end Settings

namespace CommandError

def hexadecimal (n : Nat) : List Char :=
  Nat.toDigits 16 n

def escapeChar (c : Char) : List Char :=
  if c = '"' then ['\\', '"']
  else if c = '\\' then ['\\', '\\']
  else if c = '\n' then ['\\', 'n']
  else if c = '\r' then ['\\', 'r']
  else if c = '\t' then ['\\', 't']
  else if c.toNat = 0 then ['\\', '0']
  else if isVisible c then [c]
  else '\\' :: 'u' :: '\x7b' :: hexadecimal c.toNat ++ ['\x7d']

/-- A text between quotes, with what does not show by itself written as an escape. -/
def quoted (text : String) : String :=
  String.ofList ('"' :: text.toList.flatMap escapeChar ++ ['"'])

/-- What is said about an error; files that cannot be read or understood are named elsewhere. -/
def message? : CommandError → Option String
  | io => none
  | json => none
  | noSnapshot => some "configuration error: no snapshot given (--snapshot or SPANFLOW_SNAPSHOT)"
  | badSeed text cause =>
      some ("configuration error: " ++ Settings.seedVariable ++ "=" ++ quoted text ++ ": " ++ cause.message)
  | resolve cause => some ("resolution failed: " ++ cause.message)

def exitCode : CommandError → Nat
  | resolve _ => 4
  | _ => 2

end CommandError

end InputResolution
