/-!
Command lines. A command has a name and options with values; the option `--pretty` may stand before or after the name,
once each. The first request for help ends the reading, and so does the first mistake.
-/

namespace InputResolution

inductive Command where
  | resolve (snapshot : Option String) (inputs : String) (seed : Option UInt64)
  | validate (inputs : String)
  | fingerprint (inputs : String)
deriving DecidableEq

structure CommandLine where
  command : Command
  pretty : Bool
deriving DecidableEq

inductive Usage where
  | help
  | mistake
deriving DecidableEq

inductive NumberError where
  | empty
  | invalidDigit
  | tooLarge
deriving DecidableEq

def NumberError.message : NumberError → String
  | empty => "cannot parse integer from empty string"
  | invalidDigit => "invalid digit found in string"
  | tooLarge => "number too large to fit in target type"

namespace CommandLine

def readDigits (value : Nat) : List Char → Except NumberError UInt64
  | [] => .ok value.toUInt64
  | c :: rest =>
      if !c.isDigit then .error .invalidDigit
      else
        let next := value * 10 + (c.toNat - '0'.toNat)
        if next ≤ 18446744073709551615 then readDigits next rest else .error .tooLarge

/-- Digits, perhaps after a plus sign. -/
def readNumber (chars : List Char) : Except NumberError UInt64 :=
  match chars with
  | [] => .error .empty
  | '+' :: [] => .error .invalidDigit
  | '+' :: digits => readDigits 0 digits
  | digits => readDigits 0 digits

/-- The options found so far. One may wait for its value, and nothing may follow the mark `--`. -/
structure Options where
  values : List (String × String)
  pretty : Bool
  waiting : Option String
  closed : Bool

def Options.none : Options := ⟨[], false, .none, false⟩

/-- A value may not look like an option; a single hyphen does not. -/
def looksLikeOption (arg : String) : Bool :=
  arg.startsWith "-" && arg ≠ "-"

def splitOption (arg : String) : String × Option String :=
  let chars := arg.toList
  let name := chars.takeWhile (· ≠ '=')
  match chars.drop name.length with
  | [] => (arg, none)
  | _ :: value => (String.ofList name, some (String.ofList value))

/-- Whether the value of an option can be used: names of files are not empty, and a seed is a number. -/
def isUsable (name value : String) : Bool :=
  if name = "--seed" then
    match readNumber value.toList with
    | .ok _ => true
    | .error _ => false
  else value ≠ ""

def addValue (options : Options) (name value : String) : Except Usage Options :=
  if (options.values.lookup name).isNone && isUsable name value then
    .ok { options with values := options.values ++ [(name, value)] }
  else .error .mistake

def step (valued : List String) (options : Options) (arg : String) : Except Usage Options :=
  match options.waiting with
  | some name =>
      if looksLikeOption arg then .error .mistake else addValue { options with waiting := none } name arg
  | none =>
      if options.closed then .error .mistake
      else if arg = "--" then .ok { options with closed := true }
      else if arg = "--help" || arg.startsWith "-h" then .error .help
      else if arg = "--pretty" then
        if options.pretty then .error .mistake else .ok { options with pretty := true }
      else
        let (name, value) := splitOption arg
        if !valued.contains name then .error .mistake
        else
          match value with
          | some value => addValue options name value
          | none => .ok { options with waiting := some name }

def readOptions (valued : List String) (args : List String) : Except Usage Options := do
  let options ← args.foldlM (step valued) Options.none
  if options.waiting.isSome then .error .mistake else .ok options

def needed (options : Options) (name : String) : Except Usage String :=
  match options.values.lookup name with
  | some value => .ok value
  | none => .error .mistake

def seedOf (options : Options) : Option UInt64 :=
  (options.values.lookup "--seed").bind fun value => (readNumber value.toList).toOption

def readResolve (pretty : Bool) (args : List String) : Except Usage CommandLine := do
  let options ← readOptions ["--snapshot", "--inputs", "--seed"] args
  let inputs ← needed options "--inputs"
  .ok ⟨.resolve (options.values.lookup "--snapshot") inputs (seedOf options), pretty || options.pretty⟩

def readInputs (command : String → Command) (pretty : Bool) (args : List String) : Except Usage CommandLine := do
  let options ← readOptions ["--inputs"] args
  let inputs ← needed options "--inputs"
  .ok ⟨command inputs, pretty || options.pretty⟩

/-- Help may be asked for on a command, by its name. -/
def readHelp : List String → Usage
  | [] => .help
  | [topic] => if ["resolve", "validate", "fingerprint", "help"].contains topic then .help else .mistake
  | _ => .mistake

/-- Reads a command line, given whether `--pretty` has been seen. -/
def readFrom (pretty : Bool) : List String → Except Usage CommandLine
  | [] => .error .mistake
  | arg :: rest =>
      if arg = "--help" || arg.startsWith "-h" then .error .help
      else if arg = "--pretty" then (if pretty then .error .mistake else readFrom true rest)
      else if arg = "resolve" then readResolve pretty rest
      else if arg = "validate" then readInputs .validate pretty rest
      else if arg = "fingerprint" then readInputs .fingerprint pretty rest
      else if arg = "help" then .error (readHelp rest)
      else .error .mistake

def read (args : List String) : Except Usage CommandLine :=
  readFrom false args

end CommandLine

end InputResolution
