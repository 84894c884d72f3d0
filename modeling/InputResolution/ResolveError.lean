/-!
What can go wrong, cause by cause. Absent data is never an error; it leads to a skip. Every cause has one of five
kinds, and its message is the label of the kind followed by the detail of the cause.

Some causes name the shape of what a node of an operator graph produces: one list of artifacts, a sequence of lists of
which each drives one execution, or lists under names.
-/

namespace InputResolution

inductive Shape where
  | list
  | listOfLists
  | dict
deriving DecidableEq

namespace Shape

def name : Shape → String
  | list => "list"
  | listOfLists => "list_of_lists"
  | dict => "dict"

/-- How messages call a shape. -/
def label : Shape → String
  | list => "List"
  | listOfLists => "ListOfLists"
  | dict => "Dict"

end Shape

inductive StoreError where
  | unavailable (text : String)
  | corrupt (text : String)
deriving DecidableEq

namespace StoreError

def name : StoreError → String
  | unavailable _ => "Unavailable"
  | corrupt _ => "Corrupt"

def detail : StoreError → String
  | unavailable text => text
  | corrupt text => text

def message : StoreError → String
  | unavailable text => s!"store unavailable: {text}"
  | corrupt text => s!"corrupt record: {text}"

end StoreError

inductive ErrorKind where
  | invalidArgument
  | inconsistentResultShape
  | storeUnavailable
  | invalidGraph
  | internal
deriving DecidableEq

namespace ErrorKind

def name : ErrorKind → String
  | invalidArgument => "InvalidArgument"
  | inconsistentResultShape => "InconsistentResultShape"
  | storeUnavailable => "StoreUnavailable"
  | invalidGraph => "InvalidGraph"
  | internal => "Internal"

def label : ErrorKind → String
  | invalidArgument => "invalid argument"
  | inconsistentResultShape => "inconsistent result shape"
  | storeUnavailable => "metadata store unavailable"
  | invalidGraph => "invalid graph"
  | internal => "internal"

end ErrorKind

/-- An error as records hold it: only its kind and its detail are left. -/
structure ErrorReport where
  kind : ErrorKind
  detail : String
deriving DecidableEq

def ErrorReport.message (report : ErrorReport) : String :=
  report.kind.label ++ ": " ++ report.detail

inductive ResolveError where
  | negative (name : String) (value : Int)
  | zero (name : String)
  | blankTypeName
  | blankPipelineOutput
  | blankExamplesType
  | emptySelectKey
  | startAfterEnd (startSpan endSpan : Int)
  | wrongArity (operation : String) (expected found : Nat)
  | unacceptedInput (operation : String) (shape : Shape) (input : Nat)
  /-- A node refers to one that does not come before it. -/
  | undefinedInput (node input : Nat)
  | misplacedNode (position label : Nat)
  | wrongOutputShape (node : Nat) (declared : Shape) (operation : String) (produced : Shape)
  | unknownNode (node : Nat)
  | blankSlotName
  | slotTaken (slot : String)
  | slotOfUnknownNode (slot : String) (node : Nat)
  | slotOfDict (slot : String) (node : Nat)
  | slotWithDictValue (slot : String)
  | slotNotEvaluated (slot : String)
  | missingInput (node index : Nat)
  | inputNotEvaluated (node input : Nat)
  | unexpectedShape (node : Nat) (operation : String) (index : Nat)
  | unknownKey (node : Nat) (key : String)
  | unevenSequences (slot : String) (length : Nat) (other : String) (otherLength : Nat)
  | foreignChannel (node : Nat)
  | rangeTooWide (startSpan endSpan : Int)
  | noOutputKeys (pipeline : String)
  | repeatedOutputKey (key : String)
  | vanishedNode (node : Nat)
  | store (failure : StoreError)
deriving DecidableEq

namespace ResolveError

def kind : ResolveError → ErrorKind
  | negative _ _ => .invalidArgument
  | zero _ => .invalidArgument
  | blankTypeName => .invalidArgument
  | blankPipelineOutput => .invalidArgument
  | blankExamplesType => .invalidArgument
  | emptySelectKey => .invalidArgument
  | startAfterEnd _ _ => .invalidArgument
  | wrongArity _ _ _ => .invalidArgument
  | unacceptedInput _ _ _ => .invalidArgument
  | undefinedInput _ _ => .invalidGraph
  | misplacedNode _ _ => .invalidGraph
  | wrongOutputShape _ _ _ _ => .invalidGraph
  | unknownNode _ => .invalidGraph
  | blankSlotName => .invalidArgument
  | slotTaken _ => .invalidArgument
  | slotOfUnknownNode _ _ => .invalidGraph
  | slotOfDict _ _ => .invalidGraph
  | slotWithDictValue _ => .invalidGraph
  | slotNotEvaluated _ => .internal
  | missingInput _ _ => .internal
  | inputNotEvaluated _ _ => .internal
  | unexpectedShape _ _ _ => .internal
  | unknownKey _ _ => .invalidArgument
  | unevenSequences _ _ _ _ => .inconsistentResultShape
  | foreignChannel _ => .invalidArgument
  | rangeTooWide _ _ => .invalidArgument
  | noOutputKeys _ => .invalidArgument
  | repeatedOutputKey _ => .invalidArgument
  | vanishedNode _ => .internal
  | store (.unavailable _) => .storeUnavailable
  | store (.corrupt _) => .internal

def detail : ResolveError → String
  | negative name value => s!"{name} must be >= 0, got {value}"
  | zero name => s!"{name} must be > 0"
  | blankTypeName => "artifact query requires a type name"
  | blankPipelineOutput => "latest_pipeline_run_outputs requires a pipeline name and an output key"
  | blankExamplesType => "examples_type must not be empty"
  | emptySelectKey => "select key must not be empty"
  | startAfterEnd startSpan endSpan => s!"start_span ({startSpan}) must be <= end_span ({endSpan})"
  | wrongArity operation expected found => s!"{operation} expects {expected} input(s), got {found}"
  | unacceptedInput operation shape input =>
      s!"{operation} cannot consume a {shape.label} input from node #{input}"
  | undefinedInput node input => s!"node #{node} references #{input}, which is not defined before it"
  | misplacedNode position label => s!"node at position {position} is labelled #{label}"
  | wrongOutputShape node declared operation produced =>
      s!"node #{node} declares {declared.label} output but {operation} produces {produced.label}"
  | unknownNode node => s!"unknown node #{node}"
  | blankSlotName => "slot name must not be empty"
  | slotTaken slot => s!"slot '{slot}' is already bound"
  | slotOfUnknownNode slot node => s!"slot '{slot}' is bound to unknown node #{node}"
  | slotOfDict slot node => s!"slot '{slot}' is bound to #{node} which produces a dict; select a key first"
  | slotWithDictValue slot => s!"slot '{slot}' is bound to a dict-valued node"
  | slotNotEvaluated slot => s!"slot '{slot}' was not evaluated"
  | missingInput node index => s!"node #{node} has no input {index}"
  | inputNotEvaluated node input => s!"node #{node} evaluated before its input #{input}"
  | unexpectedShape node operation index =>
      s!"node #{node} ({operation}) received an unexpected shape on input {index}"
  | unknownKey node key => s!"node #{node} selects unknown key '{key}'"
  | unevenSequences slot length other otherLength =>
      s!"slot '{slot}' has {length} element(s) but slot '{other}' has {otherLength}"
  | foreignChannel node => s!"channel for node #{node} belongs to another builder"
  | rangeTooWide startSpan endSpan => s!"static_range [{startSpan}, {endSpan}] is too wide"
  | noOutputKeys pipeline => s!"pipeline '{pipeline}' declares no outputs"
  | repeatedOutputKey key => s!"output key '{key}' is repeated"
  | vanishedNode node => s!"node #{node} vanished from the graph"
  | store (.unavailable text) => text
  | store (.corrupt text) => s!"corrupt store record: {text}"

def report (error : ResolveError) : ErrorReport :=
  ⟨error.kind, error.detail⟩

def message (error : ResolveError) : String :=
  error.report.message

end ResolveError

end InputResolution
