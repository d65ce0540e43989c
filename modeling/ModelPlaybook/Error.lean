import ModelPlaybook.Expression.Error
import ModelPlaybook.Schema.Issue

/-!
# Errors

Every error has a kind, and every kind a code by which a presentation layer can tell errors apart
without reading their messages.  Kinds form a small tree; a kind without a code of its own has the
code of its parent.
-/

namespace ModelPlaybook

inductive ErrorKind where
  | general
  | contract
  | sandbox
  | timeout
  | execution
  | expression
  | malformedExpression
  | unknownField
  | evaluation
  | modelLoad
  | invalidInputs
  | playbookNotFound
  | malformedPlaybook
  | invalidIntake
  | aborted
deriving DecidableEq, Repr

namespace ErrorKind

def parent? : ErrorKind → Option ErrorKind
  | general => none
  | timeout => some sandbox
  | execution => some sandbox
  | malformedExpression => some expression
  | unknownField => some malformedExpression
  | evaluation => some expression
  | _ => some general

/-- The code that errors of a kind carry. -/
def code : ErrorKind → String
  | general => "FINLOGIC_ERROR"
  | contract => "CONTRACT_VIOLATION"
  | sandbox => "FINLOGIC_ERROR"
  | timeout => "SANDBOX_TIMEOUT"
  | execution => "SANDBOX_EXECUTION_ERROR"
  | expression => "FINLOGIC_ERROR"
  | malformedExpression => "EXPRESSION_SYNTAX_ERROR"
  | unknownField => "EXPRESSION_UNKNOWN_FIELD"
  | evaluation => "EXPRESSION_EVALUATION_ERROR"
  | modelLoad => "MODEL_LOAD_ERROR"
  | invalidInputs => "INPUT_VALIDATION_FAILED"
  | playbookNotFound => "PLAYBOOK_NOT_FOUND"
  | malformedPlaybook => "PLAYBOOK_MALFORMED"
  | invalidIntake => "INTAKE_VALIDATION_FAILED"
  | aborted => "ORCHESTRATION_ABORTED"

/-- The kinds above a kind, the nearest first.  The tree has no branch longer than the fuel. -/
def ancestors (k : ErrorKind) : List ErrorKind :=
  climb 4 k
where
  climb : Nat → ErrorKind → List ErrorKind
    | 0, _ => []
    | fuel + 1, k =>
      match k.parent? with
      | some p => p :: climb fuel p
      | none => []

end ErrorKind

inductive Error where
  | general (message : String)
  | contract (message : String)
  | sandbox (message : String)
  | timeout (phase : String) (milliseconds : Value)
  | execution (message : String)
  | expression (message : String)
  | malformedExpression (message : String) (position : Option Nat)
  | unknownField (path : String) (position : Option Nat)
  | evaluation (message : String)
  /-- A model could not be loaded; the issues are those of its manifest. -/
  | modelLoad (message : String) (model : Option String) (issues : List Schema.Issue)
  | invalidInputs (message : String) (errors : List String)
  | playbookNotFound (playbook : Value) (location : Option String)
  | malformedPlaybook (message : String) (errors : List String)
  | invalidIntake (errors : List String)
  | aborted (message playbook step : String) (model : Option String) (cause : Option Error)
  /-- A document that breaks its schema, where no error of another kind reports it. -/
  | invalidDocument (issues : List Schema.Issue)
  /-- An operation on values failed and nothing turned its fault into an error of another kind. -/
  | fault (f : Fault)
deriving Repr

namespace Error

/-- The kind of an error; a broken schema and a fault have none. -/
def kind? : Error → Option ErrorKind
  | general _ => some .general
  | contract _ => some .contract
  | sandbox _ => some .sandbox
  | timeout .. => some .timeout
  | execution _ => some .execution
  | expression _ => some .expression
  | malformedExpression .. => some .malformedExpression
  | unknownField .. => some .unknownField
  | evaluation _ => some .evaluation
  | modelLoad .. => some .modelLoad
  | invalidInputs .. => some .invalidInputs
  | playbookNotFound .. => some .playbookNotFound
  | malformedPlaybook .. => some .malformedPlaybook
  | invalidIntake _ => some .invalidIntake
  | aborted .. => some .aborted
  | invalidDocument _ => none
  | fault _ => none

def code? (e : Error) : Option String :=
  e.kind?.map (·.code)

def message : Error → String
  | general m => m
  | contract m => m
  | sandbox m => m
  | timeout phase ms =>
    "Model execution timed out after " ++ ms.plainText ++ "ms during " ++ phase
  | execution m => m
  | expression m => m
  | malformedExpression m _ => m
  | unknownField path _ => "Expression references unknown field: \"" ++ path ++ "\""
  | evaluation m => m
  | modelLoad m _ _ => m
  | invalidInputs m _ => m
  | playbookNotFound playbook location =>
    "Playbook not found: " ++ playbook.plainText ++
      (match location with
      | some place => if place = "" then "" else " at " ++ place
      | none => "")
  | malformedPlaybook m _ => m
  | invalidIntake errors =>
    "Playbook intake validation failed:\n  " ++ "\n  ".intercalate errors
  | aborted m .. => m
  | invalidDocument issues => "\n".intercalate (issues.map (·.line))
  | fault f => f.text

/-- The text that several arguments make where one message was expected. -/
def messageOfArguments : List Value → String
  | [] => ""
  | [v] => v.plainText
  | vs => (Value.tuple vs).shown

/-- A text that may be missing, as a value. -/
def optionalText : Option String → Value
  | some s => .text s
  | none => .none

def optionalPosition : Option Nat → Value
  | some n => .int n
  | none => .none

def texts (errors : List String) : Value :=
  .list (errors.map .text)

/-- The data of an error beyond its code and its message. -/
def details : Error → List (String × Value)
  | timeout phase ms => [("phase", .text phase), ("timeout_ms", ms)]
  | malformedExpression _ position => [("position", optionalPosition position)]
  | unknownField path position => [("position", optionalPosition position), ("field", .text path)]
  | invalidInputs _ errors => [("errors", texts errors)]
  | malformedPlaybook _ errors => [("errors", texts errors)]
  | invalidIntake errors => [("errors", texts errors)]
  | aborted _ playbook step model _ =>
    [("playbook_id", .text playbook), ("step_id", .text step), ("model_id", optionalText model)]
  | _ => []

/-- What an error knows about its subject without making it part of its data. -/
def subject : Error → List (String × Value)
  | modelLoad _ model _ => [("model_id", optionalText model)]
  | playbookNotFound playbook _ => [("playbook_id", playbook)]
  | _ => []

def ofFailure : Expression.Failure → Error
  | .malformed cause => malformedExpression cause.message cause.position?
  | .unknownField path position => unknownField path position
  | .evaluation cause => evaluation cause.message
  | .contract message => contract message
  | .fault f => fault f

/-- Whether an error is a caller's broken contract, which no policy recovers from. -/
def isContract : Error → Bool
  | contract _ => true
  | _ => false

end Error

end ModelPlaybook
