import ModelPlaybook.Expression.Token
import ModelPlaybook.Fault

/-!
# What can be wrong with an expression

Three kinds of failure: the text is malformed, it names a field that has no value, or it cannot be
computed.  Each cause knows its message; causes of malformed text know the position they complain
about.
-/

namespace ModelPlaybook.Expression

/-- Why a text is no expression or condition. -/
inductive SyntaxFault where
  /-- A numeric literal with more than one point. -/
  | secondPoint (literal : String) (position : Nat)
  | outOfRange (position : Nat)
  | missingSegment (scope : Scope) (position : Nat)
  | missingName (scope : Scope) (position : Nat)
  | unexpectedCharacter (c : Char) (position : Nat) (text : String)
  | blank
  | afterEnd (token : Token)
  | expectedParen (token : Token)
  | unexpectedToken (token : Token)
  | unsupportedCondition (text : String) (token : Token)
  | conditionKind (typeName : String)
  | notOneReference (text : String)
  /-- The tokens stop without an ending. -/
  | exhausted
deriving DecidableEq, Repr

namespace SyntaxFault

/-- The position a fault complains about, in characters from the start of the text. -/
def position? : SyntaxFault → Option Nat
  | secondPoint _ p => some p
  | outOfRange p => some p
  | missingSegment _ p => some p
  | missingName _ p => some p
  | unexpectedCharacter _ p _ => some p
  | blank => none
  | afterEnd t => some t.position
  | expectedParen t => some t.position
  | unexpectedToken t => some t.position
  | unsupportedCondition _ t => some t.position
  | conditionKind _ => none
  | notOneReference _ => some 0
  | exhausted => none

def usage : String :=
  "Use the form: intake.field <op> number or intake.field <op> intake.field2"

def message : SyntaxFault → String
  | secondPoint literal p =>
    "Invalid numeric literal \"" ++ literal ++ "\" at position " ++ toString p
  | outOfRange p => "Numeric literal at position " ++ toString p ++ " is out of range"
  | missingSegment scope p =>
    "\"" ++ scope.opening ++ "\" reference at position " ++ toString p ++ " needs " ++
      toString scope.segments ++ " dotted name segments"
  | missingName scope p =>
    "\"" ++ scope.opening ++ "\" reference at position " ++ toString p ++
      " must be followed by a field name"
  | unexpectedCharacter c p text =>
    "Unexpected character \"" ++ String.singleton c ++ "\" at position " ++ toString p ++
      " in expression: \"" ++ text ++ "\""
  | blank => "Expression must be a non-empty string"
  | afterEnd t =>
    "Unexpected " ++ t.lexeme.describe ++ " at position " ++ toString t.position ++
      " after expression end"
  | expectedParen t =>
    "Expected " ++ Lexeme.rightParen.kindName ++ " but got " ++ t.lexeme.describe ++
      " at position " ++ toString t.position
  | unexpectedToken t =>
    "Unexpected " ++ t.lexeme.describe ++ " at position " ++ toString t.position ++
      " while parsing expression"
  | unsupportedCondition text t =>
    "Unsupported condition syntax: \"" ++ text ++ "\" (unexpected " ++ t.lexeme.describe ++
      " at position " ++ toString t.position ++ "). " ++ usage
  | conditionKind typeName => "Condition must be a string or boolean, got " ++ typeName
  | notOneReference text =>
    "Input reference \"" ++ text ++ "\" must be a single field reference; " ++
      "use \x7b\"derived\": ...\x7d for expressions"
  | exhausted => "Expression stops without an ending"

end SyntaxFault

/-- Why a well-formed expression or condition has no value. -/
inductive EvaluationFault where
  | notFinite (path : String) (typeName : String)
  | divisionByZero
  | unknownOperator (symbol : String)
  | notComputable (fault : Fault)
  | nonFiniteResult
  | notComparable (symbol : String) (left right : String)
deriving DecidableEq, Repr

def EvaluationFault.message : EvaluationFault → String
  | notFinite path typeName =>
    "Field \"" ++ path ++ "\" used in derived expression must be a finite number, got " ++ typeName
  | divisionByZero => "Division by zero in derived expression"
  | unknownOperator symbol => "Unknown operator: " ++ Text.quoted symbol
  | notComputable fault => "Derived expression could not be computed: " ++ fault.shown
  | nonFiniteResult => "Derived expression produced a non-finite result"
  | notComparable symbol left right =>
    "Cannot apply " ++ symbol ++ " to " ++ left ++ " and " ++ right

/-- A failure of parsing or evaluating. -/
inductive Failure where
  | malformed (cause : SyntaxFault)
  | unknownField (path : String) (position : Option Nat)
  | evaluation (cause : EvaluationFault)
  /-- A caller passed something that is no expression at all. -/
  | contract (message : String)
  /-- An operation on values failed where nothing turns its fault into an error of the language. -/
  | fault (f : Fault)
deriving DecidableEq, Repr

namespace Failure

def message : Failure → String
  | malformed cause => cause.message
  | unknownField path _ => "Expression references unknown field: \"" ++ path ++ "\""
  | evaluation cause => cause.message
  | contract message => message
  | fault f => f.text

/-- Whether a failure is an error of the expression language, as opposed to a broken contract or a
fault that escaped. -/
def isExpressionError : Failure → Bool
  | malformed _ => true
  | unknownField .. => true
  | evaluation _ => true
  | contract _ => false
  | fault _ => false

end Failure

end ModelPlaybook.Expression
