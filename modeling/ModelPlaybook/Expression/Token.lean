import ModelPlaybook.Text.Digits
import ModelPlaybook.Value.Order

/-!
# Tokens of expressions

Expressions and conditions are made of numbers, field references, four operators, parentheses and,
in conditions, six comparators.  A token remembers the position of its first character.
-/

namespace ModelPlaybook.Expression

/-- Where a field reference looks: at the intake values or at the outputs of earlier steps. -/
inductive Scope where
  | intake
  | steps
  | other (name : String)
deriving DecidableEq, Repr, Inhabited

def Scope.text : Scope → String
  | intake => "intake"
  | steps => "steps"
  | other name => name

/-- How many dotted name segments follow a scope. -/
def Scope.segments : Scope → Nat
  | steps => 2
  | _ => 1

/-- The text that starts a field reference. -/
def Scope.opening (s : Scope) : String :=
  s.text ++ "."

/-- The scopes that an expression can name. -/
def Scope.reserved : List Scope := [intake, steps]

def Scope.ofText (s : String) : Scope :=
  if s == "intake" then intake else if s == "steps" then steps else other s

inductive Operator where
  | plus | minus | times | divide
  /-- An operator that is not part of the language; evaluating it is an error. -/
  | other (symbol : String)
deriving DecidableEq, Repr, Inhabited

def Operator.symbol : Operator → String
  | plus => "+"
  | minus => "-"
  | times => "*"
  | divide => "/"
  | other symbol => symbol

def Operator.ofSymbol (s : String) : Operator :=
  if s == "+" then plus
  else if s == "-" then minus
  else if s == "*" then times
  else if s == "/" then divide
  else other s

/-- A number as it can be written in an expression. -/
inductive Literal where
  | int (n : Nat)
  | float (x : Binary64)
deriving DecidableEq, Repr, Inhabited

def Literal.toNumber : Literal → Number
  | int n => .int n
  | float x => .float x

def Literal.text : Literal → String
  | int n => toString n
  | float x => x.text

/-- What a token is, without its position. -/
inductive Lexeme where
  | number (value : Literal)
  | field (scope : Scope) (name : String)
  | plus | minus | star | slash | leftParen | rightParen
  | comparator (c : Comparator)
  | ending
deriving DecidableEq, Repr, Inhabited

namespace Lexeme

/-- The name of the kind of a token. -/
def kindName : Lexeme → String
  | number _ => "NUMBER"
  | field .. => "FIELD_REF"
  | plus => "PLUS"
  | minus => "MINUS"
  | star => "STAR"
  | slash => "SLASH"
  | leftParen => "LPAREN"
  | rightParen => "RPAREN"
  | comparator _ => "COMPARATOR"
  | ending => "EOF"

/-- The source text of a token; a number is written anew. -/
def text : Lexeme → String
  | number value => value.text
  | field scope name => scope.text ++ "." ++ name
  | plus => "+"
  | minus => "-"
  | star => "*"
  | slash => "/"
  | leftParen => "("
  | rightParen => ")"
  | comparator c => c.symbol
  | ending => ""

/-- A token as messages name it. -/
def describe : Lexeme → String
  | ending => "end of expression"
  | field scope name => "field reference \"" ++ scope.text ++ "." ++ name ++ "\""
  | l => "\"" ++ l.text ++ "\""

/-- The token of an operator or a parenthesis. -/
def ofSingle? (c : Char) : Option Lexeme :=
  match c with
  | '+' => some plus
  | '-' => some minus
  | '*' => some star
  | '/' => some slash
  | '(' => some leftParen
  | ')' => some rightParen
  | _ => none

/-- The operator that joins products. -/
def additive? : Lexeme → Option Operator
  | plus => some .plus
  | minus => some .minus
  | _ => none

/-- The operator that joins factors. -/
def multiplicative? : Lexeme → Option Operator
  | star => some .times
  | slash => some .divide
  | _ => none

end Lexeme

structure Token where
  lexeme : Lexeme
  position : Nat
deriving DecidableEq, Repr, Inhabited

end ModelPlaybook.Expression
