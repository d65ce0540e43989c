import ModelPlaybook.Expression.Scan

/-!
# Expressions

An expression is a tree of numbers, field references and operators.  Its text follows the usual
rules: `*` and `/` bind tighter than `+` and `-`, operators of one level group to the left, and a
minus sign before a factor binds tightest.
-/

namespace ModelPlaybook.Expression

/-- A reference to an intake field, or to an output of an earlier step.  The position is where it
was found in a text. -/
structure Reference where
  scope : Scope
  name : String
  position : Option Nat := none
deriving DecidableEq, Repr, Inhabited

def Reference.path (r : Reference) : String :=
  r.scope.text ++ "." ++ r.name

inductive Tree where
  | number (value : Number)
  | reference (target : Reference)
  | negate (operand : Tree)
  | binary (operator : Operator) (left right : Tree)
  /-- Something of a type that is no part of an expression. -/
  | misplaced (typeName : String)
deriving DecidableEq, Repr, Inhabited

namespace Tree

/-- The references of a tree from left to right. -/
def references : Tree → List Reference
  | number _ => []
  | reference target => [target]
  | negate operand => operand.references
  | binary _ left right => left.references ++ right.references
  | misplaced _ => []

/-- What a reading function gives: a tree and the tokens behind it. -/
abbrev Reading (holds : List Token → Prop) :=
  Except SyntaxFault { r : Tree × List Token // holds r.2 }

mutual

/-- Reads products joined by `+` and `-`. -/
def readSum (ts : List Token) : Reading (·.length < ts.length) :=
  match readProduct ts with
  | .error fault => .error fault
  | .ok ⟨(left, rest), h⟩ =>
    have h : rest.length < ts.length := h
    match readSumRest left rest with
    | .error fault => .error fault
    | .ok ⟨r, hr⟩ => .ok ⟨r, Nat.lt_of_le_of_lt hr h⟩
termination_by 5 * ts.length + 4

/-- Reads what follows the left side of a sum. -/
def readSumRest (left : Tree) (ts : List Token) : Reading (·.length ≤ ts.length) :=
  match ts with
  | [] => .ok ⟨(left, []), Nat.le_refl _⟩
  | t :: rest =>
    match t.lexeme.additive? with
    | none => .ok ⟨(left, t :: rest), Nat.le_refl _⟩
    | some operator =>
      match readProduct rest with
      | .error fault => .error fault
      | .ok ⟨(right, rest'), h⟩ =>
        have h : rest'.length < rest.length := h
        match readSumRest (binary operator left right) rest' with
        | .error fault => .error fault
        | .ok ⟨r, hr⟩ =>
          have hr : r.2.length ≤ rest'.length := hr
          .ok ⟨r, by simp only [List.length_cons]; omega⟩
termination_by 5 * ts.length + 3

/-- Reads factors joined by `*` and `/`. -/
def readProduct (ts : List Token) : Reading (·.length < ts.length) :=
  match readFactor ts with
  | .error fault => .error fault
  | .ok ⟨(left, rest), h⟩ =>
    have h : rest.length < ts.length := h
    match readProductRest left rest with
    | .error fault => .error fault
    | .ok ⟨r, hr⟩ => .ok ⟨r, Nat.lt_of_le_of_lt hr h⟩
termination_by 5 * ts.length + 2

/-- Reads what follows the left side of a product. -/
def readProductRest (left : Tree) (ts : List Token) : Reading (·.length ≤ ts.length) :=
  match ts with
  | [] => .ok ⟨(left, []), Nat.le_refl _⟩
  | t :: rest =>
    match t.lexeme.multiplicative? with
    | none => .ok ⟨(left, t :: rest), Nat.le_refl _⟩
    | some operator =>
      match readFactor rest with
      | .error fault => .error fault
      | .ok ⟨(right, rest'), h⟩ =>
        have h : rest'.length < rest.length := h
        match readProductRest (binary operator left right) rest' with
        | .error fault => .error fault
        | .ok ⟨r, hr⟩ =>
          have hr : r.2.length ≤ rest'.length := hr
          .ok ⟨r, by simp only [List.length_cons]; omega⟩
termination_by 5 * ts.length + 1

/-- Reads a number, a reference, a sum in parentheses, or a factor with a minus sign. -/
def readFactor (ts : List Token) : Reading (·.length < ts.length) :=
  match ts with
  | [] => .error .exhausted
  | t :: rest =>
    match t.lexeme with
    | .number value => .ok ⟨(number value.toNumber, rest), by simp⟩
    | .field scope name => .ok ⟨(reference ⟨scope, name, some t.position⟩, rest), by simp⟩
    | .leftParen =>
      match readSum rest with
      | .error fault => .error fault
      | .ok ⟨(_, []), _⟩ => .error .exhausted
      | .ok ⟨(inner, u :: rest'), h⟩ =>
        if u.lexeme = .rightParen then
          .ok ⟨(inner, rest'), by simp only [List.length_cons] at h ⊢; omega⟩
        else .error (.expectedParen u)
    | .minus =>
      match readFactor rest with
      | .error fault => .error fault
      | .ok ⟨(operand, rest'), h⟩ =>
        have h : rest'.length < rest.length := h
        .ok ⟨(negate operand, rest'), by simp only [List.length_cons]; omega⟩
    | _ => .error (.unexpectedToken t)
termination_by 5 * ts.length + 0

end

/-- The expression that a whole list of tokens writes. -/
def ofTokens (ts : List Token) : Except SyntaxFault Tree :=
  match readSum ts with
  | .error fault => .error fault
  | .ok ⟨(_, []), _⟩ => .error .exhausted
  | .ok ⟨(tree, t :: _), _⟩ => if t.lexeme = .ending then .ok tree else .error (.afterEnd t)

/-- The expression that a text writes. -/
def ofText (text : String) : Except SyntaxFault Tree := do
  if Text.isAllBlank text then .error .blank
  else ofTokens (← tokens .arithmetic text)

/-- The expression that a value writes, which has to be a text. -/
def ofValue (v : Value) : Except Failure Tree :=
  match v.text? with
  | some text =>
    match ofText text with
    | .ok tree => .ok tree
    | .error fault => .error (.malformed fault)
  | none => .error (.contract ("Expression must be a string, got " ++ v.typeName))

end Tree

end ModelPlaybook.Expression
