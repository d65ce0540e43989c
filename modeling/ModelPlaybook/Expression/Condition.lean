import ModelPlaybook.Expression.Evaluation

/-!
# Conditions

A condition is one comparison of numbers and field references, a truth value, or the text `true` or
`false`.  Comparison is strict: two numbers compare by value, other values are equal only to values
of their own type, and only numbers have an order.
-/

namespace ModelPlaybook.Expression

/-- One side of a comparison. -/
inductive Operand where
  | number (value : Number)
  | reference (target : Reference)
deriving DecidableEq, Repr, Inhabited

structure Condition where
  left : Operand
  comparator : Comparator
  right : Operand
deriving DecidableEq, Repr, Inhabited

def Literal.negated : Literal → Number
  | int n => .int (-(n : Int))
  | float x => .float x.neg

/-- Reads a number, which may have a minus sign, or a reference. -/
def Operand.ofTokens (text : String) (ts : List Token) :
    Except SyntaxFault (Operand × List Token) :=
  match ts with
  | [] => .error .exhausted
  | t :: rest =>
    match t.lexeme with
    | .number value => .ok (.number value.toNumber, rest)
    | .field scope name => .ok (.reference ⟨scope, name, some t.position⟩, rest)
    | .minus =>
      match rest with
      | [] => .error .exhausted
      | u :: rest =>
        match u.lexeme with
        | .number value => .ok (.number value.negated, rest)
        | _ => .error (.unsupportedCondition text u)
    | _ => .error (.unsupportedCondition text t)

namespace Condition

/-- The comparison that a whole list of tokens writes. -/
def ofTokens (text : String) (ts : List Token) : Except SyntaxFault Condition := do
  let (left, ts) ← Operand.ofTokens text ts
  match ts with
  | [] => .error .exhausted
  | t :: ts =>
    match t.lexeme with
    | .comparator c =>
      let (right, ts) ← Operand.ofTokens text ts
      match ts with
      | [] => .error .exhausted
      | u :: _ =>
        if u.lexeme = .ending then pure ⟨left, c, right⟩
        else .error (.unsupportedCondition text u)
    | _ => .error (.unsupportedCondition text t)

def ofText (text : String) : Except SyntaxFault Condition := do
  ofTokens text (← tokens .condition text)

/-- The operands of a condition that are references. -/
def references (c : Condition) : List Reference :=
  [c.left, c.right].filterMap fun
    | .number _ => none
    | .reference target => some target

end Condition

/-- A fault that no rule of the language turns into an error of its own. -/
def escaping {α : Type} (r : Except Fault α) : Except Failure α :=
  match r with
  | .ok a => .ok a
  | .error fault => .error (.fault fault)

/-- Compares two values strictly. -/
def compareStrictly (c : Comparator) (x y : Value) : Except Failure Bool :=
  match numeric? x, numeric? y with
  | some m, some n => escaping (liftSignal (m.holds c n))
  | _, _ =>
    if c.isEquality then do
      let same ← if x.kind = y.kind then escaping (x.equals y) else pure false
      pure (same == (c == .equal))
    else .error (.evaluation (.notComparable c.symbol x.typeName y.typeName))

/-- Compares two values by a symbol, which is looked up only for numbers and for equality. -/
def compareBySymbol (symbol : String) (x y : Value) : Except Failure Bool :=
  match Comparator.ofSymbol? symbol with
  | some c => compareStrictly c x y
  | none =>
    match numeric? x, numeric? y with
    | some _, some _ => .error (.fault ⟨.key, Text.quoted symbol⟩)
    | _, _ => .error (.evaluation (.notComparable symbol x.typeName y.typeName))

def Operand.value (env : Environment) : Operand → Except Failure Value
  | number n => .ok n.toValue
  | reference target => env.lookup target

def Condition.evaluate (env : Environment) (c : Condition) : Except Failure Bool := do
  let x ← c.left.value env
  let y ← c.right.value env
  compareStrictly c.comparator x y

/-- Whether a step with the given condition is to run. -/
def holds (env : Environment) (condition : Value) : Except Failure Bool :=
  match condition with
  | .bool b => .ok b
  | .text s =>
    let trimmed := Text.trim s
    if trimmed = "true" then .ok true
    else if trimmed = "false" then .ok false
    else
      match Condition.ofText s with
      | .ok c => c.evaluate env
      | .error fault => .error (.malformed fault)
  | v => .error (.malformed (.conditionKind v.typeName))

end ModelPlaybook.Expression
