import ModelPlaybook.Expression.Tree
import ModelPlaybook.Number.Arithmetic

/-!
# The value of an expression

An expression is computed from the intake values and from the outputs of earlier steps.  Whole
numbers stay exact, division gives a double, and a decimal on either side of an operator makes the
operation a decimal one.  A field must hold a finite number, and every operation must have a finite
result.
-/

namespace ModelPlaybook.Expression

/-- What references can look at: the intake values, and the outputs of each step by its id. -/
structure Environment where
  intake : Entries
  outputs : List (String × Entries)

/-- A text before and after its first point. -/
def splitAtPoint (s : String) : String × String :=
  let before := s.toList.takeWhile (· ≠ '.')
  (String.ofList before, String.ofList (s.toList.drop (before.length + 1)))

namespace Environment

/-- The outputs of a step that has published some. -/
def stepOutputs? (env : Environment) (step : String) : Option Entries :=
  (env.outputs.find? (·.1 == step)).map (·.2)

/-- The value a reference points at. -/
def lookup? (env : Environment) (r : Reference) : Option Value :=
  match r.scope with
  | .intake => env.intake.get? r.name
  | .steps =>
    let (step, output) := splitAtPoint r.name
    (env.stepOutputs? step).bind (Entries.get? · output)
  | .other _ => none

def lookup (env : Environment) (r : Reference) : Except Failure Value :=
  match env.lookup? r with
  | some v => .ok v
  | none => .error (.unknownField r.path r.position)

end Environment

/-- The number a value is, unless it is a truth value or a decimal that is not finite. -/
def numeric? (v : Value) : Option Number :=
  match v with
  | .int n => some (.int n)
  | .float x => some (.float x)
  | .decimal d => if d.isFinite then some (.decimal d) else none
  | _ => none

/-- The finite number a value is. -/
def finiteNumber? (v : Value) : Option Number :=
  (numeric? v).filter (·.isFinite)

/-- A number as an operand beside another one: beside a decimal it becomes a decimal. -/
def operandBeside (other x : Number) : Number :=
  if x.isDecimal || other.isDecimal then .decimal x.toDecimal else x

/-- A result, or the fault of its computation as an error of the expression. -/
def computed {α : Type} (r : Except Fault α) : Except Failure α :=
  match r with
  | .ok a => .ok a
  | .error fault => .error (.evaluation (.notComputable fault))

/-- Applies an operator to two numbers of which both or none are decimals. -/
def Operator.compute (operator : Operator) (x y : Number) : Except Failure Number :=
  match operator with
  | .plus => computed (x.add y)
  | .minus => computed (x.sub y)
  | .times => computed (x.mul y)
  | .divide => do
    if ← computed y.isZero then .error (.evaluation .divisionByZero) else computed (x.div y)
  | .other symbol => .error (.evaluation (.unknownOperator symbol))

def Operator.apply (operator : Operator) (x y : Number) : Except Failure Number := do
  let result ← operator.compute (operandBeside y x) (operandBeside x y)
  if result.isFinite then pure result else .error (.evaluation .nonFiniteResult)

namespace Tree

/-- The value of an expression. -/
def evaluate (env : Environment) : Tree → Except Failure Number
  | number value => .ok value
  | reference target => do
    let v ← env.lookup target
    match finiteNumber? v with
    | some x => pure x
    | none => .error (.evaluation (.notFinite target.path v.typeName))
  | negate operand => do
    match (← operand.evaluate env).neg with
    | .ok x => pure x
    | .error fault => .error (.fault fault)
  | binary operator left right => do
    let x ← left.evaluate env
    let y ← right.evaluate env
    operator.apply x y
  | misplaced typeName => .error (.contract ("Not an expression node: " ++ typeName))

end Tree

/-- The value of the expression that a value writes. -/
def evaluate (env : Environment) (expression : Value) : Except Failure Number := do
  (← Tree.ofValue expression).evaluate env

end ModelPlaybook.Expression
