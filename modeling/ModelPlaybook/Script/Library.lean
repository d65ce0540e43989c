import ModelPlaybook.Script.Construction
import ModelPlaybook.Script.Json

/-!
# Libraries

The functions on doubles, JSON, and the clocks that scripts can reach by a dot.
-/

namespace ModelPlaybook.Script

namespace Library

/-- The names of the library of functions on doubles. -/
def mathNames : List String := [
  "acos", "acosh", "asin", "asinh", "atan", "atan2", "atanh", "cbrt", "ceil", "comb", "copysign",
  "cos", "cosh", "degrees", "dist", "e", "erf", "erfc", "exp", "exp2", "expm1", "fabs", "factorial",
  "floor", "fmod", "frexp", "fsum", "gamma", "gcd", "hypot", "inf", "isclose", "isfinite", "isinf",
  "isnan", "isqrt", "lcm", "ldexp", "lgamma", "log", "log10", "log1p", "log2", "modf", "nan",
  "nextafter", "perm", "pi", "pow", "prod", "radians", "remainder", "sin", "sinh", "sqrt", "tan",
  "tanh", "tau", "trunc", "ulp"]

/-- The circumference of a circle of diameter one. -/
def circle : Binary64 :=
  .finite false 0x1921FB54442D18 (-51)

/-- The numbers of the library. -/
def mathNumbers : List (String × Binary64) := [
  ("e", .finite false 0x15BF0A8B145769 (-51)), ("inf", .infinite false), ("nan", .nan .library),
  ("pi", circle), ("tau", circle.add circle)]

/-- The functions that take a double to a double. -/
def realFunctions : List (String × (Float → Float)) := [
  ("acos", Float.acos), ("acosh", Float.acosh), ("asin", Float.asin), ("asinh", Float.asinh),
  ("atan", Float.atan), ("atanh", Float.atanh), ("cbrt", Float.cbrt), ("cos", Float.cos),
  ("cosh", Float.cosh), ("exp", Float.exp), ("exp2", Float.exp2), ("fabs", Float.abs),
  ("log10", Float.log10), ("log2", Float.log2), ("sin", Float.sin), ("sinh", Float.sinh),
  ("sqrt", Float.sqrt), ("tan", Float.tan), ("tanh", Float.tanh)]

/-- The functions that take two doubles to a double. -/
def realFunctions2 : List (String × (Float → Float → Float)) :=
  [("atan2", Float.atan2), ("pow", Float.pow)]

/-- The questions about a double. -/
def realQuestions : List (String × (Binary64 → Bool)) := [
  ("isfinite", Binary64.isFinite), ("isinf", fun x => !x.isFinite && !x.isNaN),
  ("isnan", Binary64.isNaN)]

/-- The ways of dropping a fraction. -/
def cuts : List (String × Rounding) :=
  [("ceil", .ceiling), ("floor", .floor), ("trunc", .down)]

/-- The functions that are known. -/
def mathFunctions : List String :=
  realFunctions.map (·.1) ++ realFunctions2.map (·.1) ++ realQuestions.map (·.1) ++
    cuts.map (·.1) ++ ["copysign", "factorial", "fmod", "gcd", "log"]

/-- What a library has under a name. -/
def member? (l : Library) (name : String) : Option Object :=
  match l with
  | .math =>
    match mathNumbers.lookup name with
    | some x => some (.scalar (.float x) .library)
    | none => if mathFunctions.contains name then some (.member .math name) else none
  | .json => if ["dumps", "loads"].contains name then some (.member .json name) else none
  | .time => if ["monotonic", "time"].contains name then some (.member .time name) else none

/-! ## Doubles -/

/-- The double that an argument has to be. -/
def real (o : Object) : Run Binary64 := do
  match o with
  | .scalar (.text _) _ => refused
  | .scalar (.none) _ => refused
  | .scalar (.date _) _ => refused
  | .scalar (.dateTime _) _ => refused
  | .scalar (.duration _) _ => refused
  | .scalar _ _ => o.toFloat
  | _ => refused
where
  refused : Run Binary64 := do
    Run.raiseType ("must be real number, not " ++ (← o.familyName))

/-- The result of a function on doubles: one that is no number, or infinite, without an argument
being so is an error. -/
def checkReal (arguments : List Binary64) (x : Float) : Run Object :=
  let r := Binary64.ofFloat x
  if r.isNaN && arguments.all (!·.isNaN) then Run.raiseValue "math domain error"
  else if !r.isFinite && !r.isNaN && arguments.all (·.isFinite) then
    Run.raiseFault ⟨.overflow, "math range error"⟩
  else pure (.float r)

/-- A whole number from a number. -/
def cut (name : String) (mode : Rounding) (o : Object) : Run Object := do
  match o with
  | .scalar (.float x) _ => pure (.int (← Object.cutFloat mode x))
  | .scalar (.decimal d) _ => pure (.int (← Object.cutDecimal mode d))
  | o =>
    match o.index? with
    | some n => pure (.int n)
    | none =>
      if mode = .down then
        Run.raiseType ("type " ++ (← o.familyName) ++ " doesn't define __" ++ name ++ "__ method")
      else do pure (.float (← real o))

/-- A logarithm, natural or to a base. -/
def logarithm (arguments : List Object) : Run Object := do
  let one (o : Object) : Run Binary64 := do
    let x ← real o
    if x.isZero || (x.isNegative && !x.isNaN) then Run.raiseValue "math domain error"
    else pure (.ofFloat x.toFloat.log)
  match arguments with
  | x :: base :: _ =>
    let a ← one x
    let b ← one base
    if b.isZero then Run.raiseFault ⟨.zeroDivision, "float division by zero"⟩
    else pure (.float (a.div b))
  | [x] => do pure (.float (← one x))
  | [] => pure .nothing

/-- The product of the whole numbers up to one. -/
def factorial (n : Nat) : Nat :=
  (List.range n).foldl (fun acc i => acc * (i + 1)) 1

def callMath (name : String) (g : Given) : Run Object := do
  let called := "math." ++ name
  match realFunctions.lookup name, realFunctions2.lookup name, realQuestions.lookup name,
      cuts.lookup name with
  | some f, _, _, _ =>
    let x ← real (← g.single called)
    if name.startsWith "log" && x.isZero then Run.raiseValue "math domain error"
    else checkReal [x] (f x.toFloat)
  | _, some f, _, _ =>
    match ← g.severalOf "math" name 2 2 with
    | x :: y :: _ =>
      let a ← real x
      let b ← real y
      if name = "pow" && a.isZero && b.isNegative && b.isFinite then
        Run.raiseValue "math domain error"
      else checkReal [a, b] (f a.toFloat b.toFloat)
    | _ => pure .nothing
  | _, _, some f, _ => do pure (.bool (f (← real (← g.single called))))
  | _, _, _, some mode => cut name mode (← g.single called)
  | none, none, none, none =>
    match name with
    | "log" => logarithm (← g.severalOf "math" "log" 1 2)
    | "factorial" =>
      let n ← (← g.single called).whole
      if n < 0 then Run.raiseValue "factorial() not defined for negative values"
      else pure (.int (factorial n.toNat))
    | "gcd" =>
      g.ensureUnnamed called
      let numbers ← g.positional.mapM (·.whole)
      let divisor : Nat := numbers.foldl (fun acc n => acc.gcd n.natAbs) 0
      pure (.int divisor)
    | _ =>
      match ← g.severalOf "math" name 2 2 with
      | x :: y :: _ =>
        let a ← real x
        let b ← real y
        if name = "copysign" then pure (.float (a.withSignOf b))
        else if a.isFinite && !b.isZero then pure (.float (a.cutRemainder b))
        else checkReal [a, b] (0 / 0)
      | _ => pure .nothing

/-! ## All libraries -/

/-- What a function of a library gives.  Clocks stand still. -/
def call (ev : Evaluator) (l : Library) (name : String) (g : Given) : Run Object :=
  match l with
  | .math => callMath name g
  | .json => if name = "dumps" then Json.dumps ev g else Json.loads ev g
  | .time => pure (.float (.ofInt 0))

end Library

end ModelPlaybook.Script
