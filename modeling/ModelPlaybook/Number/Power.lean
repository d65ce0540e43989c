import ModelPlaybook.Number.Arithmetic
import ModelPlaybook.Number.DecimalPower

/-!
# Powers

A whole number to a whole power that is not negative is exact; a negative power gives a double.
Powers of doubles follow the usual limits at zero, one and infinity.  The power of a negative
number with a fraction in the exponent is no real number.
-/

namespace ModelPlaybook

namespace Binary64

/-- Whether a double is a whole number. -/
def isWhole (x : Binary64) : Bool :=
  match x.toWhole? .floor, x.toWhole? .ceiling with
  | some n, some m => n == m
  | _, _ => false

/-- Whether a double is an odd whole number. -/
def isOdd (x : Binary64) : Bool :=
  x.isWhole && (x.toWhole? .floor).any (fun n => n % 2 ≠ 0)

def one : Binary64 := ofInt 1

end Binary64

/-- The outcome of a power: a double, or a number that is not real. -/
inductive PowerResult where
  | real (x : Binary64)
  | complex
deriving DecidableEq, Repr

namespace Number

def zeroToNegative : Fault :=
  ⟨.zeroDivision, "0.0 cannot be raised to a negative power"⟩

def powerOutOfRange : Fault :=
  ⟨.overflow, "(34, 'Numerical result out of range')"⟩

/-- A double to the power of a double. -/
def floatPower (x y : Binary64) : Except Fault PowerResult :=
  let real (r : Binary64) : Except Fault PowerResult := .ok (.real r)
  if y.isZero then real .one
  else if x.isNaN then real .nan
  else if y.isNaN then real (if x = .one then .one else .nan)
  else if !y.isFinite then
    match x.abs.compare? .one with
    | some .eq => real .one
    | some o =>
      if (o == .gt) == !y.isNegative then real (.infinite false) else real (.signedZero false)
    | none => real .nan
  else if !x.isFinite then
    if y.isNegative then real (.signedZero (y.isOdd && x.isNegative))
    else real (if y.isOdd then x else x.abs)
  else if x.isZero then
    if y.isNegative then .error zeroToNegative
    else real (if y.isOdd then x else .signedZero false)
  else if x.isNegative && !y.isWhole then .ok .complex
  else
    let negative := x.isNegative && y.isOdd
    let r := if x.abs = .one then .one else Binary64.ofFloat (x.abs.toFloat ^ y.toFloat)
    if r.isFinite then real (if negative then r.neg else r) else .error powerOutOfRange

/-- What a power of numbers is. -/
inductive Power where
  | number (x : Number)
  | complex
deriving DecidableEq, Repr

def ofPowerResult : PowerResult → Power
  | .real x => .number (.float x)
  | .complex => .complex

/-- The greatest number of binary digits that a whole number may grow to. -/
def digitLimit : Nat := 2 ^ (28 : Nat)

def tooManyDigits : Fault := ⟨.overflow, "too many digits in integer"⟩

/-- A whole number to the power of a natural one, unless that has too many digits. -/
def wholePower (a : Int) (n : Nat) : Except Fault Int :=
  if a.natAbs ≤ 1 then .ok (a ^ (n % 2 + if n = 0 then 0 else 2))
  else if digitLimit < (a.natAbs.log2 + 1) * n then .error tooManyDigits
  else .ok (a ^ n)

/-- A number to the power of another one. -/
def power (x y : Number) : Except Fault Power :=
  match x, y with
  | .int a, .int b =>
    if 0 ≤ b then do pure (.number (.int (← wholePower a b.toNat)))
    else do pure (ofPowerResult (← floatPower (← floatOfInt a) (← floatOfInt b)))
  | .int a, .float b => do pure (ofPowerResult (← floatPower (← floatOfInt a) b))
  | .float a, .int b => do pure (ofPowerResult (← floatPower a (← floatOfInt b)))
  | .float a, .float b => do pure (ofPowerResult (← floatPower a b))
  | x, y => do
    pure (.number (← combine "** or pow()" (fun a _ => .ok (.int a)) (fun a _ => .ok (.float a))
      standardContext.pow x y))

end Number

end ModelPlaybook
