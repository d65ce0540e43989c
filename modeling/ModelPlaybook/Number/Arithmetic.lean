import ModelPlaybook.Fault
import ModelPlaybook.Value.Equality

/-!
# Arithmetic on numbers of several kinds

Whole numbers are unbounded.  A double beside a whole number turns it into a double, and the
quotient of two whole numbers is the double nearest to it.  A decimal takes whole numbers as
operands; it meets a double only after `Number.toDecimal` has read the double's text.
-/

namespace ModelPlaybook

namespace Number

/-- The double nearest to a whole number, which has to be in range. -/
def floatOfInt (n : Int) : Except Fault Binary64 :=
  let x := Binary64.ofInt n
  if x.isFinite then .ok x else .error .intTooLarge

/-- The double nearest to the quotient of two whole numbers. -/
def quotient (a b : Int) : Except Fault Binary64 :=
  if b = 0 then .error .divisionByZero
  else
    let x := Binary64.ofQuotient (decide (a < 0) != decide (b < 0)) a.natAbs b.natAbs
    if x.isFinite then .ok x else .error .quotientTooLarge

/-- A number as the decimal that its text writes. -/
def toDecimal : Number → Decimal
  | .int n => .ofInt n
  | .float x => (Decimal.ofText? x.text).getD (.nan false false 0)
  | .decimal d => d

def liftDecimal (r : Except DecimalSignal Decimal) : Except Fault Number :=
  match r with
  | .ok d => .ok (.decimal d)
  | .error s => .error (.ofSignal s)

/-- The fault of an operation on a decimal and a double. -/
def mixedKinds (symbol : String) (x y : Number) : Fault :=
  .unsupported symbol x.toValue.familyName y.toValue.familyName

/-- One operation on numbers: on whole numbers, on doubles, and on decimals. -/
def combine (symbol : String) (onInts : Int → Int → Except Fault Number)
    (onFloats : Binary64 → Binary64 → Except Fault Number)
    (onDecimals : Decimal → Decimal → Except DecimalSignal Decimal) (x y : Number) :
    Except Fault Number :=
  match x, y with
  | .int a, .int b => onInts a b
  | .float a, .float b => onFloats a b
  | .int a, .float b => do onFloats (← floatOfInt a) b
  | .float a, .int b => do onFloats a (← floatOfInt b)
  | .decimal a, .decimal b => liftDecimal (onDecimals a b)
  | .decimal a, .int b => liftDecimal (onDecimals a (.ofInt b))
  | .int a, .decimal b => liftDecimal (onDecimals (.ofInt a) b)
  | .decimal _, .float _ => .error (mixedKinds symbol x y)
  | .float _, .decimal _ => .error (mixedKinds symbol x y)

def add : Number → Number → Except Fault Number :=
  combine "+" (fun a b => .ok (.int (a + b))) (fun a b => .ok (.float (a.add b)))
    standardContext.add

def sub : Number → Number → Except Fault Number :=
  combine "-" (fun a b => .ok (.int (a - b))) (fun a b => .ok (.float (a.sub b)))
    standardContext.sub

def mul : Number → Number → Except Fault Number :=
  combine "*" (fun a b => .ok (.int (a * b))) (fun a b => .ok (.float (a.mul b)))
    standardContext.mul

def floatQuotient (a b : Binary64) : Except Fault Number :=
  if b.isZero then .error ⟨.zeroDivision, "float division by zero"⟩ else .ok (.float (a.div b))

def div : Number → Number → Except Fault Number :=
  combine "/" (fun a b => do pure (.float (← quotient a b))) floatQuotient standardContext.div

/-- The quotient rounded toward minus infinity; that of decimals is cut off toward zero. -/
def floorDiv : Number → Number → Except Fault Number :=
  combine "//"
    (fun a b =>
      if b = 0 then .error ⟨.zeroDivision, "integer division or modulo by zero"⟩
      else .ok (.int (a.fdiv b)))
    (fun a b =>
      if b.isZero then .error ⟨.zeroDivision, "float floor division by zero"⟩
      else .ok (.float (a.floorDivMod b).1))
    standardContext.divInt

/-- The remainder, which has the sign of the divisor; that of decimals has the sign of the
dividend. -/
def modulo : Number → Number → Except Fault Number :=
  combine "%"
    (fun a b =>
      if b = 0 then .error ⟨.zeroDivision, "integer modulo by zero"⟩
      else .ok (.int (a.fmod b)))
    (fun a b =>
      if b.isZero then .error ⟨.zeroDivision, "float modulo"⟩
      else .ok (.float (a.floorDivMod b).2))
    standardContext.rem

/-- The negative of a number; that of a decimal is rounded. -/
def neg : Number → Except Fault Number
  | .int n => .ok (.int (-n))
  | .float x => .ok (.float x.neg)
  | .decimal d => liftDecimal (standardContext.neg d)

/-- Whether a number equals zero; a signaling NaN stops the comparison. -/
def isZero : Number → Except Fault Bool
  | .int n => .ok (n = 0)
  | .float x => .ok x.isZero
  | .decimal d => if d.isSignaling then .error (.ofSignal .invalidOperation) else .ok d.isZero

end Number

end ModelPlaybook
