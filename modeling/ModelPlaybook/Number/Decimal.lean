import ModelPlaybook.Number.Binary64
import ModelPlaybook.Text.Digits

/-!
# Decimal numbers

Decimal arithmetic with a precision: a finite decimal is a signed coefficient times a power of ten
and keeps the zeros at its end.  An operation forms the exact result and `DecimalContext.finish`
rounds it to the precision and the exponent range of the context.  Three conditions stop a
computation (`DecimalSignal`): overflow, division by zero, and an invalid operation.
-/

namespace ModelPlaybook

inductive Decimal where
  | finite (negative : Bool) (coefficient : Nat) (exponent : Int)
  | infinite (negative : Bool)
  /-- Not a number; a signaling one stops every operation.  A zero payload is not written. -/
  | nan (negative signaling : Bool) (payload : Nat) (origin : Origin := .computed)
deriving DecidableEq, Repr, Inhabited

/-- Why a decimal computation stops. -/
inductive DecimalSignal where
  | overflow
  | divisionByZero
  | invalidOperation
  /-- A text that is no decimal number. -/
  | conversionSyntax
  /-- Zero divided by zero. -/
  | divisionUndefined
  /-- A whole quotient with more digits than the precision. -/
  | divisionImpossible
deriving DecidableEq, Repr, Inhabited

/-- Precision in digits, the range of adjusted exponents, and the rounding mode. -/
structure DecimalContext where
  precision : Nat
  maxAdjusted : Int
  minAdjusted : Int
  rounding : Rounding
deriving Repr

/-- Twenty-eight digits, ties to even, exponents up to a million. -/
def standardContext : DecimalContext where
  precision := 28
  maxAdjusted := 999999
  minAdjusted := -999999
  rounding := .halfEven

namespace Decimal

/-- The largest exponent of a leading digit that a decimal can have, and its largest precision. -/
def exponentLimit : Int := 999999999999999999

def zero : Decimal := finite false 0 0

def one : Decimal := finite false 1 0

def ofInt (n : Int) : Decimal :=
  finite (n < 0) n.natAbs 0

/-- Halves an even mantissa as long as its exponent is negative. -/
def reduceFraction : Nat → Nat → Nat → Nat × Nat
  | 0, m, k => (m, k)
  | fuel + 1, m, k =>
    if k ≠ 0 ∧ m % 2 = 0 then reduceFraction fuel (m / 2) (k - 1) else (m, k)

/-- The decimal that equals a double exactly. -/
def ofBinary64 : Binary64 → Decimal
  | .nan _ => nan false false 0
  | .infinite negative => infinite negative
  | .finite negative m e =>
    if 0 ≤ e then finite negative (m * 2 ^ e.toNat) 0
    else if m = 0 then finite negative 0 0
    else
      let (m, k) := reduceFraction (-e).toNat m (-e).toNat
      finite negative (m * 5 ^ k) (-(k : Int))

def isFinite : Decimal → Bool
  | finite .. => true
  | _ => false

def isNaN : Decimal → Bool
  | nan .. => true
  | _ => false

def isSignaling : Decimal → Bool
  | nan _ signaling _ _ => signaling
  | _ => false

def isZero : Decimal → Bool
  | finite _ 0 _ => true
  | _ => false

def isNegative : Decimal → Bool
  | finite negative _ _ => negative
  | infinite negative => negative
  | nan negative _ _ _ => negative

def withSign (negative : Bool) : Decimal → Decimal
  | finite _ c e => finite negative c e
  | infinite _ => infinite negative
  | nan _ signaling payload _ => nan negative signaling payload

/-- The exponent of the leading digit. -/
def adjusted (coefficient : Nat) (exponent : Int) : Int :=
  exponent + (Text.decimalLog coefficient : Int)

/-- The coefficient under its sign. -/
def signedCoefficient (negative : Bool) (coefficient : Nat) : Int :=
  if negative then -(coefficient : Int) else coefficient

/-- The order of two positive magnitudes `c * 10 ^ e` and `d * 10 ^ f`: the leading digits decide
unless they stand at the same power of ten. -/
def compareMagnitude (c : Nat) (e : Int) (d : Nat) (f : Int) : Ordering :=
  if c = 0 ∨ d = 0 then compare c d
  else
    match compare (adjusted c e) (adjusted d f) with
    | .eq =>
      let least := min e f
      compare (c * 10 ^ (e - least).toNat) (d * 10 ^ (f - least).toNat)
    | decided => decided

/-- The order of two decimals by value; a NaN has none. -/
def compare? : Decimal → Decimal → Option Ordering
  | nan .., _ | _, nan .. => none
  | infinite a, infinite b => some (if a = b then .eq else if a then .lt else .gt)
  | infinite a, finite .. => some (if a then .lt else .gt)
  | finite .., infinite b => some (if b then .gt else .lt)
  | finite a c e, finite b d f =>
    if c = 0 ∧ d = 0 then some .eq
    else if c = 0 then some (if b then .gt else .lt)
    else if d = 0 then some (if a then .lt else .gt)
    else if a ≠ b then some (if a then .lt else .gt)
    else if a then some (compareMagnitude d f c e)
    else some (compareMagnitude c e d f)

/-- A finite decimal as a whole number, rounded in the given mode. -/
def toWhole? (mode : Rounding) : Decimal → Option Int
  | finite negative c e =>
    some (signedCoefficient negative
      (mode.divide negative (c * 10 ^ e.toNat) (10 ^ (-e).toNat)))
  | _ => none

/-- The double nearest to a finite decimal.  An exponent far outside the range of doubles is
answered without computing its power. -/
def toBinary64 : Decimal → Binary64
  | nan .. => .nan
  | infinite negative => .infinite negative
  | finite negative c e =>
    if c = 0 ∨ adjusted c e < -400 then .signedZero negative
    else if 400 < adjusted c e then .infinite negative
    else .ofQuotient negative (c * 10 ^ e.toNat) (10 ^ (-e).toNat)

end Decimal

namespace DecimalContext

open Decimal

/-- The least exponent of a result. -/
def leastExponent (ctx : DecimalContext) : Int :=
  ctx.minAdjusted - ((ctx.precision : Int) - 1)

/-- Moves a coefficient to another exponent; digits that are cut off are rounded away. -/
def rescale (mode : Rounding) (negative : Bool) (c : Nat) (e target : Int) : Nat :=
  if c = 0 then 0
  else if target ≤ e then c * 10 ^ (e - target).toNat
  else if Text.digitCount c < (target - e).toNat then mode.divide negative 1 100
  else mode.divide negative c (10 ^ (target - e).toNat)

/-- The result `± c * 10 ^ e`, rounded to the precision and not below the least exponent. -/
def finish (ctx : DecimalContext) (negative : Bool) (c : Nat) (e : Int) :
    Except DecimalSignal Decimal :=
  if c = 0 then
    .ok (finite negative 0 (max ctx.leastExponent (min e ctx.maxAdjusted)))
  else
    let target := max (adjusted c e - (ctx.precision : Int) + 1) ctx.leastExponent
    if e < target then
      let rounded := rescale ctx.rounding negative c e target
      let (c, e) :=
        if rounded = 10 ^ ctx.precision then (rounded / 10, target + 1) else (rounded, target)
      if c ≠ 0 ∧ ctx.maxAdjusted < adjusted c e then .error .overflow
      else .ok (finite negative c e)
    else if ctx.maxAdjusted < adjusted c e then .error .overflow
    else .ok (finite negative c e)

/-- The NaN that an operation on a NaN gives; a signaling one stops it. -/
def nanResult? (ctx : DecimalContext) (x y : Decimal) : Option (Except DecimalSignal Decimal) :=
  let quiet : Decimal → Option (Except DecimalSignal Decimal)
    | nan negative _ payload _ => some (.ok (nan negative false (payload % 10 ^ ctx.precision)))
    | _ => none
  if x.isSignaling || y.isSignaling then some (.error .invalidOperation)
  else (quiet x).or (quiet y)

/-- The sum of two finite nonzero decimals.  An operand too small to reach the last digit that
matters is replaced by a unit just below it, which rounds the same way. -/
def addFinite (ctx : DecimalContext) (a : Bool) (c : Nat) (e : Int) (b : Bool) (d : Nat) (f : Int) :
    Except DecimalSignal Decimal :=
  let least := min e f
  let limit (c : Nat) (e : Int) : Int :=
    min (e - 1) (adjusted c e - ctx.precision - 1)
  if f ≤ e ∧ adjusted d f < limit c e then
    let least := limit c e
    settle least (signedCoefficient a (c * 10 ^ (e - least).toNat) + signedCoefficient b 1)
  else if e < f ∧ adjusted c e < limit d f then
    let least := limit d f
    settle least (signedCoefficient a 1 + signedCoefficient b (d * 10 ^ (f - least).toNat))
  else
    settle least (signedCoefficient a (c * 10 ^ (e - least).toNat) +
      signedCoefficient b (d * 10 ^ (f - least).toNat))
where
  settle (e : Int) (n : Int) : Except DecimalSignal Decimal :=
    ctx.finish (n < 0) n.natAbs e

def add (ctx : DecimalContext) (x y : Decimal) : Except DecimalSignal Decimal :=
  match ctx.nanResult? x y with
  | some r => r
  | none =>
    match x, y with
    | infinite a, infinite b => if a = b then .ok (infinite a) else .error .invalidOperation
    | infinite a, _ => .ok (infinite a)
    | _, infinite b => .ok (infinite b)
    | finite a c e, finite b d f =>
      let least := min e f
      if c = 0 ∧ d = 0 then ctx.finish (a && b) 0 least
      else if c = 0 then
        ctx.finish b (d * 10 ^ (f - max least (f - ctx.precision - 1)).toNat)
          (max least (f - ctx.precision - 1))
      else if d = 0 then
        ctx.finish a (c * 10 ^ (e - max least (e - ctx.precision - 1)).toNat)
          (max least (e - ctx.precision - 1))
      else ctx.addFinite a c e b d f
    | nan n s p _, _ | _, nan n s p _ => .ok (nan n s p)

/-- The negative of a decimal as an operation: it rounds, and a zero comes out positive. -/
def neg (ctx : DecimalContext) (x : Decimal) : Except DecimalSignal Decimal :=
  match ctx.nanResult? x x with
  | some r => r
  | none =>
    match x with
    | finite negative c e => ctx.finish (c ≠ 0 && !negative) c e
    | infinite negative => .ok (infinite (!negative))
    | nan n s p _ => .ok (nan n s p)

/-- A decimal rounded to the context; a zero comes out positive. -/
def plus (ctx : DecimalContext) (x : Decimal) : Except DecimalSignal Decimal :=
  match ctx.nanResult? x x with
  | some r => r
  | none =>
    match x with
    | finite negative c e => ctx.finish (c ≠ 0 && negative) c e
    | infinite negative => .ok (infinite negative)
    | nan n s p _ => .ok (nan n s p)

def abs (ctx : DecimalContext) (x : Decimal) : Except DecimalSignal Decimal :=
  if x.isNegative then ctx.neg x else ctx.plus x

def sub (ctx : DecimalContext) (x y : Decimal) : Except DecimalSignal Decimal :=
  match ctx.nanResult? x y with
  | some r => r
  | none => ctx.add x (y.withSign (!y.isNegative))

def mul (ctx : DecimalContext) (x y : Decimal) : Except DecimalSignal Decimal :=
  match ctx.nanResult? x y with
  | some r => r
  | none =>
    let negative := x.isNegative != y.isNegative
    match x, y with
    | finite _ c e, finite _ d f => ctx.finish negative (c * d) (e + f)
    | _, _ =>
      if x.isZero || y.isZero then .error .invalidOperation else .ok (infinite negative)

/-- Drops zeros at the end of a coefficient as long as the exponent is below the ideal one. -/
def towardIdeal : Nat → Nat → Int → Int → Nat × Int
  | 0, c, e, _ => (c, e)
  | fuel + 1, c, e, ideal =>
    if e < ideal ∧ c % 10 = 0 then towardIdeal fuel (c / 10) (e + 1) ideal else (c, e)

/-- The quotient of two finite nonzero decimals: one digit more than the precision, the last digit
made odd where a remainder is left so that no false tie arises. -/
def divFinite (ctx : DecimalContext) (negative : Bool) (c : Nat) (e : Int) (d : Nat) (f : Int) :
    Except DecimalSignal Decimal :=
  let shift : Int := (Text.digitCount d : Int) - Text.digitCount c + ctx.precision + 1
  let dividend := c * 10 ^ shift.toNat
  let divisor := d * 10 ^ (-shift).toNat
  let quotient := dividend / divisor
  let exponent := e - f - shift
  if dividend % divisor = 0 then
    let (quotient, exponent) :=
      towardIdeal (ctx.precision + 2 + shift.toNat) quotient exponent (e - f)
    ctx.finish negative quotient exponent
  else
    ctx.finish negative (if quotient % 5 = 0 then quotient + 1 else quotient) exponent

def div (ctx : DecimalContext) (x y : Decimal) : Except DecimalSignal Decimal :=
  match ctx.nanResult? x y with
  | some r => r
  | none =>
    let negative := x.isNegative != y.isNegative
    match x, y with
    | infinite _, infinite _ => .error .invalidOperation
    | infinite _, _ => .ok (infinite negative)
    | _, infinite _ => .ok (finite negative 0 ctx.leastExponent)
    | finite _ c e, finite _ d f =>
      if d = 0 then .error (if c = 0 then .divisionUndefined else .divisionByZero)
      else if c = 0 then ctx.finish negative 0 (e - f)
      else ctx.divFinite negative c e d f
    | nan n s p _, _ | _, nan n s p _ => .ok (nan n s p)

/-- The whole quotient cut off toward zero and what is left, of two finite decimals with a nonzero
divisor.  A quotient longer than the precision is refused. -/
def divideWhole (ctx : DecimalContext) (a : Bool) (c : Nat) (e : Int) (b : Bool) (d : Nat)
    (f : Int) : Except DecimalSignal (Decimal × Decimal) :=
  let negative := a != b
  let least := min e f
  let difference := adjusted c e - adjusted d f
  if c = 0 ∨ difference ≤ -2 then
    .ok (finite negative 0 0, finite a (rescale ctx.rounding a c e least) least)
  else if difference ≤ ctx.precision then
    let dividend := c * 10 ^ (e - least).toNat
    let divisor := d * 10 ^ (f - least).toNat
    let quotient := dividend / divisor
    if quotient < 10 ^ ctx.precision then
      .ok (finite negative quotient 0, finite a (dividend % divisor) least)
    else .error .divisionImpossible
  else .error .divisionImpossible

/-- Whole-number division, toward zero. -/
def divInt (ctx : DecimalContext) (x y : Decimal) : Except DecimalSignal Decimal :=
  match ctx.nanResult? x y with
  | some r => r
  | none =>
    match x, y with
    | infinite _, infinite _ => .error .invalidOperation
    | infinite a, _ => .ok (infinite (a != y.isNegative))
    | finite a _ _, infinite b => .ok (finite (a != b) 0 0)
    | finite a c e, finite b d f =>
      if d = 0 then .error (if c = 0 then .divisionUndefined else .divisionByZero)
      else do
        let (quotient, _) ← ctx.divideWhole a c e b d f
        pure quotient
    | nan n s p _, _ | _, nan n s p _ => .ok (nan n s p)

/-- What whole-number division leaves; it has the sign of the dividend. -/
def rem (ctx : DecimalContext) (x y : Decimal) : Except DecimalSignal Decimal :=
  match ctx.nanResult? x y with
  | some r => r
  | none =>
    match x, y with
    | infinite _, _ => .error .invalidOperation
    | finite a c e, infinite _ => ctx.finish a c e
    | finite a c e, finite b d f =>
      if d = 0 then .error (if c = 0 then .divisionUndefined else .invalidOperation)
      else do
        match ← ctx.divideWhole a c e b d f with
        | (_, finite n r least) => ctx.finish n r least
        | (_, other) => pure other
    | nan n s p _, _ | _, nan n s p _ => .ok (nan n s p)

/-- A decimal moved to the exponent of another one, rounded in the given mode; refused when the
result does not fit the precision. -/
def quantize (ctx : DecimalContext) (mode : Rounding) (x unit : Decimal) :
    Except DecimalSignal Decimal :=
  match ctx.nanResult? x unit with
  | some r => r
  | none =>
    match x, unit with
    | infinite a, infinite _ => .ok (infinite a)
    | finite a c e, finite _ _ f =>
      if f < ctx.leastExponent ∨ ctx.maxAdjusted < f then .error .invalidOperation
      else if c = 0 then ctx.finish a 0 f
      else if ctx.maxAdjusted < adjusted c e ∨ (ctx.precision : Int) < adjusted c e - f + 1 then
        .error .invalidOperation
      else
        let moved := rescale mode a c e f
        if 10 ^ ctx.precision ≤ moved ∨ (moved ≠ 0 ∧ ctx.maxAdjusted < adjusted moved f) then
          .error .invalidOperation
        else ctx.finish a moved f
    | _, _ => .error .invalidOperation

end DecimalContext

end ModelPlaybook
