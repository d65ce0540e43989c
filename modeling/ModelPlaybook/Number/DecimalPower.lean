import ModelPlaybook.Number.Decimal

/-!
# Powers of decimals

A whole power is formed by repeated squaring with a few digits more than the precision and rounded
once at the end.  A fractional power goes through fixed-point logarithm and exponential series with
enough guard digits to round correctly in all but astronomically rare cases.  Powers that leave
every range are recognised from the size of the logarithm alone.
-/

namespace ModelPlaybook

namespace DecimalPower

open Decimal

/-- Whether a finite decimal is a whole number. -/
def isWhole (c : Nat) (e : Int) : Bool :=
  0 ≤ e || c = 0 || ((-e).toNat < Text.digitCount c && c % 10 ^ (-e).toNat = 0)

/-- Whether a finite decimal is an odd whole number. -/
def isOdd (c : Nat) (e : Int) : Bool :=
  isWhole c e && e ≤ 0 && c / 10 ^ (min (-e).toNat (Text.digitCount c)) % 2 = 1

/-- The whole number that a finite decimal without a fraction is. -/
def wholeValue (negative : Bool) (c : Nat) (e : Int) : Int :=
  signedCoefficient negative (if 0 ≤ e then c * 10 ^ e.toNat else c / 10 ^ (-e).toNat)

/-- The binary digits of a number, the most significant first. -/
def bits (n : Nat) : List Bool :=
  (List.range (n.log2 + 1)).reverse.map fun i => n / 2 ^ i % 2 == 1

/-- Repeated squaring along the bits after the leading one. -/
def powerByBits (ctx : DecimalContext) (base : Decimal) :
    List Bool → Decimal → Except DecimalSignal Decimal
  | [], acc => .ok acc
  | bit :: rest, acc => do
    let square ← ctx.mul acc acc
    let next ← if bit then ctx.mul square base else pure square
    powerByBits ctx base rest next

/-- Repeated squaring of the base along the bits from the last one on. -/
def powerFromLowBits (ctx : DecimalContext) :
    List Bool → Decimal → Decimal → Except DecimalSignal Decimal
  | [], _, acc => .ok acc
  | bit :: rest, base, acc => do
    let acc ← if bit then ctx.mul acc base else pure acc
    if rest.isEmpty then pure acc else powerFromLowBits ctx rest (← ctx.mul base base) acc

/-- Exponents from here on are taken from their last bit on. -/
def wordLimit : Nat := 2 ^ (64 : Nat)

/-- A nonzero finite base to a nonzero whole power. -/
def wholePower (ctx : DecimalContext) (base : Decimal) (n : Int) :
    Except DecimalSignal Decimal := do
  let work : DecimalContext :=
    { ctx with
      precision := ctx.precision + Text.digitCount n.natAbs + 2 + (if n < 0 then 1 else 0)
      rounding := .halfEven }
  let base ← if n < 0 then work.div one base else pure base
  let power ←
    if n.natAbs < wordLimit then powerByBits work base ((bits n.natAbs).drop 1) base
    else powerFromLowBits work (bits n.natAbs).reverse base one
  match power with
  | finite negative c e => ctx.finish negative c e
  | other => pure other

/-- A lower bound for the power of ten of the decimal logarithm of a magnitude other than one: far
from one by the exponent, near one by the distance from one. -/
def logarithmSize (c : Nat) (e : Int) : Int :=
  let t := adjusted c e
  if 0 < t then (Text.digitCount t.natAbs : Int) - 1
  else if t < -1 then (Text.digitCount (t + 1).natAbs : Int) - 1
  else
    -- Here the exponent is negative, and the distance is a fraction with the same denominator.
    let unit := 10 ^ (-e).toNat
    let distance := ((c * 10 ^ e.toNat : Nat) : Int) - (unit : Int)
    adjusted distance.natAbs (min e 0) - (if t = 0 then 2 else 1)

/-- A power that leaves the range of a context for certain: too large, or too small. -/
def outOfRange? (ctx : DecimalContext) (c : Nat) (e : Int) (y : Decimal) : Option Ordering :=
  match y with
  | finite yNegative d f =>
    let size := logarithmSize c e + adjusted d f
    if decide (adjusted c e < 0) = yNegative then
      if (Text.digitCount ctx.maxAdjusted.natAbs : Int) < size then some .gt else none
    else if (Text.digitCount ctx.leastExponent.natAbs : Int) < size then some .lt
    else none
  | _ => none

/-- One to a whole power keeps the zeros that multiplication would give. -/
def powerOfOne (ctx : DecimalContext) (negative : Bool) (e : Int) (yNegative : Bool) (d : Nat)
    (f : Int) : Decimal :=
  if yNegative then finite negative 1 0
  else
    let most := (ctx.precision : Int) - 1
    let shift := if e = 0 then 0 else if most < adjusted d f then most
      else min (wholeValue false d f * -e) most
    finite negative (10 ^ shift.toNat) (-shift)

/-- `ln (num / den)` for `1 ≤ num / den < 10` in units of `1 / scale`, by the series of the inverse
hyperbolic tangent after taking `steps` square roots' worth of argument reduction. -/
def atanhSeries (scale : Nat) (num den : Int) : Nat → Nat → Int → Int → Int
  | 0, _, _, acc => acc
  | fuel + 1, k, term, acc =>
    if term = 0 then acc
    else
      let next := term * num * num / (den * den)
      atanhSeries scale num den fuel (k + 2) next (acc + term / k)

/-- `ln (num / den)` in units of `1 / scale` for a quotient between one and two or so. -/
def lnNear (scale : Nat) (num den : Nat) : Int :=
  let p : Int := (num : Int) - den
  let q : Int := (num : Int) + den
  2 * atanhSeries scale p q (scale.log2 + 10) 1 ((scale : Int) * p / q) 0

/-- `ln n` in units of `1 / scale` for a positive number: powers of two are taken out first. -/
def ln (scale : Nat) (n : Nat) : Int :=
  let k := n.log2
  k * lnNear scale 2 1 + lnNear scale n (2 ^ k)

def expSeries (scale : Nat) (x : Int) : Nat → Nat → Int → Int → Int
  | 0, _, _, acc => acc
  | fuel + 1, k, term, acc =>
    if term = 0 then acc
    else expSeries scale x fuel (k + 1) (term * x / (scale * k)) (acc + term)

/-- How many digits more than the operands have are kept between the steps of a fractional power,
and how many more are computed. -/
def keptDigits : Nat := 23

def guardDigits : Nat := 30

/-- The context between the steps of a fractional power. -/
def betweenSteps (ctx : DecimalContext) (c : Nat) : DecimalContext where
  precision := max (Text.digitCount c) ctx.precision + keptDigits
  maxAdjusted := exponentLimit
  minAdjusted := -exponentLimit
  rounding := .halfEven

/-- The natural logarithm of a positive decimal. -/
def logarithm (work : DecimalContext) (c : Nat) (e : Int) : Except DecimalSignal Decimal :=
  -- Near one, as many leading digits of the logarithm are zero as the decimal has places.
  let places := 2 * work.precision + guardDigits + Text.digitCount e.natAbs
  let scale := 10 ^ places
  let n := ln scale c + e * ln scale 10
  work.finish (decide (n < 0)) n.natAbs (-(places : Int))

/-- The exponential of a decimal, of which the exponent is not far out of range. -/
def exponential (work : DecimalContext) (x : Decimal) : Except DecimalSignal Decimal :=
  match x with
  | finite negative c e =>
    let places := work.precision + guardDigits
    let unit : Nat := 10 ^ places
    let scaled := signedCoefficient negative (c * 10 ^ e.toNat * unit) / (10 ^ (-e).toNat : Nat)
    let logTen := ln unit 10
    let tens := scaled / logTen
    let rest := scaled - tens * logTen
    let value := expSeries unit rest (unit.log2 + 50) 1 unit 0
    work.finish false value.natAbs (tens - places)
  | other => .ok other

/-- A positive finite base other than one to a fractional power.  A result that is one after all
fills the precision with zeros. -/
def fractionalPower (ctx : DecimalContext) (c : Nat) (e : Int) (y : Decimal) :
    Except DecimalSignal Decimal := do
  let work := betweenSteps ctx c
  let product ← work.mul (← logarithm work c e) y
  match ← exponential work product with
  | finite _ d f =>
    if compareMagnitude d f 1 0 = .eq then
      ctx.finish false (10 ^ (ctx.precision - 1)) (1 - (ctx.precision : Int))
    else ctx.finish false d f
  | other => pure other

end DecimalPower

open Decimal DecimalPower in
/-- A decimal to the power of another. -/
def DecimalContext.pow (ctx : DecimalContext) (x y : Decimal) : Except DecimalSignal Decimal :=
  match ctx.nanResult? x y with
  | some r => r
  | none =>
    let whole := match y with
      | finite _ d f => isWhole d f
      | _ => false
    let odd := match y with
      | finite _ d f => isOdd d f
      | _ => false
    let negative := x.isNegative && odd
    match x, y with
    | nan n s p _, _ | _, nan n s p _ => .ok (nan n s p)
    | finite _ 0 _, _ =>
      if y.isZero then .error .invalidOperation
      else if y.isNegative then .ok (infinite negative)
      else .ok (finite negative 0 0)
    | finite a c e, infinite yNegative =>
      if a then .error .invalidOperation
      else
        match compareMagnitude c e 1 0 with
        | .eq => .ok (finite false (10 ^ (ctx.precision - 1)) (-((ctx.precision : Int) - 1)))
        | .lt => .ok (if yNegative then infinite false else finite false 0 0)
        | .gt => .ok (if yNegative then finite false 0 0 else infinite false)
    | infinite a, _ =>
      if a && (!whole || !y.isFinite) then .error .invalidOperation
      else if y.isZero then .ok one
      else if y.isNegative then .ok (finite negative 0 0)
      else .ok (infinite negative)
    | finite a c e, finite b d f =>
      if y.isZero then .ok one
      else if a && !whole then .error .invalidOperation
      else if compareMagnitude c e 1 0 = .eq then
        .ok (if whole then powerOfOne ctx negative e b d f
          else finite false (10 ^ (ctx.precision - 1)) (-((ctx.precision : Int) - 1)))
      else
        match outOfRange? ctx c e y with
        | some .gt => .error .overflow
        | some _ => .ok (finite negative 0 ctx.leastExponent)
        | none =>
          if whole then wholePower ctx x (wholeValue b d f)
          else fractionalPower ctx c e y

end ModelPlaybook
