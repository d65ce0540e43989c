import ModelPlaybook.Number.Exponent
import ModelPlaybook.Number.Origin
import ModelPlaybook.Number.Rounding

/-!
# Double-precision numbers

Binary floating point with 53 bits of precision, as exact data: a finite number is a signed
mantissa times a power of two.  Every operation computes the exact result as a quotient of whole
numbers and rounds it once, to nearest with ties to the even mantissa (`Binary64.ofQuotient`), so
equal bit patterns are equal values and nothing here leaves the logic.
-/

namespace ModelPlaybook

/-- A double.  `finite negative m e` stands for `± m * 2 ^ e`; the numbers built here are
canonical: `m < 2 ^ 53`, `-1074 ≤ e`, and `2 ^ 52 ≤ m` unless `e = -1074`. -/
inductive Binary64 where
  | finite (negative : Bool) (mantissa : Nat) (exponent : Int)
  | infinite (negative : Bool)
  | nan (origin : Origin := .computed)
deriving DecidableEq, Repr, Inhabited

namespace Binary64

def minExponent : Int := -1074

def maxExponent : Int := 971

def signedZero (negative : Bool) : Binary64 :=
  finite negative 0 minExponent

/-- The exponent whose unit leaves at most 53 bits of the quotient `num / den`, but not below the
least exponent. -/
def unitExponent (num den : Nat) : Int :=
  let guess : Int := (num.log2 : Int) - den.log2 - 52
  let scaledNum := num * 2 ^ (-guess).toNat
  let scaledDen := den * 2 ^ guess.toNat
  let exact := if scaledNum < scaledDen * 2 ^ (52 : Nat) then guess - 1 else guess
  max exact minExponent

/-- The mantissa and the exponent that `± num / den` is rounded to, ties to the even mantissa. -/
def rounded (negative : Bool) (num den : Nat) : Nat × Int :=
  let e := unitExponent num den
  let m := Rounding.halfEven.divide negative (num * 2 ^ (-e).toNat) (den * 2 ^ e.toNat)
  if m = 2 ^ (53 : Nat) then (2 ^ (52 : Nat), e + 1) else (m, e)

/-- The double nearest to `± num / den`; too large a magnitude becomes infinite. -/
def ofQuotient (negative : Bool) (num den : Nat) : Binary64 :=
  if num = 0 then signedZero negative
  else
    let (m, e) := rounded negative num den
    if maxExponent < e then infinite negative else finite negative m e

/-- The double nearest to a whole number. -/
def ofInt (n : Int) : Binary64 :=
  ofQuotient (n < 0) n.natAbs 1

/-- The double nearest to `n * 2 ^ e`; an exact zero takes the given sign. -/
def ofScaled (zeroNegative : Bool) (n : Int) (e : Int) : Binary64 :=
  if n = 0 then signedZero zeroNegative
  else ofQuotient (n < 0) (n.natAbs * 2 ^ e.toNat) (2 ^ (-e).toNat)

def isFinite : Binary64 → Bool
  | finite .. => true
  | _ => false

def isNaN : Binary64 → Bool
  | nan _ => true
  | _ => false

def isZero : Binary64 → Bool
  | finite _ 0 _ => true
  | _ => false

/-- Whether the sign bit is set; a NaN has none. -/
def isNegative : Binary64 → Bool
  | finite negative _ _ => negative
  | infinite negative => negative
  | nan _ => false

def neg : Binary64 → Binary64
  | finite negative m e => finite (!negative) m e
  | infinite negative => infinite (!negative)
  | nan _ => nan

def abs : Binary64 → Binary64
  | finite _ m e => finite false m e
  | infinite _ => infinite false
  | nan _ => nan

/-- The magnitude of `x` under the sign of `y`. -/
def withSignOf (x y : Binary64) : Binary64 :=
  if y.isNegative then x.abs.neg else x.abs

/-- The mantissa under its sign. -/
def signedMantissa (negative : Bool) (m : Nat) : Int :=
  if negative then -(m : Int) else m

def add : Binary64 → Binary64 → Binary64
  | nan _, _ | _, nan _ => nan
  | infinite a, infinite b => if a = b then infinite a else nan
  | infinite a, finite .. => infinite a
  | finite .., infinite b => infinite b
  | finite a m e, finite b n f =>
    let least := min e f
    let sum := signedMantissa a m * (2 ^ (e - least).toNat : Nat) +
      signedMantissa b n * (2 ^ (f - least).toNat : Nat)
    ofScaled (a && b) sum least

def sub (x y : Binary64) : Binary64 :=
  add x y.neg

def mul : Binary64 → Binary64 → Binary64
  | nan _, _ | _, nan _ => nan
  | infinite a, infinite b => infinite (a != b)
  | infinite a, finite b n _ => if n = 0 then nan else infinite (a != b)
  | finite a m _, infinite b => if m = 0 then nan else infinite (a != b)
  | finite a m e, finite b n f =>
    ofScaled (a != b) (signedMantissa (a != b) (m * n)) (e + f)

/-- The quotient; a zero divisor gives an infinity or a NaN. -/
def div : Binary64 → Binary64 → Binary64
  | nan _, _ | _, nan _ => nan
  | infinite _, infinite _ => nan
  | infinite a, finite b _ _ => infinite (a != b)
  | finite a _ _, infinite b => signedZero (a != b)
  | finite a m e, finite b n f =>
    if n = 0 then (if m = 0 then nan else infinite (a != b))
    else ofQuotient (a != b) (m * 2 ^ (e - f).toNat) (n * 2 ^ (f - e).toNat)

/-- The remainder of the division that is cut off toward zero; it has the sign of the dividend and
is exact. -/
def cutRemainder : Binary64 → Binary64 → Binary64
  | nan _, _ | _, nan _ => nan
  | infinite _, _ => nan
  | finite a m e, infinite _ => finite a m e
  | finite a m e, finite _ n f =>
    if n = 0 then nan
    else
      let least := min e f
      let rest := (m * 2 ^ (e - least).toNat) % (n * 2 ^ (f - least).toNat)
      ofScaled a (signedMantissa a rest) least

/-- The order of two doubles by value; a NaN has none. -/
def compare? : Binary64 → Binary64 → Option Ordering
  | nan _, _ | _, nan _ => none
  | infinite a, infinite b =>
    some (if a = b then .eq else if a then .lt else .gt)
  | infinite a, finite .. => some (if a then .lt else .gt)
  | finite .., infinite b => some (if b then .gt else .lt)
  | finite a m e, finite b n f =>
    let least := min e f
    some (compare (signedMantissa a m * (2 ^ (e - least).toNat : Nat))
      (signedMantissa b n * (2 ^ (f - least).toNat : Nat)))

/-- The whole number left when the fraction is cut off. -/
def truncate? : Binary64 → Option Int
  | finite negative m e =>
    let magnitude := m * 2 ^ e.toNat / 2 ^ (-e).toNat
    some (signedMantissa negative magnitude)
  | _ => none

/-- A finite double rounded to a whole number. -/
def toWhole? (mode : Rounding) : Binary64 → Option Int
  | finite negative m e =>
    some (signedMantissa negative
      (mode.divide negative (m * 2 ^ e.toNat) (2 ^ (-e).toNat)))
  | _ => none

def floor : Binary64 → Binary64
  | x@(finite negative _ _) =>
    match x.toWhole? .floor with
    | some n => ofScaled negative n 0
    | none => x
  | x => x

/-- The quotient rounded toward minus infinity, and the remainder with the sign of the divisor.
The quotient is found by dividing what the remainder leaves, so it is itself rounded. -/
def floorDivMod (x y : Binary64) : Binary64 × Binary64 :=
  let rest := cutRemainder x y
  let whole := div (sub x rest) y
  let one := ofInt 1
  let (rest, whole) :=
    if rest.isZero then ((signedZero false).withSignOf y, whole)
    else if rest.isNegative != y.isNegative then (add rest y, sub whole one)
    else (rest, whole)
  if whole.isZero then ((signedZero false).withSignOf (div x y), rest)
  else
    let floored := whole.floor
    let half := ofQuotient false 1 2
    let floored :=
      if compare? (sub whole floored) half = some .gt then add floored one else floored
    (floored, rest)

/-- Where the biased exponent begins in the bits of a double: the least significand of the normal
doubles, whose first bit is not written. -/
def exponentUnit : Nat := 4503599627370496

/-- Where the sign stands in the bits of a double. -/
def signUnit : Nat := 2048 * exponentUnit

/-- The sixty-four bits of a double: sign, biased exponent, mantissa. -/
def toBits : Binary64 → UInt64
  | finite negative m e =>
    let sign := if negative then signUnit else 0
    if m < exponentUnit then UInt64.ofNat (sign + m)
    else UInt64.ofNat (sign + (e + 1075).toNat * exponentUnit + (m - exponentUnit))
  | infinite negative =>
    UInt64.ofNat ((if negative then signUnit else 0) + 2047 * exponentUnit)
  | nan _ => UInt64.ofNat (2047 * exponentUnit + exponentUnit / 2)

def ofBits (bits : UInt64) : Binary64 :=
  let n := bits.toNat
  let negative := signUnit ≤ n
  let biased := n / exponentUnit % 2048
  let fraction := n % exponentUnit
  if biased = 2047 then (if fraction = 0 then infinite negative else nan)
  else if biased = 0 then finite negative fraction minExponent
  else finite negative (exponentUnit + fraction) ((biased : Int) - 1075)

def ofFloat (x : Float) : Binary64 :=
  ofBits x.toBits

def toFloat (x : Binary64) : Float :=
  Float.ofBits x.toBits

@[simp] theorem isFinite_neg (x : Binary64) : x.neg.isFinite = x.isFinite := by
  cases x <;> rfl

end Binary64

end ModelPlaybook
