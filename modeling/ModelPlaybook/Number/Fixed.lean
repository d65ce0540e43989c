import ModelPlaybook.Number.Decimal
import ModelPlaybook.Number.Shortest

/-!
# Doubles with a given number of digits

A double is a fraction, so rounding it to some places behind the point, or to some digits in all,
is done on its exact value; a tie goes to the even neighbour.
-/

namespace ModelPlaybook

/-- A magnitude scaled by a power of ten and rounded to a whole number. -/
def Binary64.scaledMagnitude (m : Nat) (e places : Int) : Nat :=
  Rounding.halfEven.divide false (m * 2 ^ e.toNat * 10 ^ places.toNat)
    (2 ^ (-e).toNat * 10 ^ (-places).toNat)

/-- A number of digits with a point before the last `places` of them. -/
def pointedDigits (places n : Nat) : List Char :=
  let ds := Text.digitsOfNat n
  let ds := List.replicate (places + 1 - ds.length) '0' ++ ds
  let whole := ds.take (ds.length - places)
  if places = 0 then whole else whole ++ '.' :: ds.drop (ds.length - places)

/-- No double has more places behind its point. -/
def mostPlaces : Nat := 1074

/-- No double has more significant digits. -/
def mostDigits : Nat := 767

/-- Digits that stand alone, or before a point that is kept although nothing follows it. -/
def withPoint (keepsPoint : Bool) (ds : List Char) : List Char :=
  if keepsPoint then ds ++ ['.'] else ds

/-- A magnitude with exactly so many places behind the point. -/
def fixedText (m : Nat) (e : Int) (places : Nat) (keepsPoint : Bool) : List Char :=
  let exact := min places mostPlaces
  let ds := pointedDigits exact (Binary64.scaledMagnitude m e exact)
  if places = 0 then withPoint keepsPoint ds else ds ++ List.replicate (places - exact) '0'

/-- The first digits of a magnitude, which is not zero, and the power of ten of the first one. -/
def significantDigits (m : Nat) (e : Int) (count : Nat) : List Char × Int :=
  let ctx : DecimalContext := { standardContext with precision := min count mostDigits }
  match Decimal.ofBinary64 (.finite false m e) with
  | .finite _ c f =>
    match ctx.finish false c f with
    | .ok (.finite _ c f) =>
      let ds := Text.digitsOfNat c
      (ds ++ List.replicate (count - ds.length) '0', f + ds.length - 1)
    | _ => (List.replicate count '0', 0)
  | _ => (List.replicate count '0', 0)

/-- An exponent with a sign and at least two digits. -/
def exponentDigits (e : Int) : List Char :=
  floatLayout.exponentText e

/-- A magnitude with one digit before the point and so many behind it. -/
def scientificText (m : Nat) (e : Int) (places : Nat) (keepsPoint : Bool) : List Char :=
  let (ds, exponent) :=
    if m = 0 then (List.replicate (places + 1) '0', 0) else significantDigits m e (places + 1)
  let mantissa := if places = 0 then withPoint keepsPoint ds else ds.take 1 ++ '.' :: ds.drop 1
  mantissa ++ exponentDigits exponent

/-- Digits without the zeros at their end, and without a point that is then last. -/
def dropTrailingZeros (ds : List Char) : List Char :=
  if ds.contains '.' then
    let ds := (ds.reverse.dropWhile (· = '0')).reverse
    if ds.getLast? = some '.' then ds.dropLast else ds
  else ds

/-- A magnitude with so many digits in all, positional if its exponent allows it.  Zeros at the end
go, unless the point is kept. -/
def generalText (m : Nat) (e : Int) (count : Nat) (keepsPoint : Bool) : List Char :=
  let count := max count 1
  let trimmed (ds : List Char) : List Char := if keepsPoint then ds else dropTrailingZeros ds
  let (ds, exponent) :=
    if m = 0 then (List.replicate count '0', 0) else significantDigits m e count
  if -4 ≤ exponent ∧ exponent < count then
    trimmed (if exponent < 0 then
      '0' :: '.' :: (List.replicate (-exponent - 1).toNat '0' ++ ds)
    else ds.take (exponent.toNat + 1) ++ '.' :: ds.drop (exponent.toNat + 1))
  else trimmed (ds.take 1 ++ '.' :: ds.drop 1) ++ exponentDigits exponent

/-- A double rounded to some places behind the point, or before it if their number is negative. -/
def Binary64.roundTo (x : Binary64) (places : Int) : Binary64 :=
  match x with
  | .finite negative m e =>
    -- Beyond these bounds nothing or everything is cut off.
    if places > 323 then x
    else if places < -308 then .signedZero negative
    else
      let n := scaledMagnitude m e places
      ofQuotient negative (n * 10 ^ (-places).toNat) (10 ^ places.toNat)
  | x => x

end ModelPlaybook
