import ModelPlaybook.Number.Binary64
import ModelPlaybook.Text.Digits

/-!
# The shortest decimal text of a double

A double is written with the fewest significant digits that read back as the same double, and of
those the nearest to it.  `Shortest.digits` finds them by trying one digit, two digits, and so on:
on each decimal grid only the two neighbours of the value can qualify.  How the digits are laid
out is a separate record (`NumberLayout`).
-/

namespace ModelPlaybook

namespace Shortest

/-- The decimal exponent of a positive quotient: the `e` with `10 ^ e ≤ num / den < 10 ^ (e+1)`. -/
def decimalExponent (num den : Nat) : Int :=
  if den ≤ num then (Text.digitCount (num / den) : Int) - 1
  else -(Text.digitCount ((den + num - 1) / num - 1) : Int)

/-- A decimal grid: its unit is `10 ^ exponent`. -/
structure Candidate where
  coefficient : Nat
  exponent : Int
deriving DecidableEq, Repr, Inhabited

/-- The double nearest to a decimal number. -/
def Candidate.toBinary64 (c : Candidate) : Binary64 :=
  Binary64.ofQuotient false (c.coefficient * 10 ^ c.exponent.toNat) (10 ^ (-c.exponent).toNat)

/-- The neighbours of `num / den` on the grid of `count` significant digits that read back as the
double `x`, the nearer one if both do, the even one if they are equally near. -/
def onGrid? (x : Binary64) (num den count : Nat) : Option Candidate :=
  let e := decimalExponent num den - ((count : Int) - 1)
  let scaledNum := num * 10 ^ (-e).toNat
  let scaledDen := den * 10 ^ e.toNat
  let low := scaledNum / scaledDen
  let rest := scaledNum % scaledDen
  let below : Candidate := ⟨low, e⟩
  let above : Candidate := ⟨low + 1, e⟩
  let belowReads := below.toBinary64 == x
  let aboveReads := above.toBinary64 == x
  if belowReads && aboveReads then
    some (if Rounding.halfEven.goesUp false low rest scaledDen then above else below)
  else if belowReads then some below
  else if aboveReads then some above
  else none

/-- Drops the zeros at the end of a coefficient. -/
def stripZeros : Nat → Candidate → Candidate
  | 0, c => c
  | fuel + 1, c =>
    if c.coefficient ≠ 0 ∧ c.coefficient % 10 = 0 then
      stripZeros fuel ⟨c.coefficient / 10, c.exponent + 1⟩
    else c

/-- The shortest decimal number that reads back as a positive finite double; seventeen digits
always suffice. -/
def digits (m : Nat) (e : Int) : Candidate :=
  let x := Binary64.finite false m e
  let num := m * 2 ^ e.toNat
  let den := 2 ^ (-e).toNat
  match (List.range 17).findSome? fun i => onGrid? x num den (i + 1) with
  | some c => stripZeros 20 c
  | none => ⟨0, 0⟩

end Shortest

/-- Where positional notation ends and how the exponent is written. -/
structure NumberLayout where
  /-- The least decimal exponent written positionally. -/
  leastPositional : Int
  /-- The first decimal exponent that is no longer written positionally. -/
  positionalEnd : Int
  /-- Whether a whole number keeps a point and a zero. -/
  keepPoint : Bool
  exponentMark : Char
  leastExponentDigits : Nat
  nanText : String
  infinityText : String
deriving Repr

/-- Doubles are positional from `1e-4` up to below `1e16`, keep `.0`, and have exponents of at
least two digits with a sign. -/
def floatLayout : NumberLayout where
  leastPositional := -4
  positionalEnd := 16
  keepPoint := true
  exponentMark := 'e'
  leastExponentDigits := 2
  nanText := "nan"
  infinityText := "inf"

/-- JSON text differs only in the names of the special values. -/
def jsonLayout : NumberLayout :=
  { floatLayout with nanText := "NaN", infinityText := "Infinity" }

namespace NumberLayout

def exponentText (layout : NumberLayout) (e : Int) : List Char :=
  let ds := Text.digitsOfNat e.natAbs
  let padding := List.replicate (layout.leastExponentDigits - ds.length) '0'
  layout.exponentMark :: (if e < 0 then '-' else '+') :: (padding ++ ds)

/-- The digits of `coefficient * 10 ^ exponent` laid out; the coefficient is positive. -/
def layOut (layout : NumberLayout) (coefficient : Nat) (exponent : Int) : List Char :=
  let ds := Text.digitsOfNat coefficient
  let point : Int := exponent + ds.length
  let scientific := point - 1
  if layout.leastPositional ≤ scientific ∧ scientific < layout.positionalEnd then
    if point ≤ 0 then
      '0' :: '.' :: (List.replicate (-point).toNat '0' ++ ds)
    else if exponent < 0 then
      ds.take point.toNat ++ '.' :: ds.drop point.toNat
    else
      ds ++ List.replicate exponent.toNat '0' ++ (if layout.keepPoint then ['.', '0'] else [])
  else
    let mantissa :=
      match ds with
      | d :: rest@(_ :: _) => d :: '.' :: rest
      | ds => ds
    mantissa ++ layout.exponentText scientific

/-- The text of a double. -/
def text (layout : NumberLayout) : Binary64 → String
  | .nan _ => layout.nanText
  | .infinite negative => if negative then "-" ++ layout.infinityText else layout.infinityText
  | .finite negative m e =>
    let body :=
      if m = 0 then (if layout.keepPoint then ['0', '.', '0'] else ['0'])
      else
        let c := Shortest.digits m e
        layout.layOut c.coefficient c.exponent
    String.ofList (if negative then '-' :: body else body)

end NumberLayout

/-- The text of a double in messages and reports. -/
def Binary64.text (x : Binary64) : String :=
  floatLayout.text x

end ModelPlaybook
