import ModelPlaybook.Number.Decimal

/-!
# The text of decimals

A decimal is written with all its digits: positionally when its exponent is not positive and its
leading digit stands at `10 ^ -6` or above, otherwise with an exponent.  Reading accepts every
written form, blanks at the ends, underscores anywhere and digits of any script.
-/

namespace ModelPlaybook

namespace Decimal

def signText (negative : Bool) : String :=
  if negative then "-" else ""

/-- The least exponent of a leading digit that is written positionally. -/
def leastPositional : Int := -6

def exponentText (e : Int) : List Char :=
  'E' :: (if e < 0 then '-' else '+') :: Text.digitsOfNat e.natAbs

/-- The digits of a finite decimal without its sign. -/
def bodyChars (c : Nat) (e : Int) : List Char :=
  let ds := Text.digitsOfNat c
  let point : Int := e + ds.length
  if e ≤ 0 ∧ leastPositional < point then
    if point ≤ 0 then '0' :: '.' :: (List.replicate (-point).toNat '0' ++ ds)
    else if e = 0 then ds
    else ds.take point.toNat ++ '.' :: ds.drop point.toNat
  else
    let mantissa :=
      match ds with
      | d :: rest@(_ :: _) => d :: '.' :: rest
      | ds => ds
    if point = 1 then mantissa else mantissa ++ exponentText (point - 1)

def text : Decimal → String
  | finite negative c e => signText negative ++ String.ofList (bodyChars c e)
  | infinite negative => signText negative ++ "Infinity"
  | nan negative signaling payload _ =>
    signText negative ++ (if signaling then "sNaN" else "NaN") ++
      (if payload = 0 then "" else toString payload)

/-- A decimal as it is shown inside a message. -/
def shown (d : Decimal) : String :=
  "Decimal('" ++ d.text ++ "')"

/-- A maximal run of digits of any script, and the text after it. -/
def digitSpan : List Char → List Nat × List Char
  | [] => ([], [])
  | c :: rest =>
    match Text.digitValue? c with
    | some d =>
      let (ds, after) := digitSpan rest
      (d :: ds, after)
    | none => ([], c :: rest)

def natOfValues (ds : List Nat) : Nat :=
  ds.foldl (fun n d => 10 * n + d) 0

/-- The power of ten at the end of a decimal text. -/
def exponentOfChars? : List Char → Option Int
  | [] => some 0
  | c :: rest =>
    if c = 'e' ∨ c = 'E' then
      let (negative, body) :=
        match rest with
        | '-' :: body => (true, body)
        | '+' :: body => (false, body)
        | _ => (false, rest)
      match digitSpan body with
      | (d :: ds, []) =>
        let n : Nat := natOfValues (d :: ds)
        some (if negative then -(n : Int) else n)
      | _ => none
    else none

/-- Whether a decimal can be kept exactly: the digits that it has lie within all limits. -/
def isKept (c : Nat) (e : Int) : Bool :=
  1 - 2 * exponentLimit ≤ e && decide ((if c = 0 then e else adjusted c e) ≤ exponentLimit)

/-- Reads the number of a decimal text whose sign has been taken off. -/
def finiteOfChars? (negative : Bool) (cs : List Char) : Option Decimal :=
  let (whole, afterWhole) := digitSpan cs
  let (fraction, after) :=
    match afterWhole with
    | '.' :: rest => digitSpan rest
    | _ => ([], afterWhole)
  if whole.isEmpty && fraction.isEmpty then none
  else
    (exponentOfChars? after).map fun e =>
      finite negative (natOfValues (whole ++ fraction)) (e - fraction.length)

/-- The digits after the name of a NaN. -/
def payloadOfChars? (cs : List Char) : Option Nat :=
  match digitSpan cs with
  | (ds, []) => some (natOfValues ds)
  | _ => none

/-- Reads a decimal of any size. -/
def ofTextAnySize? (s : String) : Option Decimal :=
  let cs := (Text.trimChars s.toList).filter (· ≠ '_')
  let (negative, body) :=
    match cs with
    | '-' :: rest => (true, rest)
    | '+' :: rest => (false, rest)
    | _ => (false, cs)
  let lower := body.map Char.toLower
  if lower = "inf".toList ∨ lower = "infinity".toList then some (infinite negative)
  else if "snan".toList.isPrefixOf lower then
    (payloadOfChars? (body.drop 4)).map (nan negative true)
  else if "nan".toList.isPrefixOf lower then
    (payloadOfChars? (body.drop 3)).map (nan negative false)
  else finiteOfChars? negative body

/-- Reads a decimal.  A text that is none, or one beyond the limits of decimals, is an invalid
operation. -/
def ofText (s : String) : Except DecimalSignal Decimal :=
  match ofTextAnySize? s with
  | none => .error .conversionSyntax
  | some (finite negative c e) =>
    if isKept c e then .ok (finite negative c e) else .error .invalidOperation
  | some d => .ok d

def ofText? (s : String) : Option Decimal :=
  (ofText s).toOption

end Decimal

namespace DecimalSignal

/-- The name of a condition in the text of a decimal error. -/
def conditionName : DecimalSignal → String
  | overflow => "Overflow"
  | divisionByZero => "DivisionByZero"
  | invalidOperation => "InvalidOperation"
  | conversionSyntax => "ConversionSyntax"
  | divisionUndefined => "DivisionUndefined"
  | divisionImpossible => "DivisionImpossible"

/-- The text of a decimal error lists the condition that arose. -/
def text (s : DecimalSignal) : String :=
  "[<class 'decimal." ++ s.conditionName ++ "'>]"

end DecimalSignal

end ModelPlaybook
