import ModelPlaybook.Number.Reading
import ModelPlaybook.Number.WholeText
import ModelPlaybook.Script.Plain
import ModelPlaybook.Text.Encoding

/-!
# Numbers and texts from objects

The whole number, the double, the decimal or the text that an object is turned into, or why it
cannot be.
-/

namespace ModelPlaybook.Script

namespace Object

/-- The whole number that an argument has to be. -/
def whole (o : Object) : Run Int := do
  match o with
  | .standIn _ => refused
  | o =>
    match o.index? with
    | some n => pure n
    | none => refused
where
  refused : Run Int := do
    Run.raiseType ("'" ++ (← o.familyName) ++ "' object cannot be interpreted as an integer")

/-- A double without its fraction. -/
def cutFloat (mode : Rounding) (x : Binary64) : Run Int :=
  match x.toWhole? mode, x with
  | some n, _ => pure n
  | none, .nan _ => Run.raiseValue "cannot convert float NaN to integer"
  | none, _ => Run.raiseFault ⟨.overflow, "cannot convert float infinity to integer"⟩

/-- A decimal without its fraction. -/
def cutDecimal (mode : Rounding) (d : Decimal) : Run Int :=
  match d.toWhole? mode with
  | some n => pure n
  | none =>
    if d.isNaN then Run.raiseValue "cannot convert NaN to integer"
    else Run.raiseFault ⟨.overflow, "cannot convert Infinity to integer"⟩

/-- The whole number that an object is turned into. -/
def toWhole (o : Object) : Run Int := do
  match o with
  | .scalar (.float x) _ => cutFloat .down x
  | .scalar (.decimal d) _ => cutDecimal .down d
  | .scalar (.text s) _ => Run.ofFault (WholeText.read 10 s)
  | .bytes content _ => Run.ofFault (WholeText.readBytes 10 content)
  | o =>
    match o.index? with
    | some n => pure n
    | none =>
      Run.raiseType ("int() argument must be a string, a bytes-like object or a real number, not '"
        ++ (← o.familyName) ++ "'")

/-- The whole number that a text is in a base. -/
def wholeInBase (o base : Object) : Run Int := do
  let b ← base.whole
  if ¬(b = 0 ∨ (2 ≤ b ∧ b ≤ 36)) then
    Run.raiseValue "int() base must be >= 2 and <= 36, or 0"
  match o with
  | .scalar (.text s) _ => Run.ofFault (WholeText.read b.toNat s)
  | .bytes content _ => Run.ofFault (WholeText.readBytes b.toNat content)
  | _ => Run.raiseType "int() can't convert non-string with explicit base"

/-- The double that an object is turned into. -/
def toFloat (o : Object) : Run Binary64 := do
  match o with
  | .scalar (.float x) _ => pure x
  | .scalar (.decimal d) _ =>
    if d.isSignaling then Run.raiseValue "cannot convert signaling NaN to float"
    else pure d.toBinary64
  | .scalar (.text s) _ =>
    match Binary64.ofText? s with
    | some x => pure x
    | none => unreadable (Text.quoted s)
  | .bytes content _ =>
    let s := String.ofList (content.map fun b => Char.ofNat b.toNat)
    match if content.all (· < 128) then Binary64.ofText? s else none with
    | some x => pure x
    | none => unreadable (Text.quotedBytes content)
  | o =>
    match o.index? with
    | some n => Run.ofFault (Number.floatOfInt n)
    | none =>
      Run.raiseType ("float() argument must be a string or a real number, not '" ++
        (← o.familyName) ++ "'")
where
  unreadable (shown : String) : Run Binary64 :=
    Run.raiseValue ("could not convert string to float: " ++ shown)

/-- The whole number among the parts of a decimal. -/
def decimalPart (o : Object) (refusal word : String) : Run Int := do
  match o.index? with
  | some n =>
    if -(2 ^ (63 : Nat)) ≤ n ∧ n < 2 ^ (63 : Nat) then pure n
    else Run.raiseTooLarge word
  | none => Run.raiseValue refusal

/-- The digits that an object lists. -/
def decimalDigits (o : Object) : Run (List Nat) := do
  let refusal := "coefficient must be a tuple of digits"
  let items ←
    match o, ← o.listItems? with
    | .tuple items _, _ => pure items
    | _, some items => pure items
    | _, none => Run.raiseValue refusal
  items.mapM fun item => do
    let n ← decimalPart item refusal "long"
    if 0 ≤ n ∧ n ≤ 9 then pure n.toNat else Run.raiseValue refusal

/-- The decimal of a sign, digits and an exponent, in the place of which a letter can stand. -/
def decimalOfParts (items : List Object) : Run Decimal := do
  match items with
  | [sign, digits, exponent] =>
    let refusal := "sign must be an integer with the value 0 or 1"
    let s ← decimalPart sign refusal "long"
    if s ≠ 0 ∧ s ≠ 1 then Run.raiseValue refusal
    let negative := decide (s = 1)
    match exponent with
    | .scalar (.text letter) _ =>
      if !(["F", "n", "N"].contains letter) then
        Run.raiseValue "string argument in the third position must be 'F', 'n' or 'N'"
      let ds ← decimalDigits digits
      if letter = "F" then pure (.infinite negative)
      else pure (.nan negative (decide (letter = "N")) (Decimal.natOfValues ds))
    | o =>
      let e ← decimalPart o "exponent must be an integer" "ssize_t"
      let c := Decimal.natOfValues (← decimalDigits digits)
      if Decimal.isKept c e then pure (.finite negative c e)
      else Run.raiseFault (.ofSignal .invalidOperation)
  | _ => Run.raiseValue "argument must be a sequence of length 3"

/-- The decimal that an object is turned into. -/
def toDecimal (o : Object) : Run Decimal := do
  match o with
  | .scalar (.decimal d) _ => pure d
  | .scalar (.float x) _ => pure (.ofBinary64 x)
  | .scalar (.text s) _ => Run.ofFault (liftSignal (Decimal.ofText s))
  | .tuple items _ => decimalOfParts items
  | o =>
    match o.index?, ← o.listItems? with
    | some n, _ => pure (.ofInt n)
    | none, some items => decimalOfParts items
    | none, none =>
      Run.raiseType ("conversion from " ++ (← o.familyName) ++ " to Decimal is not supported")

/-! ## Texts -/

/-- The text that an argument has to be. -/
def textArgument (argument : String) (o : Object) : Run String := do
  match o with
  | .scalar (.text s) _ => pure s
  | o => do
    let shown ← if o == .nothing then pure "None" else o.familyName
    Run.raiseType (argument ++ " must be str, not " ++ shown)

/-- The name that an argument has to be. -/
def nameArgument (argument : String) (o : Object) : Run String := do
  let s ← textArgument argument o
  if s.contains '\x00' then Run.raiseValue "embedded null character" else pure s

/-- Stops at bytes that stand for nothing. -/
def raiseUndecodable {α : Type} (opening : Text.Encoding.Opening) (content : List UInt8)
    (f : Text.Encoding.Fault) : Run α :=
  let parts : List Object := [.text f.encoding.name,
    .bytes (content.drop (opening.mark - opening.start)), .int f.position,
    .int (f.position + f.bytes.length), .text f.reason]
  Run.raiseError "UnicodeDecodeError" parts none (codingParts.zip parts)

/-- The text that bytes stand for. -/
def decoded (content : List UInt8) (encoding errors : String) : Run String := do
  match content, Text.Encoding.ofName? encoding content with
  | [], _ => pure ""
  | _, none => Run.raiseFault ⟨.lookup, "unknown encoding: " ++ encoding⟩
  | content, some opening =>
    match opening.decode ((Text.Remedy.ofName? errors).getD .none) content with
    | .ok s => pure s
    | .error f =>
      if (Text.Remedy.ofName? errors).isSome then raiseUndecodable opening content f
      else Run.raiseFault ⟨.lookup, "unknown error handler name '" ++ errors ++ "'"⟩

end Object

end ModelPlaybook.Script
