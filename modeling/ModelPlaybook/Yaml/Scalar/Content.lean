import ModelPlaybook.Number.Arithmetic
import ModelPlaybook.Number.Reading
import ModelPlaybook.Number.WholeText
import ModelPlaybook.Value.Basic
import ModelPlaybook.Yaml.Failure
import ModelPlaybook.Yaml.Scalar.Timestamp
import ModelPlaybook.Yaml.Tag

/-!
# What a scalar stands for

The kind of a scalar without a tag, and the value of a scalar of a given kind.  A text that does not
fit its kind is a misfit.
-/

namespace ModelPlaybook.Yaml

/-- The kind of a scalar that has no tag.  One line feed at its end does not count. -/
def Tag.ofText (s : String) : Tag :=
  let cs := s.toList
  let line := if cs.getLast? = some '\n' then cs.dropLast else cs
  let word := String.ofList line
  if cs.isEmpty then .null
  else if Pattern.boolWords.contains word then .bool
  else if Pattern.isFloat line then .float
  else if Pattern.isInt line then .int
  else if word = "<<" then .merge
  else if Pattern.nullWords.contains word then .null
  else if Timestamp.isPlain line then .timestamp
  else if word = "=" then .standard
  else if ["!", "&", "*"].contains word then .unknown (commonPrefix ++ "yaml")
  else .text

namespace Content

def misfit {α : Type} (f : Fault) : Result α :=
  .error (.misfit f)

def ofFault {α : Type} (r : Except Fault α) : Result α :=
  r.mapError .misfit

/-- The fault of reading the first character of a text that has none. -/
def emptyText : Fault := ⟨.index, "string index out of range"⟩

/-- Takes the sign and the underscores off the text of a number. -/
def unsigned (s : String) : Result (Bool × List Char) :=
  match s.toList.filter (· ≠ '_') with
  | [] => misfit emptyText
  | '-' :: rest => .ok (true, rest)
  | '+' :: rest => .ok (false, rest)
  | cs => .ok (false, cs)

def whole (base : Nat) (cs : List Char) : Result Int :=
  ofFault (WholeText.read base (String.ofList cs))

/-- A whole number: after a zero stands the mark of its base, or digits in base eight; parts
between colons are in base sixty. -/
def int (s : String) : Result Int := do
  let (negative, body) ← unsigned s
  let n ←
    match body with
    | [] => misfit emptyText
    | ['0'] => pure 0
    | '0' :: 'b' :: digits => whole 2 digits
    | '0' :: 'x' :: digits => whole 16 digits
    | '0' :: _ => whole 8 body
    | body =>
      if body.contains ':' then do
        let parts ← (Pattern.atColons body).mapM (whole 10)
        pure (parts.foldl (fun n part => 60 * n + part) 0)
      else whole 10 body
  pure (if negative then -n else n)

def fraction (cs : List Char) : Result Binary64 :=
  let s := String.ofList cs
  match Binary64.ofText? s with
  | some x => .ok x
  | none => misfit (.ofValue ("could not convert string to float: " ++ Text.quoted s))

/-- The sum of the parts of a number in base sixty, the last part first. -/
def sexagesimal : Int → Binary64 → List Binary64 → Result Binary64
  | _, sum, [] => .ok sum
  | scale, sum, part :: parts => do
    let factor ← ofFault (Number.floatOfInt scale)
    sexagesimal (60 * scale) (sum.add (part.mul factor)) parts

/-- A number with a point: in base ten, or in base sixty if there are colons. -/
def float (s : String) : Result Binary64 := do
  let (negative, body) ← unsigned s
  let body := body.map Char.toLower
  let x ←
    if body = ".inf".toList then pure (.infinite false)
    else if body = ".nan".toList then pure (.nan .document)
    else if body.contains ':' then do
      let parts ← (Pattern.atColons body).mapM fraction
      sexagesimal 1 (Binary64.signedZero false) parts.reverse
    else fraction body
  pure (if negative && !x.isNaN then x.neg else x)

def bool (s : String) : Result Bool :=
  let word := String.ofList (s.toList.map Char.toLower)
  if ["yes", "true", "on"].contains word then .ok true
  else if ["no", "false", "off"].contains word then .ok false
  else misfit ⟨.key, Text.quoted word⟩

def timestamp (s : String) : Result Scalar :=
  let cs := s.toList
  match Timestamp.ofChars? (if cs.getLast? = some '\n' then cs.dropLast else cs) with
  | some t => ofFault t.toScalar
  | none => misfit ⟨.missingAttribute, "'NoneType' object has no attribute 'groupdict'"⟩

/-! ## Bytes -/

/-- The value of a digit in base sixty-four. -/
def sextet? (c : Char) : Option Nat :=
  if 'A' ≤ c ∧ c ≤ 'Z' then some (c.toNat - 'A'.toNat)
  else if 'a' ≤ c ∧ c ≤ 'z' then some (c.toNat - 'a'.toNat + 26)
  else if Text.isAsciiDigit c then some (c.toNat - '0'.toNat + 52)
  else if c = '+' then some 62
  else if c = '/' then some 63
  else none

/-- Reads digits in base sixty-four in groups of four, passing over other characters.  `group` are
the digits of the open group, the last one first, and `pads` counts the padding after it. -/
def sextets : List Nat → Nat → List Char → Option (List UInt8)
  | group, _, [] => if group.isEmpty then some [] else none
  | group, pads, c :: rest =>
    if c = '=' then
      if 2 ≤ group.length ∧ 4 ≤ group.length + pads + 1 then some []
      else sextets group (pads + 1) rest
    else
      match sextet? c, group with
      | none, _ => sextets group pads rest
      | some v, [] => sextets [v] 0 rest
      | some v, [a] => (sextets [v, a] 0 rest).map (byte (4 * a + v / 16) :: ·)
      | some v, [b, a] => (sextets [v, b, a] 0 rest).map (byte (16 * b + v / 4) :: ·)
      | some v, b :: _ => (sextets [] 0 rest).map (byte (64 * b + v) :: ·)
where
  byte (n : Nat) : UInt8 := UInt8.ofNat (n % 256)

def bytes (s : String) : Result (List UInt8) :=
  let cs := s.toList
  if cs.all fun c => c.toNat < 128 then
    match sextets [] 0 cs with
    | some content => .ok content
    | none => refuse .badBinary
  else refuse .badBinary

end Content

end ModelPlaybook.Yaml
