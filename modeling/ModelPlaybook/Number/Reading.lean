import ModelPlaybook.Number.Binary64
import ModelPlaybook.Text.Digits

/-!
# Reading decimal numbers as doubles

A decimal literal is read exactly as a quotient of whole numbers and rounded once.
-/

namespace ModelPlaybook

/-- A decimal literal taken apart: digits before and after the point, and a power of ten. -/
structure DecimalLiteral where
  negative : Bool
  whole : List Nat
  fraction : List Nat
  power : Int
deriving Repr

namespace DecimalLiteral

def coefficient (l : DecimalLiteral) : Nat :=
  (l.whole ++ l.fraction).foldl (fun n d => 10 * n + d) 0

/-- The double nearest to the literal.  A power far outside the range of doubles is answered
without computing it. -/
def toBinary64 (l : DecimalLiteral) : Binary64 :=
  let e := l.power - l.fraction.length
  let c := l.coefficient
  let top := e + ((l.whole ++ l.fraction).length : Int)
  if c = 0 then Binary64.signedZero l.negative
  else if top < -400 then Binary64.signedZero l.negative
  else if e > 400 then Binary64.infinite l.negative
  else Binary64.ofQuotient l.negative (c * 10 ^ e.toNat) (10 ^ (-e).toNat)

end DecimalLiteral

/-- Passes over one underscore that stands before a digit. -/
def Text.skipSeparator : List Char → List Char
  | '_' :: next :: rest => if (digitValue? next).isSome then next :: rest else '_' :: next :: rest
  | cs => cs

theorem Text.length_skipSeparator_le (cs : List Char) :
    (skipSeparator cs).length ≤ cs.length := by
  unfold skipSeparator
  split
  · split <;> simp
  · simp

/-- Digits of any script with single underscores between them, and the text after them. -/
def Text.digitRun : List Char → List Nat × List Char
  | [] => ([], [])
  | c :: rest =>
    match digitValue? c with
    | none => ([], c :: rest)
    | some d =>
      let (ds, after) := digitRun (skipSeparator rest)
      (d :: ds, after)
termination_by cs => cs.length
decreasing_by
  have := Text.length_skipSeparator_le rest
  simp
  omega

/-- The optional exponent part: a mark, an optional sign, digits.  `none` if a mark is followed by
no digits. -/
def Text.exponentPart? : List Char → Option (Int × List Char)
  | c :: rest =>
    if c = 'e' ∨ c = 'E' then
      let (negative, body) :=
        match rest with
        | '-' :: body => (true, body)
        | '+' :: body => (false, body)
        | _ => (false, rest)
      match digitRun body with
      | ([], _) => none
      | (ds, after) =>
        let n : Nat := ds.foldl (fun n d => 10 * n + d) 0
        some (if negative then -(n : Int) else n, after)
    else some (0, c :: rest)
  | [] => some (0, [])

/-- Reads an unsigned decimal literal that fills the whole text. -/
def DecimalLiteral.ofChars? (negative : Bool) (cs : List Char) : Option DecimalLiteral :=
  let (whole, afterWhole) := Text.digitRun cs
  let (fraction, afterFraction) :=
    match afterWhole with
    | '.' :: rest => Text.digitRun rest
    | _ => ([], afterWhole)
  if whole.isEmpty && fraction.isEmpty then none
  else
    match Text.exponentPart? afterFraction with
    | some (power, []) => some ⟨negative, whole, fraction, power⟩
    | _ => none

/-- Reads a double: a sign, a decimal literal or the name of a special value in any case. -/
def Binary64.ofChars? (cs : List Char) : Option Binary64 :=
  let (negative, body) :=
    match cs with
    | '-' :: rest => (true, rest)
    | '+' :: rest => (false, rest)
    | _ => (false, cs)
  let word := String.ofList (body.map Char.toLower)
  if word == "inf" || word == "infinity" then some (.infinite negative)
  else if word == "nan" then some .nan
  else (DecimalLiteral.ofChars? negative body).map DecimalLiteral.toBinary64

/-- Reads a double from a text that may have blanks at its ends. -/
def Binary64.ofText? (s : String) : Option Binary64 :=
  ofChars? (Text.numeralChars s)

end ModelPlaybook
