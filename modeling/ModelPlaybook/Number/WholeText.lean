import ModelPlaybook.Fault
import ModelPlaybook.Text.Digits

/-!
# Reading and writing whole numbers

A whole number is read with blanks at the ends, one sign, an optional mark of the base and digits,
between which single underscores may stand.  Base zero takes the base from its mark.  In base ten,
numbers with too many digits are neither read nor written.
-/

namespace ModelPlaybook.WholeText

/-- The value of a digit: a decimal digit of any script or a letter of ASCII. -/
def digit? (c : Char) : Option Nat :=
  match Text.digitValue? c with
  | some d => some d
  | none =>
    let c := c.toLower
    if 'a' ≤ c ∧ c ≤ 'z' then some (c.toNat - 'a'.toNat + 10) else none

/-- A decimal digit of any script as the one of ASCII; other characters as they are. -/
def asciiDigit (c : Char) : Char :=
  ((Text.digitValue? c).map Nat.digitChar).getD c

/-- The base that a letter after a zero marks. -/
def baseOfMark? (c : Char) : Option Nat :=
  match c.toLower with
  | 'b' => some 2
  | 'o' => some 8
  | 'x' => some 16
  | _ => none

/-- Passes over the underscore that may stand between a mark and the first digit. -/
def skipUnderscore (cs : List Char) : List Char :=
  if cs.head? = some '_' then cs.tail else cs

/-- The base of an unsigned number and its digits, where the base may be left open. -/
def splitMark (base : Nat) (cs : List Char) : Option (Nat × List Char) :=
  match cs with
  | '0' :: c :: rest =>
    match baseOfMark? c with
    | some marked =>
      if base = marked ∨ base = 0 then some (marked, skipUnderscore rest)
      else some (base, cs)
    | none =>
      if base ≠ 0 then some (base, cs)
      else if (c :: rest).all fun d => d = '0' ∨ d = '_' then some (10, cs)
      else none
  | cs => some (if base = 0 then 10 else base, cs)

/-- The digits of a number; none if another character, or an underscore at an end, stands
among them. -/
def digits? (base : Nat) : List Char → Option (List Nat)
  | [] => none
  | [c] => (within c).map ([·])
  | c :: '_' :: rest => do
    let d ← within c
    pure (d :: (← digits? base rest))
  | c :: rest => do
    let d ← within c
    pure (d :: (← digits? base rest))
where
  within (c : Char) : Option Nat :=
    (digit? c).bind fun d => if d < base then some d else none

def isPowerOfTwo (base : Nat) : Bool :=
  [2, 4, 8, 16, 32].contains base

/-- A text that is no number; it is given in its shown form. -/
def unreadable (base : Nat) (shown : String) : Fault :=
  .ofValue ("invalid literal for int() with base " ++ toString base ++ ": " ++
    String.ofList (shown.toList.take 200))

def tooLong (count : Nat) : Fault :=
  .ofValue ("Exceeds the limit (" ++ toString Text.integerDigitLimit ++
    " digits) for integer string conversion: value has " ++ toString count ++
    " digits; use sys.set_int_max_str_digits() to increase the limit")

/-- A number that has too many digits to be written. -/
def unwritable : Fault :=
  .ofValue ("Exceeds the limit (" ++ toString Text.integerDigitLimit ++
    " digits) for integer string conversion; " ++
    "use sys.set_int_max_str_digits() to increase the limit")

/-- Whether a number has few enough digits to be written. -/
def isWritable (n : Int) : Bool :=
  n.natAbs < 10 ^ Text.integerDigitLimit

/-- Reads a whole number.  Except where the base is a power of two, the number of digits is
limited. -/
def readShown (base : Nat) (shown s : String) : Except Fault Int :=
  let cs := (Text.numeralChars s).map asciiDigit
  let (negative, body) :=
    match cs with
    | '-' :: rest => (true, rest)
    | '+' :: rest => (false, rest)
    | _ => (false, cs)
  match splitMark base body with
  | none => .error (unreadable base shown)
  | some (actual, body) =>
    match digits? actual body with
    | none => .error (unreadable base shown)
    | some ds =>
      if !isPowerOfTwo actual && Text.integerDigitLimit < ds.length then
        .error (tooLong ds.length)
      else
        let n : Nat := ds.foldl (fun n d => actual * n + d) 0
        .ok (if negative then -(n : Int) else n)

/-- Reads a whole number from a text. -/
def read (base : Nat) (s : String) : Except Fault Int :=
  readShown base (Text.quoted s) s

/-- Reads a whole number from bytes, which have to be ASCII. -/
def readBytes (base : Nat) (content : List UInt8) : Except Fault Int :=
  let shown := Text.quotedBytes content
  if content.all (· < 128) then
    readShown base shown (String.ofList (content.map fun b => Char.ofNat b.toNat))
  else .error (unreadable base shown)

end ModelPlaybook.WholeText
