import ModelPlaybook.Number.Reading
import ModelPlaybook.Number.WholeText
import ModelPlaybook.Json.Text
import ModelPlaybook.Script.Token

/-!
# Literals of scripts

Numbers, text and bytes as they are written in a script.
-/

namespace ModelPlaybook.Script.Literal

/-! ## Numbers -/

def isDigitOrUnderscore (c : Char) : Bool :=
  Text.isAsciiDigit c || c = '_'

def isMarkedDigit (c : Char) : Bool :=
  c.isAlphanum || c = '_'

/-- Whether a numeric literal starts a text. -/
def startsNumber (cs : List Char) : Bool :=
  match cs with
  | '.' :: c :: _ => Text.isAsciiDigit c
  | c :: _ => Text.isAsciiDigit c
  | [] => false

/-- How many characters an exponent at the start of a text has. -/
def exponentLength (cs : List Char) : Nat :=
  match cs with
  | mark :: rest =>
    if mark = 'e' ∨ mark = 'E' then
      let signLength := if rest.head? = some '+' ∨ rest.head? = some '-' then 1 else 0
      let digits := (rest.drop signLength).takeWhile isDigitOrUnderscore
      if digits.head?.any Text.isAsciiDigit then 1 + signLength + digits.length else 0
    else 0
  | [] => 0

/-- The words that may follow a number without a blank. -/
def closeWords : List String := ["and", "else", "for", "if", "in", "is", "not", "or"]

/-- Whether a number may end before a text. -/
def endsNumber (cs : List Char) : Bool :=
  !cs.head?.any isMarkedDigit || closeWords.any fun w => w.toList.isPrefixOf cs

/-- Reads the number that starts a text, and says how long it is. -/
def number? (cs : List Char) : Option (Scalar × Nat) :=
  let isMarked :=
    match cs with
    | '0' :: c :: _ => (WholeText.baseOfMark? c).isSome
    | _ => false
  if isMarked then
    let run := cs.takeWhile isMarkedDigit
    match WholeText.read 0 (String.ofList run) with
    | .ok n => some (.int n, run.length)
    | .error _ => none
  else
    let whole := cs.takeWhile isDigitOrUnderscore
    let rest := cs.drop whole.length
    let fractionLength :=
      match rest with
      | '.' :: more => 1 + (more.takeWhile isDigitOrUnderscore).length
      | _ => 0
    let total := whole.length + fractionLength +
      exponentLength (rest.drop fractionLength)
    let text := String.ofList (cs.take total)
    if !endsNumber (cs.drop total) then none
    else if total = whole.length then
      match WholeText.read 0 text with
      | .ok n => some (.int n, total)
      | .error _ => none
    else (Binary64.ofText? text).map fun x => (.float x, total)

/-! ## Text and bytes -/

/-- How the inside of a quoted literal is read. -/
structure Style where
  isRaw : Bool
  isBytes : Bool
deriving DecidableEq, Repr

/-- The style that the letters before a quote ask for. -/
def Style.ofLetters? (letters : List Char) : Option Style :=
  match String.ofList (letters.map Char.toLower) with
  | "" => some ⟨false, false⟩
  | "u" => some ⟨false, false⟩
  | "r" => some ⟨true, false⟩
  | "b" => some ⟨false, true⟩
  | "br" => some ⟨true, true⟩
  | "rb" => some ⟨true, true⟩
  | _ => none

/-- The character with a given number. -/
def characterOfCode? (n : Nat) : Option Char :=
  if 0x10FFFF < n then none else some (Text.charOfCode n)

def isOctal (c : Char) : Bool :=
  '0' ≤ c && c ≤ '7'

/-- A numeric escape with a fixed number of digits. -/
def fixedEscape? (width : Nat) (cs : List Char) : Option (List Char × Nat) := do
  let digits := cs.take width
  if digits.length ≠ width then none
  else
    let c ← characterOfCode? (← Json.hexNumber? digits)
    some ([c], width + 1)

/-- What an escape after a backslash stands for, and how long it is; none if it is malformed.  A
letter without a meaning keeps its backslash. -/
def escape? (style : Style) (cs : List Char) : Option (List Char × Nat) :=
  match cs with
  | [] => none
  | '\n' :: _ => some ([], 1)
  | '\\' :: _ => some (['\\'], 1)
  | '\'' :: _ => some (['\''], 1)
  | '"' :: _ => some (['"'], 1)
  | 'a' :: _ => some (['\x07'], 1)
  | 'b' :: _ => some (['\x08'], 1)
  | 'f' :: _ => some (['\x0C'], 1)
  | 'n' :: _ => some (['\n'], 1)
  | 'r' :: _ => some (['\r'], 1)
  | 't' :: _ => some (['\t'], 1)
  | 'v' :: _ => some (['\x0B'], 1)
  | 'x' :: rest => fixedEscape? 2 rest
  | c :: rest =>
    if isOctal c then
      let digits := (c :: rest).take 3 |>.takeWhile isOctal
      let n := digits.foldl (fun n d => 8 * n + (d.toNat - '0'.toNat)) 0
      (characterOfCode? (if style.isBytes then n % 256 else n)).map fun c => ([c], digits.length)
    else if c = 'u' ∧ !style.isBytes then fixedEscape? 4 rest
    else if c = 'U' ∧ !style.isBytes then fixedEscape? 8 rest
    else if c = 'N' ∧ !style.isBytes then none
    else some (['\\', c], 1)

/-- Reads the inside of a quoted literal up to its closing quotes: what it holds, and what is left
behind the quotes. -/
def content? (style : Style) (quote : Char) (isTriple : Bool) :
    Nat → List Char → Option (List Char × List Char)
  | 0, _ => none
  | fuel + 1, cs =>
    let closing := if isTriple then [quote, quote, quote] else [quote]
    if closing.isPrefixOf cs then some ([], cs.drop closing.length)
    else
      match cs with
      | [] => none
      | '\\' :: rest =>
        if style.isRaw then
          match rest with
          | [] => none
          | c :: rest => (content? style quote isTriple fuel rest).map fun (more, rest) =>
            ('\\' :: c :: more, rest)
        else
          match escape? style rest with
          | none => none
          | some (part, length) =>
            (content? style quote isTriple fuel (rest.drop length)).map fun (more, rest) =>
              (part ++ more, rest)
      | c :: rest =>
        if (c = '\n' ∧ !isTriple) ∨ (style.isBytes ∧ 128 ≤ c.toNat) then none
        else (content? style quote isTriple fuel rest).map fun (more, rest) => (c :: more, rest)

/-- Reads the quoted literal that starts a text, behind its letters: the token and what is left. -/
def quoted? (style : Style) (cs : List Char) : Option (Lexeme × List Char) :=
  match cs with
  | [] => none
  | quote :: rest =>
    let isTriple := [quote, quote].isPrefixOf rest
    let inside := if isTriple then rest.drop 2 else rest
    (content? style quote isTriple (cs.length + 1) inside).map fun (content, rest) =>
      if style.isBytes then (.bytes (content.map fun c => UInt8.ofNat c.toNat), rest)
      else (.text (String.ofList content), rest)

end ModelPlaybook.Script.Literal
