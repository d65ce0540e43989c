import ModelPlaybook.Json.Text
import ModelPlaybook.Text.Digits

/-!
# Reading JSON

A text is read from left to right, and what its parts stand for is left to a `Builder`.  Blanks may
stand between the parts.  A text that is no JSON is refused with the problem and its position.
-/

namespace ModelPlaybook.Json

/-- Why a text is no JSON value, and where. -/
structure Refusal where
  problem : String
  position : Nat
deriving DecidableEq, Repr

namespace Refusal

/-- The number of the line in which the problem is. -/
def line (s : String) (r : Refusal) : Nat :=
  (s.toList.take r.position).count '\n' + 1

/-- The number of the column in which the problem is. -/
def column (s : String) (r : Refusal) : Nat :=
  ((s.toList.take r.position).reverse.takeWhile (· ≠ '\n')).length + 1

/-- The message of a refusal names the line and the column. -/
def message (s : String) (r : Refusal) : String :=
  r.problem ++ ": line " ++ toString (r.line s) ++ " column " ++ toString (r.column s) ++
    " (char " ++ toString r.position ++ ")"

end Refusal

/-- What the parts of a text stand for. -/
structure Builder (m : Type → Type) (α : Type) where
  /-- Stops at a text that is no JSON. -/
  refuse : {β : Type} → Refusal → m β
  null : α
  bool : Bool → α
  /-- One of the names of doubles that are no decimal numbers. -/
  special : String → m α
  /-- The digits of a whole number and its sign. -/
  whole : List Char → m α
  /-- A number with a fraction or an exponent. -/
  decimal : List Char → m α
  text : String → α
  array : List α → m α
  object : List (String × α) → m α
  /-- Whether strings may not hold control characters. -/
  strict : Bool

/-- The rest of a text together with the number of characters before it. -/
structure Input where
  rest : List Char
  position : Nat

namespace Input

def drop (i : Input) (n : Nat) : Input :=
  ⟨i.rest.drop n, i.position + n⟩

def isJsonBlank (c : Char) : Bool :=
  c = ' ' || c = '\n' || c = '\t' || c = '\r'

def skipBlanks (i : Input) : Input :=
  i.drop (i.rest.takeWhile isJsonBlank).length

end Input

/-! ## Strings -/

/-- Four hexadecimal digits that are not the end of the text. -/
def unit? (cs : List Char) : Option Nat :=
  if cs.length ≤ 4 then none else hexNumber? (cs.take 4)

/-- The code point of an escape by number and the length of the escape.  `cs` starts at the digits,
which stand at a position.  Two halves of a pair make one code point. -/
def numberedCode (position : Nat) (cs : List Char) : Except Refusal (Nat × Nat) :=
  match unit? (cs.take 5) with
  | none => .error ⟨"Invalid \\uXXXX escape", position - 1⟩
  | some high =>
    match cs.drop 4 with
    | '\\' :: 'u' :: low =>
      if 0xD800 ≤ high ∧ high < 0xDC00 ∧ 4 < (low.take 5).length then
        match hexNumber? (low.take 4) with
        | none => .error ⟨"Invalid \\uXXXX escape", position + 5⟩
        | some n =>
          if 0xDC00 ≤ n ∧ n < 0xE000 then
            .ok (0x10000 + (high - 0xD800) * 0x400 + (n - 0xDC00), 10)
          else .ok (high, 4)
      else .ok (high, 4)
    | _ => .ok (high, 4)

/-- Reads the inside of a string up to its closing quote. -/
def readString (strict : Bool) (start : Nat) :
    Nat → Input → List Char → Except Refusal (String × Input)
  | 0, _, _ => .error ⟨"Unterminated string starting at", start⟩
  | fuel + 1, i, acc =>
    match i.rest with
    | [] => .error ⟨"Unterminated string starting at", start⟩
    | '"' :: _ => .ok (String.ofList acc.reverse, i.drop 1)
    | '\\' :: 'u' :: more => do
      let (code, length) ← numberedCode (i.position + 2) more
      readString strict start fuel (i.drop (2 + length)) (Text.charOfCode code :: acc)
    | '\\' :: c :: _ =>
      match simpleEscape? c with
      | some c => readString strict start fuel (i.drop 2) (c :: acc)
      | none => .error ⟨"Invalid \\escape", i.position⟩
    | c :: _ =>
      if strict && c.toNat < 32 then .error ⟨"Invalid control character at", i.position⟩
      else if c = '\\' then .error ⟨"Unterminated string starting at", start⟩
      else readString strict start fuel (i.drop 1) (c :: acc)

/-! ## Numbers -/

/-- How many characters a fraction takes: a point and the digits behind it. -/
def fractionLength (cs : List Char) : Nat :=
  match cs with
  | '.' :: more =>
    let ds := more.takeWhile Text.isAsciiDigit
    if ds.isEmpty then 0 else ds.length + 1
  | _ => 0

/-- How many characters an exponent takes: a letter, an optional sign and digits. -/
def exponentLength (cs : List Char) : Nat :=
  match cs with
  | c :: more =>
    if c = 'e' ∨ c = 'E' then
      let sign := if more.head? = some '+' ∨ more.head? = some '-' then 1 else 0
      let ds := (more.drop sign).takeWhile Text.isAsciiDigit
      if ds.isEmpty then 0 else 1 + sign + ds.length
    else 0
  | [] => 0

/-- The number at the start of a text, and whether it is a whole number. -/
def number? (cs : List Char) : Option (List Char × Bool) :=
  let sign := if cs.head? = some '-' then 1 else 0
  let body := cs.drop sign
  let whole := if body.head? = some '0' then 1 else (body.takeWhile Text.isAsciiDigit).length
  if whole = 0 then none
  else
    let fraction := fractionLength (body.drop whole)
    let exponent := exponentLength (body.drop (whole + fraction))
    some (cs.take (sign + whole + fraction + exponent), fraction + exponent = 0)

/-! ## Values -/

variable {m : Type → Type} [Monad m] {α : Type}

namespace Builder

def ofExcept {β : Type} (b : Builder m α) : Except Refusal β → m β
  | .ok a => pure a
  | .error r => b.refuse r

/-- Reads a number or one of the words that stand for values. -/
def readWord (b : Builder m α) (i : Input) : m (α × Input) := do
  let isNext (name : String) : Bool := name.toList.isPrefixOf i.rest
  match ["null", "true", "false", "NaN", "Infinity", "-Infinity"].find? isNext with
  | some name =>
    let rest := i.drop name.length
    match name with
    | "null" => pure (b.null, rest)
    | "true" => pure (b.bool true, rest)
    | "false" => pure (b.bool false, rest)
    | name => pure (← b.special name, rest)
  | none =>
    match number? i.rest with
    | some (cs, isWhole) =>
      let number ← if isWhole then b.whole cs else b.decimal cs
      pure (number, i.drop cs.length)
    | none => b.refuse ⟨"Expecting value", i.position⟩

/-- Reads a string at its opening quote. -/
def readText (b : Builder m α) (i : Input) : m (String × Input) :=
  b.ofExcept (readString b.strict i.position (i.rest.length + 1) (i.drop 1) [])

mutual

/-- Reads one value; the fuel bounds the nesting. -/
def readValue (b : Builder m α) : Nat → Input → m (α × Input)
  | 0, i => b.refuse ⟨"Expecting value", i.position⟩
  | fuel + 1, i =>
    match i.rest with
    | '"' :: _ => do
      let (s, i) ← b.readText i
      pure (b.text s, i)
    | '[' :: _ =>
      let j := (i.drop 1).skipBlanks
      if j.rest.head? = some ']' then do pure (← b.array [], j.drop 1)
      else readItems b fuel j []
    | '\x7b' :: _ =>
      let j := (i.drop 1).skipBlanks
      if j.rest.head? = some '\x7d' then do pure (← b.object [], j.drop 1)
      else readMembers b fuel j []
    | _ => b.readWord i

def readItems (b : Builder m α) : Nat → Input → List α → m (α × Input)
  | 0, i, _ => b.refuse ⟨"Expecting value", i.position⟩
  | fuel + 1, i, acc => do
    let (v, i) ← readValue b fuel i
    let i := i.skipBlanks
    match i.rest with
    | ']' :: _ => pure (← b.array (v :: acc).reverse, i.drop 1)
    | ',' :: _ => readItems b fuel (i.drop 1).skipBlanks (v :: acc)
    | _ => b.refuse ⟨"Expecting ',' delimiter", i.position⟩

def readMembers (b : Builder m α) : Nat → Input → List (String × α) → m (α × Input)
  | 0, i, _ => b.refuse ⟨"Expecting property name enclosed in double quotes", i.position⟩
  | fuel + 1, i, acc =>
    match i.rest with
    | '"' :: _ => do
      let (name, i) ← b.readText i
      let i := i.skipBlanks
      if i.rest.head? ≠ some ':' then b.refuse ⟨"Expecting ':' delimiter", i.position⟩
      else
        let (v, i) ← readValue b fuel (i.drop 1).skipBlanks
        let i := i.skipBlanks
        match i.rest with
        | ',' :: _ => readMembers b fuel (i.drop 1).skipBlanks ((name, v) :: acc)
        | '\x7d' :: _ => pure (← b.object ((name, v) :: acc).reverse, i.drop 1)
        | _ => b.refuse ⟨"Expecting ',' delimiter", i.position⟩
    | _ => b.refuse ⟨"Expecting property name enclosed in double quotes", i.position⟩

end

/-- Reads a text that holds exactly one value. -/
def read (b : Builder m α) (s : String) : m α := do
  if s.toList.head? = some '\uFEFF' then
    b.refuse ⟨"Unexpected UTF-8 BOM (decode using utf-8-sig)", 0⟩
  let start : Input := ⟨s.toList, 0⟩
  let (v, i) ← b.readValue (2 * s.length + 2) start.skipBlanks
  let i := i.skipBlanks
  if i.rest.isEmpty then pure v else b.refuse ⟨"Extra data", i.position⟩

end Builder

end ModelPlaybook.Json
