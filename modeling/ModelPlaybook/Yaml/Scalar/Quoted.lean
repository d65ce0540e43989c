import ModelPlaybook.Yaml.Cursor

/-!
# Quoted scalars

Between single quotes a quote is written twice; between double quotes a backslash starts an escape.
In both a line break becomes a space, or nothing where blank lines follow it, and the blanks around
it are dropped.
-/

namespace ModelPlaybook.Yaml.QuotedScalar

inductive Quote where
  | single
  | double
deriving DecidableEq, Repr

def Quote.mark : Quote → Char
  | single => '\''
  | double => '"'

def isInlineBlank (c : Char) : Bool :=
  c = ' ' || c = '\t'

/-- What a one-letter escape stands for. -/
def shortEscape? (c : Char) : Option Char :=
  match c with
  | '0' => some '\x00'
  | 'a' => some '\x07'
  | 'b' => some '\x08'
  | 't' => some '\t'
  | '\t' => some '\t'
  | 'n' => some '\n'
  | 'v' => some '\x0B'
  | 'f' => some '\x0C'
  | 'r' => some '\r'
  | 'e' => some '\x1B'
  | ' ' => some ' '
  | '"' => some '"'
  | '\\' => some '\\'
  | '/' => some '/'
  | 'N' => some '\x85'
  | '_' => some '\xA0'
  | 'L' => some '\u2028'
  | 'P' => some '\u2029'
  | _ => none

/-- How many digits follow the letter of a numeric escape. -/
def escapeWidth? (c : Char) : Option Nat :=
  match c with
  | 'x' => some 2
  | 'u' => some 4
  | 'U' => some 8
  | _ => none

/-- The character with a given number. -/
def characterOfCode (n : Nat) : Result Char :=
  if 0x7FFFFFFF < n then
    .error (.misfit ⟨.overflow, "Python int too large to convert to C int"⟩)
  else if 0x10FFFF < n then .error (.misfit (.ofValue "chr() arg not in range(0x110000)"))
  else .ok (Text.charOfCode n)

/-- The line breaks of the blank lines that follow, and the place after them. -/
def blankLines : Nat → Cursor → Scanned (List Char × Cursor)
  | 0, c => .ok ([], c)
  | fuel + 1, c =>
    let c := c.lookForSeparator
    if c.atDocumentSeparator then c.refuse .separatorInQuotes
    else
      let c := c.skipWhile isInlineBlank
      match c.lineBreak? with
      | none => .ok ([], c)
      | some (b, c) => do
        let (more, c) ← blankLines fuel c
        pure (b :: more, c)

/-- What blanks and line breaks between two words count as. -/
def gap (c : Cursor) : Scanned (List Char × Cursor) :=
  let (blanks, c) := c.spanWhile isInlineBlank
  match c.lineBreak? with
  | none => .ok (blanks, c)
  | some (b, c) => do
    let (more, c) ← blankLines (c.rest.length + 1) c
    pure (if b ≠ '\n' then b :: more else if more.isEmpty then [' '] else more, c)

/-- Reads an escape after its backslash. -/
def escape (c : Cursor) : Scanned (List Char × Cursor) :=
  let letter := c.peek
  match shortEscape? letter, escapeWidth? letter with
  | some ch, _ => .ok ([ch], c.next)
  | none, some width => do
    let (code, c) ← c.next.hexNumber width (.escapeDigits width)
    let ch ← c.result (characterOfCode code)
    pure ([ch], c.advance width)
  | none, none =>
    if isBreak letter then blankLines (c.rest.length + 1) c.skipLineBreak
    else c.refuse (.unknownEscape letter)

/-- Reads the text up to the closing quote, and moves over that quote. -/
def content (q : Quote) : Nat → Cursor → Scanned (List Char × Cursor)
  | 0, c => c.refuse .unclosedQuotes
  | fuel + 1, c =>
    let ch := c.peek
    let continueWith (part : List Char × Cursor) : Scanned (List Char × Cursor) := do
      let (more, c) ← content q fuel part.2
      pure (part.1 ++ more, c)
    if c.atEnd then c.refuse .unclosedQuotes
    else if isInlineBlank ch || isBreak ch then do continueWith (← gap c)
    else if ch = q.mark then
      if q = .single ∧ c.peekAt 1 = '\'' then continueWith (['\''], c.advance 2)
      else .ok ([], c.next)
    else if q = .double ∧ ch = '\\' then do continueWith (← escape c.next)
    else continueWith ([ch], c.next)

/-- Reads a quoted scalar at its opening quote. -/
def read (q : Quote) (c : Cursor) : Scanned (String × Cursor) := do
  let (text, c) ← content q (c.rest.length + 1) c.next
  pure (String.ofList text, c)

end ModelPlaybook.Yaml.QuotedScalar
