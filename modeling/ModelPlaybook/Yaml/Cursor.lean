import ModelPlaybook.Json.Text
import ModelPlaybook.Yaml.Failure

/-!
# Places in a text

A cursor is a place in a text: what is left to read, and the index, line and column of the next
character.  At the end of the text the next character counts as `U+0000`, which no readable text
holds.  A text can come bit by bit, so a cursor also knows how far the text has been looked at.
-/

namespace ModelPlaybook.Yaml

/-- The character that stands for the end of a text. -/
def endMark : Char := '\x00'

/-- The characters that end a line. -/
def isBreak (c : Char) : Bool :=
  c = '\n' || c = '\r' || c = '\x85' || c = '\u2028' || c = '\u2029'

def isBreakOrEnd (c : Char) : Bool :=
  isBreak c || c = endMark

/-- Whether a character separates tokens, the end of the text included. -/
def isSeparator (c : Char) : Bool :=
  c = ' ' || c = '\t' || isBreakOrEnd c

/-- The characters that names of anchors, directives and handles are made of. -/
def isNameChar (c : Char) : Bool :=
  c.isAlphanum || c = '-' || c = '_'

structure Cursor where
  rest : List Char
  index : Nat
  line : Nat
  column : Nat
  /-- How many characters of the text have been looked at, the next one included. -/
  seen : Nat
deriving Repr

/-- Why scanning stops, and how many characters have been looked at by then. -/
structure Stumble where
  failure : Failure
  seen : Nat
deriving Repr

/-- What a reader of characters gives. -/
abbrev Scanned (α : Type) := Except Stumble α

namespace Cursor

def start (text : List Char) : Cursor :=
  ⟨text, 0, 0, 0, 1⟩

/-- The next character. -/
def peek (c : Cursor) : Char :=
  c.rest.head?.getD endMark

/-- The character `n` places after the next one. -/
def peekAt (c : Cursor) (n : Nat) : Char :=
  c.rest[n]?.getD endMark

def atEnd (c : Cursor) : Bool :=
  c.rest.isEmpty

/-- Looks at the characters up to the one `n` places after the next one. -/
def look (n : Nat) (c : Cursor) : Cursor :=
  { c with seen := max c.seen (c.index + n + 1) }

/-- What is found out at a place. -/
def result {α : Type} (c : Cursor) (r : Result α) : Scanned α :=
  r.mapError fun f => ⟨f, c.seen⟩

def refuse {α : Type} (c : Cursor) (problem : Problem) : Scanned α :=
  c.result (Yaml.refuse problem)

/-- Moves over one character.  A carriage return before a line feed does not end the line, and a
byte order mark takes no column. -/
def next (c : Cursor) : Cursor :=
  match c.rest with
  | [] => c
  | ch :: rest =>
    let endsLine := isBreak ch && !(ch = '\r' && rest.head? == some '\n')
    let seen := max c.seen (c.index + 2)
    if endsLine then ⟨rest, c.index + 1, c.line + 1, 0, seen⟩
    else ⟨rest, c.index + 1, c.line, if ch = '\uFEFF' then c.column else c.column + 1, seen⟩

def advance (c : Cursor) : Nat → Cursor
  | 0 => c
  | n + 1 => c.next.advance n

/-- The longest run of characters that pass a test, and the place after it. -/
def spanWhile (test : Char → Bool) (c : Cursor) : List Char × Cursor :=
  let run := c.rest.takeWhile test
  (run, c.advance run.length)

def skipWhile (test : Char → Bool) (c : Cursor) : Cursor :=
  (c.spanWhile test).2

def skipSpaces (c : Cursor) : Cursor :=
  c.skipWhile (· = ' ')

/-- Skips a comment, if one starts here, up to the end of its line. -/
def skipComment (c : Cursor) : Cursor :=
  if c.peek = '#' then c.skipWhile (!isBreak ·) else c

/-- The line break that starts here, as it counts in a scalar, and the place after it.  All breaks
but the separators of lines and paragraphs count as a line feed. -/
def lineBreak? (c : Cursor) : Option (Char × Cursor) :=
  let ch := c.peek
  if ch = '\u2028' ∨ ch = '\u2029' then some (ch, c.next)
  else if isBreak ch then
    some ('\n', if ch = '\r' ∧ c.peekAt 1 = '\n' then c.advance 2 else c.next)
  else none

/-- Moves over a line break, if one starts here. -/
def skipLineBreak (c : Cursor) : Cursor :=
  match c.lineBreak? with
  | some (_, c) => c
  | none => c

/-- Whether three equal characters start here. -/
def startsMark (mark : Char) (c : Cursor) : Bool :=
  c.rest.take 3 == [mark, mark, mark]

/-- Whether a mark of three equal characters that separates documents starts here. -/
def atDocumentMark (mark : Char) (c : Cursor) : Bool :=
  c.startsMark mark && isSeparator (c.peekAt 3)

def atDocumentSeparator (c : Cursor) : Bool :=
  c.atDocumentMark '-' || c.atDocumentMark '.'

/-- Looks whether a document separator starts here. -/
def lookForSeparator (c : Cursor) : Cursor :=
  c.look (if c.startsMark '-' || c.startsMark '.' then 3 else 2)

/-- The number that so many hexadecimal digits write.  They are looked at one after the other. -/
def hexNumber (width : Nat) (problem : Problem) (c : Cursor) : Scanned (Nat × Cursor) :=
  let digits := (c.rest.take width).takeWhile fun d => (Json.hexValue? d).isSome
  let c := c.look (min digits.length (width - 1))
  if digits.length = width then .ok ((Json.hexNumber? digits).getD 0, c) else c.refuse problem

end Cursor

end ModelPlaybook.Yaml
