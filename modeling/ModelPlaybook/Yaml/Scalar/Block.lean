import ModelPlaybook.Yaml.Cursor

/-!
# Block scalars

A scalar after `|` or `>` takes all following lines that are indented deeply enough.  After `|`
every line break is kept; after `>` a break between two lines that start with a character other
than a blank becomes a space, or nothing where blank lines follow it.
-/

namespace ModelPlaybook.Yaml.BlockScalar

/-- What becomes of the line breaks after the last line: one is kept, none, or all. -/
inductive Chomping where
  | clip
  | strip
  | keep
deriving DecidableEq, Repr

structure Header where
  chomping : Chomping
  /-- How much deeper than its parent the scalar stands, if the text says so. -/
  indent : Option Nat
deriving Repr

def chomping? (c : Cursor) : Option (Chomping × Cursor) :=
  if c.peek = '+' then some (.keep, c.next)
  else if c.peek = '-' then some (.strip, c.next)
  else none

/-- The indentation that one digit states; zero is refused. -/
def indent? (c : Cursor) : Scanned (Option (Nat × Cursor)) :=
  let d := c.peek
  if d = '0' then c.refuse .blockHeader
  else if '1' ≤ d ∧ d ≤ '9' then .ok (some (d.toNat - '0'.toNat, c.next))
  else .ok none

/-- Reads the marks after `|` or `>`, in either order. -/
def marks (c : Cursor) : Scanned (Header × Cursor) := do
  match chomping? c with
  | some (chomping, c) =>
    match ← indent? c with
    | some (n, c) => pure (⟨chomping, some n⟩, c)
    | none => pure (⟨chomping, none⟩, c)
  | none =>
    match ← indent? c with
    | some (n, c) =>
      match chomping? c with
      | some (chomping, c) => pure (⟨chomping, some n⟩, c)
      | none => pure (⟨.clip, some n⟩, c)
    | none => pure (⟨.clip, none⟩, c)

/-- Reads the rest of the first line. -/
def header (c : Cursor) : Scanned (Header × Cursor) := do
  let (h, c) ← marks c
  if c.peek = ' ' ∨ isBreakOrEnd c.peek then
    let c := c.skipSpaces.skipComment
    if isBreakOrEnd c.peek then pure (h, c.skipLineBreak) else c.refuse .blockHeader
  else c.refuse .blockHeader

/-- Skips spaces up to a column. -/
def skipIndent (indent : Nat) (c : Cursor) : Cursor :=
  c.advance (min (indent - c.column) (c.rest.takeWhile (· = ' ')).length)

/-- The line breaks of the blank lines that follow, and the place after them. -/
def blankLines (indent : Nat) : Nat → Cursor → List Char × Cursor
  | 0, c => ([], c)
  | fuel + 1, c =>
    let c := skipIndent indent c
    match c.lineBreak? with
    | none => ([], c)
    | some (b, c) =>
      let (more, c) := blankLines indent fuel c
      (b :: more, c)

/-- The blank lines before the first line, the place after them and the deepest column that spaces
reach there. -/
def leadingLines : Nat → Nat → Cursor → List Char × Nat × Cursor
  | 0, deepest, c => ([], deepest, c)
  | fuel + 1, deepest, c =>
    let after := c.skipSpaces
    let deepest := if after.index = c.index then deepest else max deepest after.column
    match after.lineBreak? with
    | none => ([], deepest, after)
    | some (b, c) =>
      let (more, deepest, c) := leadingLines fuel deepest c
      (b :: more, deepest, c)

def isBlankStart (c : Char) : Bool :=
  c = ' ' || c = '\t'

/-- The lines of a scalar: their text up to the last line, the break after that line, the breaks
of the blank lines behind it and the place after them. -/
def lines (folded : Bool) (indent : Nat) :
    Nat → List Char → Cursor → List Char × List Char × List Char × Cursor
  | 0, blanks, c => ([], [], blanks, c)
  | fuel + 1, blanks, c =>
    if c.column ≠ indent ∨ c.atEnd then ([], [], blanks, c)
    else
      let (line, after) := c.spanWhile (!isBreak ·)
      let (ending, after) :=
        match after.lineBreak? with
        | some (b, after) => ([b], after)
        | none => ([], after)
      let (next, after) := blankLines indent (after.rest.length + 1) after
      if after.column ≠ indent ∨ after.atEnd then (blanks ++ line, ending, next, after)
      else
        let folds := folded && ending == ['\n'] && !isBlankStart c.peek && !isBlankStart after.peek
        let joint := if !folds then ending else if next.isEmpty then [' '] else []
        let (text, rest) := lines folded indent fuel next after
        (blanks ++ line ++ joint ++ text, rest)

/-- Reads a block scalar at its mark.  `least` is the column that its lines have to reach. -/
def read (least : Nat) (c : Cursor) : Scanned (String × Cursor) := do
  let folded := c.peek == '>'
  let (h, c) ← header c.next
  let fuel := c.rest.length + 1
  let least := max least 1
  let (blanks, indent, c) :=
    match h.indent with
    | none =>
      let (blanks, deepest, c) := leadingLines fuel 0 c
      (blanks, max least deepest, c)
    | some n =>
      let indent := least + n - 1
      let (blanks, c) := blankLines indent fuel c
      (blanks, indent, c)
  let (text, ending, blanks, c) := lines folded indent fuel blanks c
  let tail :=
    match h.chomping with
    | .strip => []
    | .clip => ending
    | .keep => ending ++ blanks
  pure (String.ofList (text ++ tail), c)

end ModelPlaybook.Yaml.BlockScalar
