import ModelPlaybook.Script.Literal

/-!
# Cutting a script into tokens

A line ends a statement, unless brackets are open or a backslash ends it.  Deeper indentation opens
a block, and a return to an earlier depth closes the blocks in between.
-/

namespace ModelPlaybook.Script

/-- How far a line is indented, with tabs reaching to every eighth column and, as a check that tabs
are used in one way, with tabs as wide as blanks. -/
structure Indent where
  column : Nat
  narrow : Nat
deriving DecidableEq, Repr

structure Scanner where
  rest : List Char
  line : Nat
  /-- How many brackets are open. -/
  depth : Nat
  /-- The indentation of the open blocks, the innermost first. -/
  indents : List Indent
  /-- The tokens so far, the last one first. -/
  tokens : List Token

namespace Scanner

def push (s : Scanner) (l : Lexeme) : Scanner :=
  { s with tokens := ⟨s.line, l⟩ :: s.tokens }

def skip (s : Scanner) (n : Nat) : Scanner :=
  { s with rest := s.rest.drop n }

/-- Beyond ASCII every character counts as a letter, unless it is a digit or a blank or marks the
order of bytes. -/
def isNameStart (c : Char) : Bool :=
  c.isAlpha || c = '_' ||
    (128 ≤ c.toNat && (Text.digitValue? c).isNone && !Text.isBlank c && c ≠ '\uFEFF')

def isNameChar (c : Char) : Bool :=
  isNameStart c || (Text.digitValue? c).isSome

def isInlineBlank (c : Char) : Bool :=
  c = ' ' || c = '\t' || c = '\x0C'

/-- The indentation at the start of a line and the text behind it. -/
def indentOf : Indent → List Char → Indent × List Char
  | i, ' ' :: rest => indentOf ⟨i.column + 1, i.narrow + 1⟩ rest
  | i, '\t' :: rest => indentOf ⟨(i.column / 8 + 1) * 8, i.narrow + 1⟩ rest
  | _, '\x0C' :: rest => indentOf ⟨0, 0⟩ rest
  | i, cs => (i, cs)

def top (s : Scanner) : Indent :=
  s.indents.head?.getD ⟨0, 0⟩

/-- Closes the blocks that are deeper than a line. -/
def closeBlocks (i : Indent) : Nat → Scanner → Except Malformed Scanner
  | 0, s => .error ⟨s.line⟩
  | fuel + 1, s =>
    if i.column < s.top.column then
      closeBlocks i fuel { s.push .dedent with indents := s.indents.tail }
    else if i = s.top then .ok s
    else .error ⟨s.line⟩

/-- Opens or closes blocks at the start of a line with content. -/
def align (i : Indent) (s : Scanner) : Except Malformed Scanner :=
  if s.top.column < i.column then
    if s.top.narrow < i.narrow then .ok { s.push .indent with indents := i :: s.indents }
    else .error ⟨s.line⟩
  else closeBlocks i (s.indents.length + 1) s

/-- Whether the line that starts a text holds nothing but a comment. -/
def isBlankLine (cs : List Char) : Bool :=
  cs.isEmpty || cs.head? = some '\n' || cs.head? = some '#'

/-- Moves to the start of the next line that has content, and aligns it. -/
def startLine : Nat → Scanner → Except Malformed Scanner
  | 0, s => .ok s
  | fuel + 1, s =>
    let (i, cs) := indentOf ⟨0, 0⟩ s.rest
    if isBlankLine cs then
      match cs.dropWhile (· ≠ '\n') with
      | [] => .ok { s with rest := [] }
      | _ :: rest => startLine fuel { s with rest := rest, line := s.line + 1 }
    else align i { s with rest := cs }

/-- Reads a name, a keyword or a quoted literal with letters before it. -/
def word (s : Scanner) : Except Malformed Scanner :=
  let run := s.rest.takeWhile isNameChar
  let behind := s.rest.drop run.length
  let isQuoted := behind.head? = some '\'' || behind.head? = some '"'
  match if isQuoted then Literal.Style.ofLetters? run else none with
  | some style => quoted style behind s
  | none =>
    let id := String.ofList run
    let l := if Token.keywords.contains id then Lexeme.keyword id else .name id
    .ok { s.push l with rest := behind }
where
  quoted (style : Literal.Style) (cs : List Char) (s : Scanner) : Except Malformed Scanner :=
    match Literal.quoted? style cs with
    | none => .error ⟨s.line⟩
    | some (l, rest) =>
      let lines := (cs.take (cs.length - rest.length)).count '\n'
      .ok { s.push l with rest := rest, line := s.line + lines }

/-- Reads the token that starts here. -/
def token (c : Char) (s : Scanner) : Except Malformed Scanner :=
  if Literal.startsNumber s.rest then
    match Literal.number? s.rest with
    | some (n, length) => .ok ((s.push (.number n)).skip length)
    | none => .error ⟨s.line⟩
  else if isNameStart c then s.word
  else if c = '\'' || c = '"' then word.quoted ⟨false, false⟩ s.rest s
  else
    match Token.marks.find? fun m => m.toList.isPrefixOf s.rest with
    | none => .error ⟨s.line⟩
    | some m =>
      let s := (s.push (.mark m)).skip m.length
      if Token.openingMarks.contains m then .ok { s with depth := s.depth + 1 }
      else if Token.closingMarks.contains m then
        if s.depth = 0 then .error ⟨s.line⟩ else .ok { s with depth := s.depth - 1 }
      else .ok s

/-- Reads the end of a text: the last line ends, and all blocks close. -/
def atEnd (s : Scanner) : Except Malformed (List Token) :=
  if s.depth ≠ 0 then .error ⟨s.line⟩
  else
    let endsLine := s.tokens.head?.all fun t => t.lexeme == .newline
    let ended : Scanner := if endsLine then s else s.push .newline
    let closed : Scanner := s.indents.foldl (fun s _ => s.push .dedent) ended
    .ok (closed.push .finish).tokens.reverse

def run : Nat → Scanner → Except Malformed (List Token)
  | 0, s => .error ⟨s.line⟩
  | fuel + 1, s =>
    match s.rest with
    | [] => s.atEnd
    | '\n' :: rest =>
      let next : Scanner := { s with rest := rest, line := s.line + 1 }
      if s.depth ≠ 0 then run fuel next
      else
        let line := { s.push .newline with rest := rest, line := s.line + 1 }
        match startLine (rest.length + 1) line with
        | .ok s => run fuel s
        | .error m => .error m
    | '\\' :: '\n' :: [] => .error ⟨s.line⟩
    | '\\' :: '\n' :: rest => run fuel { s with rest := rest, line := s.line + 1 }
    | '#' :: rest => run fuel { s with rest := rest.dropWhile (· ≠ '\n') }
    | c :: rest =>
      if isInlineBlank c then run fuel { s with rest := rest }
      else
        match s.token c with
        | .ok s => run fuel s
        | .error m => .error m

end Scanner

/-- A text in which every line ends with a line feed alone. -/
def unifyLineEnds : List Char → List Char
  | '\r' :: '\n' :: rest => '\n' :: unifyLineEnds rest
  | '\r' :: rest => '\n' :: unifyLineEnds rest
  | c :: rest => c :: unifyLineEnds rest
  | [] => []

/-- The tokens of a script. -/
def tokens (text : String) : Except Malformed (List Token) := do
  let cs := unifyLineEnds text.toList
  let start ← Scanner.startLine (cs.length + 1) ⟨cs, 1, 0, [], []⟩
  Scanner.run (cs.length + 1) start

end ModelPlaybook.Script
