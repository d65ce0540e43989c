import ModelPlaybook.Yaml.Property
import ModelPlaybook.Yaml.Scalar.Block
import ModelPlaybook.Yaml.Scalar.Plain
import ModelPlaybook.Yaml.Scalar.Quoted
import ModelPlaybook.Yaml.Source

/-!
# Cutting a text into YAML tokens

Outside brackets, the column of a line decides which blocks it ends and starts.  A key is known as
one only at the colon behind it; until then its place among the tokens is kept in mind, and the
colon puts the mark of a key there.  Such a key stands on one line and is at most 1024 characters
long.  A token is settled once no mark can come before it any more.  Tokens are read no further than
it takes to settle the next one, so where the text cannot be read on, the settled tokens are all
that there is.
-/

namespace ModelPlaybook.Yaml

/-- A place where a key may have started. -/
structure PendingKey where
  /-- How many tokens stand before it. -/
  token : Nat
  /-- Whether nothing but a key can stand there. -/
  isRequired : Bool
  start : Cursor
deriving Repr

/-- The longest key that needs no mark of its own, in characters. -/
def keyLimit : Nat := 1024

/-- What has been read of a text. -/
structure Scan where
  cursor : Cursor
  tokens : Array Token
  /-- The columns of the open blocks, the innermost first. -/
  indents : List Nat
  /-- Whether a key may start here. -/
  allowsKey : Bool
  /-- The pending key of each open bracket and of the text outside, the innermost first. -/
  keys : List (Option PendingKey)

namespace Scan

def start (text : List Char) : Scan :=
  ⟨.start text, #[], [], true, [none]⟩

def inFlow (s : Scan) : Bool :=
  1 < s.keys.length

/-- The first column inside the innermost block. -/
def innerColumn (s : Scan) : Nat :=
  match s.indents with
  | [] => 0
  | column :: _ => column + 1

def push (s : Scan) (t : Token) : Scan :=
  { s with tokens := s.tokens.push t }

def move (s : Scan) (c : Cursor) : Scan :=
  { s with cursor := c }

def allowKey (s : Scan) (allowed : Bool) : Scan :=
  { s with allowsKey := allowed }

/-- Skips blanks, comments and line breaks before the next token. -/
def skipBlanks : Nat → Scan → Scan
  | 0, s => s
  | fuel + 1, s =>
    let c := s.cursor.skipSpaces.skipComment
    match c.lineBreak? with
    | none => s.move c
    | some (_, c) => skipBlanks fuel ((s.move c).allowKey (s.allowsKey || !s.inFlow))

/-- Whether a key that started at a place can no longer end here. -/
def PendingKey.isStale (key : PendingKey) (c : Cursor) : Bool :=
  key.start.line ≠ c.line || keyLimit < c.index - key.start.index

/-- Gives up the pending keys that can no longer end. -/
def dropStaleKeys (s : Scan) : Scanned Scan := do
  let keys ← s.keys.mapM fun key =>
    match key with
    | none => .ok none
    | some key =>
      if !PendingKey.isStale key s.cursor then .ok (some key)
      else if key.isRequired then s.cursor.refuse .missingColon
      else .ok none
  pure { s with keys := keys }

/-- Ends the blocks that a column is outside of. -/
def closeBlocks (s : Scan) (isOutside : Nat → Bool) : Scan :=
  if s.inFlow then s
  else
    let closed := s.indents.takeWhile isOutside
    { s with
      tokens := s.tokens ++ Array.replicate closed.length .blockEnd
      indents := s.indents.drop closed.length }

/-- Gives up the pending key of the innermost bracket. -/
def dropKey (s : Scan) : Scanned Scan :=
  match s.keys with
  | some key :: outer =>
    if key.isRequired then s.cursor.refuse .missingColon
    else .ok { s with keys := none :: outer }
  | _ => .ok s

/-- Keeps in mind that a key may start here. -/
def noteKey (s : Scan) : Scanned Scan := do
  if s.allowsKey then
    let s ← s.dropKey
    let isRequired := !s.inFlow && s.indents.head? == some s.cursor.column
    let key : PendingKey := ⟨s.tokens.size, isRequired, s.cursor⟩
    pure { s with keys := some key :: s.keys.tail }
  else pure s

/-- Opens a block at a column, if it is deeper than the innermost one. -/
def openBlock (s : Scan) (column : Nat) (place : Nat) (t : Token) : Scan :=
  if s.inFlow || column < s.innerColumn then s
  else
    { s with
      tokens := s.tokens.insertIdxIfInBounds place t
      indents := column :: s.indents }

/-- Ends every block before a token that stands outside of all. -/
def atTopLevel (s : Scan) : Scanned Scan := do
  pure ((← (s.closeBlocks fun _ => true).dropKey).allowKey false)

def documentMark (s : Scan) (t : Token) : Scanned Scan := do
  let s ← s.atTopLevel
  pure ((s.move (s.cursor.advance 3)).push t)

def openBracket (s : Scan) (t : Token) : Scanned Scan := do
  let s ← s.noteKey
  pure (((({ s with keys := none :: s.keys }).allowKey true).move s.cursor.next).push t)

def closeBracket (s : Scan) (t : Token) : Scanned Scan := do
  let s ← s.dropKey
  let keys :=
    match s.keys with
    | _ :: outer :: rest => outer :: rest
    | keys => keys
  pure (((({ s with keys := keys }).allowKey false).move s.cursor.next).push t)

def flowEntry (s : Scan) : Scanned Scan := do
  let s ← (s.allowKey true).dropKey
  pure ((s.move s.cursor.next).push .flowEntry)

def blockEntry (s : Scan) : Scanned Scan := do
  if !s.inFlow && !s.allowsKey then s.cursor.refuse .entryNotAllowed
  else
    let s := s.openBlock s.cursor.column s.tokens.size .blockSequenceStart
    let s ← (s.allowKey true).dropKey
    pure ((s.move s.cursor.next).push .blockEntry)

def keyMark (s : Scan) : Scanned Scan := do
  if !s.inFlow && !s.allowsKey then s.cursor.refuse .keyNotAllowed
  else
    let s := s.openBlock s.cursor.column s.tokens.size .blockMappingStart
    let s ← (s.allowKey !s.inFlow).dropKey
    pure ((s.move s.cursor.next).push .key)

/-- Reads the colon before a value.  If a key is pending, it becomes one. -/
def valueMark (s : Scan) : Scanned Scan := do
  let s ←
    match s.keys with
    | some key :: outer =>
      let s := { s with
        keys := none :: outer
        tokens := s.tokens.insertIdxIfInBounds key.token .key }
      pure ((s.openBlock key.start.column key.token .blockMappingStart).allowKey false)
    | _ =>
      if !s.inFlow && !s.allowsKey then s.cursor.refuse .valueNotAllowed
      else
        let s := s.openBlock s.cursor.column s.tokens.size .blockMappingStart
        (s.allowKey !s.inFlow).dropKey
  pure ((s.move s.cursor.next).push .value)

/-- Reads a token that may be, or may belong to, a key. -/
def keyPart (s : Scan) (read : Cursor → Scanned (Token × Cursor)) : Scanned Scan := do
  let s ← s.noteKey
  let (t, c) ← read s.cursor
  pure (((s.allowKey false).move c).push t)

def quoted (s : Scan) (q : QuotedScalar.Quote) : Scanned Scan :=
  s.keyPart fun c => do
    let (text, c) ← QuotedScalar.read q c
    pure (.scalar text false, c)

def blockScalar (s : Scan) : Scanned Scan := do
  let s ← (s.allowKey true).dropKey
  let (text, c) ← BlockScalar.read s.innerColumn s.cursor
  pure ((s.move c).push (.scalar text false))

def plainScalar (s : Scan) : Scanned Scan := do
  let s ← s.noteKey
  let (text, breaksLine, c) := PlainScalar.read s.inFlow s.innerColumn s.cursor
  pure (((s.allowKey breaksLine).move c).push (.scalar text true))

/-- Whether a character is a mark of its own at the start of a token. -/
def isIndicator (c : Char) : Bool :=
  "-?:,[]\x7b\x7d#&*!|>'\"%@\x60".toList.contains c

/-- Whether a plain scalar starts here. -/
def startsPlain (s : Scan) : Bool :=
  let c := s.cursor.peek
  let after := s.cursor.peekAt 1
  !(isSeparator c || isIndicator c) ||
    (!isSeparator after && (c = '-' || (!s.inFlow && (c = '?' || c = ':'))))

/-- Whether it takes the character behind the next one to tell what starts here. -/
def takesTwo (s : Scan) : Bool :=
  let c := s.cursor.peek
  ['-', '\t', '@', '\x60'].contains c || (c = '%' && s.cursor.column ≠ 0) ||
    (if s.inFlow then ['|', '>'] else ['?', ':']).contains c

/-- Looks what starts here. -/
def lookAtStart (s : Scan) : Scan :=
  let c := s.cursor
  let c := if c.column = 0 ∧ (c.peek = '-' ∨ c.peek = '.') then c.lookForSeparator else c
  s.move (if s.takesTwo then c.look 1 else c)

/-- Reads the token that starts here. -/
def token (s : Scan) : Scanned Scan :=
  let c := s.cursor.peek
  let standsAlone := isSeparator (s.cursor.peekAt 1)
  let atLineStart := s.cursor.column = 0
  if c = '%' ∧ atLineStart then do
    let s ← s.atTopLevel
    let (d, c) ← Directive.read s.cursor
    pure ((s.move c).push (.directive d))
  else if atLineStart ∧ s.cursor.atDocumentMark '-' then s.documentMark .documentStart
  else if atLineStart ∧ s.cursor.atDocumentMark '.' then s.documentMark .documentEnd
  else if c = '[' then s.openBracket .flowSequenceStart
  else if c = '\x7b' then s.openBracket .flowMappingStart
  else if c = ']' then s.closeBracket .flowSequenceEnd
  else if c = '\x7d' then s.closeBracket .flowMappingEnd
  else if c = ',' then s.flowEntry
  else if c = '-' ∧ standsAlone then s.blockEntry
  else if c = '?' ∧ (s.inFlow ∨ standsAlone) then s.keyMark
  else if c = ':' ∧ (s.inFlow ∨ standsAlone) then s.valueMark
  else if c = '*' then s.keyPart fun c => do
    let (name, c) ← anchorName c.next
    pure (.reference name, c)
  else if c = '&' then s.keyPart fun c => do
    let (name, c) ← anchorName c.next
    pure (.anchor name, c)
  else if c = '!' then s.keyPart fun c => do
    let (t, c) ← TagText.read c
    pure (.tag t, c)
  else if (c = '|' ∨ c = '>') ∧ !s.inFlow then s.blockScalar
  else if c = '\'' then s.quoted .single
  else if c = '"' then s.quoted .double
  else if s.startsPlain then s.plainScalar
  else s.cursor.refuse (.strayCharacter c)

/-- Reads the next token, or what is left to say at the end of the text. -/
def step (s : Scan) : Scanned Scan := do
  let s ← (skipBlanks (s.cursor.rest.length + 1) s).dropStaleKeys
  let s := s.closeBlocks fun column => s.cursor.column < column
  if s.cursor.atEnd then
    pure ((← s.atTopLevel).push .streamEnd)
  else s.lookAtStart.token

/-- How many tokens are settled: a mark may still come before what a pending key starts with. -/
def settled (s : Scan) : Nat :=
  s.keys.foldl (fun n key => min n ((key.map (·.token)).getD n)) s.tokens.size

def isOver (s : Scan) : Bool :=
  s.tokens.back? = some .streamEnd

/-- What a part of a scan comes to.  Beyond the characters that are there nothing counts. -/
def within (source : Source) (r : Scanned Scan) : Result Scan :=
  let stop? (seen : Nat) : Option Failure :=
    source.stop.filter fun _ => source.chars.length < seen
  match r with
  | .ok s =>
    match stop? s.cursor.seen with
    | none => .ok s
    | some f => .error f
  | .error e => .error ((stop? e.seen).getD e.failure)

/-- Reads tokens up to the end of the text, or up to the first failure.  In the latter case the
settled ones are left, as they were when the reader last asked for more. -/
def run (source : Source) : (fuel settled : Nat) → Scan → List Token × Option Failure
  | 0, settled, s => (s.tokens.toList.take settled, some (.malformed .tooDeep))
  | fuel + 1, settled, s =>
    match within source s.dropStaleKeys with
    | .error f => (s.tokens.toList.take settled, some f)
    | .ok s =>
      match within source s.step with
      | .error f => (s.tokens.toList.take s.settled, some f)
      | .ok next =>
        if next.isOver then (next.tokens.toList, none) else run source fuel s.settled next

end Scan

/-- The tokens of a source, and why there are no more if it is malformed. -/
def Source.tokens (source : Source) : List Token × Option Failure :=
  let start := Cursor.start source.chars
  let body := if start.peek = '\uFEFF' then start.next else start
  Scan.run source (source.chars.length + 1) 0 { Scan.start [] with cursor := body }

/-- The tokens of a text. -/
def tokens (text : String) : List Token × Option Failure :=
  (Source.ofText text).tokens

end ModelPlaybook.Yaml
