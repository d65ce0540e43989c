import ModelPlaybook.Text.Digits
import ModelPlaybook.Number.WholeText
import ModelPlaybook.Yaml.Cursor
import ModelPlaybook.Yaml.Token

/-!
# Anchors, tags and directives

The marks that stand before a node, and the lines before a document.
-/

namespace ModelPlaybook.Yaml

/-- The characters after which the name of an anchor may end. -/
def endsAnchor (c : Char) : Bool :=
  isSeparator c || ['?', ':', ',', ']', '\x7d', '%', '@', '\x60'].contains c

/-- Reads the name of an anchor or an alias after its mark. -/
def anchorName (c : Cursor) : Scanned (String × Cursor) :=
  let (name, c) := c.spanWhile isNameChar
  if name.isEmpty || !endsAnchor c.peek then c.refuse .anchorName
  else .ok (String.ofList name, c)

namespace TagText

/-- The characters that the name of a tag is made of; a percent sign starts an escape. -/
def isAddressChar (c : Char) : Bool :=
  c.isAlphanum || "-;/?:@&=+$,_.!~*'()[]".toList.contains c

/-- Whether a tag, a handle or a prefix may end before a character. -/
def endsTag (c : Char) : Bool :=
  c = ' ' || isBreakOrEnd c

/-- The bytes of a run of escapes, and the place after it. -/
def escapedBytes : Nat → Cursor → Scanned (List UInt8 × Cursor)
  | 0, c => .ok ([], c)
  | fuel + 1, c =>
    if c.peek = '%' then do
      let (n, c) ← c.next.hexNumber 2 .tagEscape
      let (more, c) ← escapedBytes fuel (c.advance 2)
      pure (UInt8.ofNat n :: more, c)
    else .ok ([], c)

/-- Reads the characters of an address; a run of escapes is one text in UTF-8. -/
def addressChars : Nat → Cursor → Scanned (List Char × Cursor)
  | 0, c => .ok ([], c)
  | fuel + 1, c => do
    if c.peek = '%' then
      let (bytes, c) ← escapedBytes (c.rest.length + 1) c
      match String.fromUTF8? ⟨bytes.toArray⟩ with
      | some s =>
        let (more, c) ← addressChars fuel c
        pure (s.toList ++ more, c)
      | none => c.refuse .tagEscape
    else if isAddressChar c.peek then
      let (run, c) := c.spanWhile isAddressChar
      let (more, c) ← addressChars fuel c
      pure (run ++ more, c)
    else pure ([], c)

def address (c : Cursor) : Scanned (String × Cursor) := do
  let (cs, after) ← addressChars (c.rest.length + 1) c
  if after.index = c.index then after.refuse .tagAddress else pure (String.ofList cs, after)

/-- Reads a handle: an exclamation mark, or a name between two of them. -/
def handle (c : Cursor) : Scanned (String × Cursor) :=
  if c.peek ≠ '!' then c.refuse .tagHandle
  else if c.peekAt 1 = ' ' then .ok ("!", c.next)
  else
    let (name, c) := c.next.spanWhile isNameChar
    if c.peek = '!' then .ok ("!" ++ String.ofList name ++ "!", c.next) else c.refuse .tagHandle

/-- Looks for the exclamation mark that ends the handle of a tag. -/
def lookForHandle (c : Cursor) : Cursor :=
  c.look (1 + (c.next.rest.takeWhile fun d => !endsTag d && d ≠ '!').length)

/-- Reads a tag at its exclamation mark. -/
def read (c : Cursor) : Scanned (TagText × Cursor) := do
  let (t, c) ←
    if c.peekAt 1 = '<' then do
      let (name, c) ← address (c.advance 2)
      if c.peek = '>' then pure (TagText.whole name, c.next) else c.refuse .tagTail
    else if isSeparator (c.peekAt 1) then pure (TagText.whole "!", c.next)
    else if (c.next.rest.takeWhile (!endsTag ·)).contains '!' then do
      let (h, c) ← handle (lookForHandle c)
      let (suffix, c) ← address c
      pure (TagText.short h suffix, c)
    else do
      let (suffix, c) ← address (lookForHandle c).next
      pure (TagText.short "!" suffix, c)
  if endsTag c.peek then pure (t, c) else c.refuse .tagTail

end TagText

namespace Directive

/-- The number that a run of digits writes; too many digits are no number. -/
def number (c : Cursor) : Scanned (Nat × Cursor) :=
  let (digits, c) := c.spanWhile Text.isAsciiDigit
  if digits.isEmpty then c.refuse .directiveNumber
  else if Text.integerDigitLimit < digits.length then
    c.result (.error (.misfit (WholeText.tooLong digits.length)))
  else .ok (Text.natOfDigits digits, c)

/-- Reads what follows the name of a directive, up to the end of its meaning. -/
def body (name : String) (c : Cursor) : Scanned (Directive × Cursor) := do
  if name = "YAML" then
    let (major, c) ← number c.skipSpaces
    if c.peek ≠ '.' then c.refuse .directiveNumber
    else
      let (minor, c) ← number c.next
      if TagText.endsTag c.peek then pure (.version major minor, c) else c.refuse .directiveNumber
  else if name = "TAG" then
    let (handle, c) ← TagText.handle c.skipSpaces
    if c.peek ≠ ' ' then c.refuse .tagTail
    else
      let (expansion, c) ← TagText.address c.skipSpaces
      if TagText.endsTag c.peek then pure (.shorthand handle expansion, c) else c.refuse .tagTail
  else pure (.other name, c.skipWhile (!isBreak ·))

/-- Reads a directive at its percent sign, and the rest of its line. -/
def read (c : Cursor) : Scanned (Directive × Cursor) := do
  let (name, c) := c.next.spanWhile isNameChar
  if name.isEmpty || !TagText.endsTag c.peek then c.refuse .directiveName
  else
    let (d, c) ← body (String.ofList name) c
    let c := c.skipSpaces.skipComment
    if isBreakOrEnd c.peek then pure (d, c.skipLineBreak) else c.refuse .directiveTail

end Directive

end ModelPlaybook.Yaml
