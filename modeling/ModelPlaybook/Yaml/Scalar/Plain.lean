import ModelPlaybook.Yaml.Cursor

/-!
# Plain scalars

A scalar without quotes goes on over blanks and line breaks, as long as its lines are indented
deeply enough, and ends before a comment, before a colon that is followed by a blank, and inside
brackets before a mark of the bracketed collection.
-/

namespace ModelPlaybook.Yaml.PlainScalar

/-- The marks that end a word inside brackets. -/
def isFlowMark (c : Char) : Bool :=
  [',', '?', '[', ']', '\x7b', '\x7d'].contains c

/-- The marks before which a colon ends a word inside brackets. -/
def isFlowMarkAfterColon (c : Char) : Bool :=
  [',', '[', ']', '\x7b', '\x7d'].contains c

/-- The longest word at the start of a text. -/
def word (inFlow : Bool) : List Char → List Char
  | [] => []
  | c :: rest =>
    let after := rest.head?.getD endMark
    let endsAtColon := c = ':' && (isSeparator after || (inFlow && isFlowMarkAfterColon after))
    if isSeparator c || endsAtColon || (inFlow && isFlowMark c) then []
    else c :: word inFlow rest

/-- Looks for the end of a word.  Behind a colon one more character is looked at. -/
def lookForEnd (word : List Char) (c : Cursor) : Cursor :=
  c.look (if c.peekAt word.length = ':' then word.length + 1 else word.length)

/-- What stands between two words: the text it counts as, whether it holds a line break, and the
place after it.  It counts as nothing where no word can follow. -/
structure Gap where
  text : List Char
  breaksLine : Bool
  after : Cursor

/-- The line breaks of the blank lines that follow, and the place after them; none if they lead to
a document separator. -/
def blankLines : Nat → Cursor → Option (List Char) × Cursor
  | 0, c => (some [], c)
  | fuel + 1, c =>
    let c := c.skipSpaces
    match c.lineBreak? with
    | none => (some [], c)
    | some (b, c) =>
      let c := c.lookForSeparator
      if c.atDocumentSeparator then (none, c)
      else
        let (more, c) := blankLines fuel c
        (more.map (b :: ·), c)

def Gap.read (c : Cursor) : Gap :=
  let (spaces, c) := c.spanWhile (· = ' ')
  match c.lineBreak? with
  | none => ⟨spaces, false, c⟩
  | some (b, c) =>
    let c := c.lookForSeparator
    if c.atDocumentSeparator then ⟨[], true, c⟩
    else
      match blankLines (c.rest.length + 1) c with
      | (none, c) => ⟨[], true, c⟩
      | (some more, c) =>
        ⟨if b ≠ '\n' then b :: more else if more.isEmpty then [' '] else more, true, c⟩

/-- The words of a scalar and the gaps between them, whether the last gap holds a line break, and
the place after it. -/
def words (inFlow : Bool) (least : Nat) : Nat → Bool → Cursor → List Char × Bool × Cursor
  | 0, broken, c => ([], broken, c)
  | fuel + 1, broken, c =>
    let w := word inFlow c.rest
    if c.peek = '#' then ([], broken, c)
    else if w.isEmpty then ([], broken, lookForEnd w c)
    else
      let gap := Gap.read ((lookForEnd w c).advance w.length)
      if gap.text.isEmpty ∨ (!inFlow ∧ gap.after.column < least) then (w, gap.breaksLine, gap.after)
      else
        let (more, rest) := words inFlow least fuel gap.breaksLine gap.after
        (if more.isEmpty then w else w ++ gap.text ++ more, rest)

/-- Reads a plain scalar.  `least` is the column that its further lines have to reach. -/
def read (inFlow : Bool) (least : Nat) (c : Cursor) : String × Bool × Cursor :=
  let (text, broken, c) := words inFlow least (c.rest.length + 1) false c
  (String.ofList text, broken, c)

end ModelPlaybook.Yaml.PlainScalar
