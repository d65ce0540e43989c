import ModelPlaybook.Fault
import ModelPlaybook.Number.Reading
import ModelPlaybook.Number.WholeText
import ModelPlaybook.Schema.Issue
import ModelPlaybook.Text.Blank
import ModelPlaybook.Value.Equality

/-!
# Checks of fields

A field is read from the entries of a mapping by its key, or by an alias that goes before the key.
Whatever no field has claimed is kept in order.
-/

namespace ModelPlaybook.Schema

/-- The name under which a key appears in the path of an issue. -/
def keyPart (key : Value) : String :=
  match key with
  | .text s => Text.encodable s
  | .bool b => if b then "1" else "0"
  | k =>
    match k.writeShown with
    | .ok s => s
    | .error _ => "<unprintable " ++ k.typeName ++ " object>"

/-- The name of a field that a key stands for. -/
def fieldName? (key : Value) : Option String :=
  key.text?.filter Text.isEncodable

theorem text?_of_fieldName? {key : Value} {name : String} (hname : fieldName? key = some name) :
    key.text? = some name :=
  (Option.filter_eq_some_iff.mp hname).1

/-- The text that a text is, or that bytes encode; bytes that encode none are a problem of the kind
given. -/
def textual? (unreadable : Problem) (v : Value) : Option (Checked String) :=
  match v with
  | .text s => some (.valid s)
  | .bytes content =>
    some ((String.fromUTF8? ⟨content.toArray⟩).elim (.fail unreadable) .valid)
  | _ => none

def text (v : Value) : Checked String :=
  (textual? .undecodable v).getD (.fail .notText)

/-- A version: a text, or the text of a number. -/
def versionText (v : Value) : Checked String :=
  match v with
  | .int n => if WholeText.isWritable n then .valid (toString n)
    else .fail (.rule WholeText.unwritable.text)
  | .float x => .valid x.text
  | v => text v

/-! ## Whole numbers -/

/-- Drops the zeros at the start of a numeral, and the underscores between them; one character
stays.  A numeral starts with a digit or a minus sign. -/
def dropLeadingZeros : List Char → Option (List Char)
  | '0' :: rest => behindZeros '0' rest
  | c :: rest => if ('1' ≤ c ∧ c ≤ '9') ∨ c = '-' then some (c :: rest) else none
  | [] => none
where
  /-- The zeros end at a digit, at a point, or with the numeral. -/
  behindZeros (last : Char) : List Char → Option (List Char)
    | [] => some [last]
    | c :: rest =>
      if c = '0' ∨ c = '_' then behindZeros c rest
      else if '1' ≤ c ∧ c ≤ '9' then some (c :: rest)
      else if c = '.' then some (last :: c :: rest)
      else none

/-- Drops a point with nothing but zeros behind it, of which there is one at least. -/
def dropFraction (cs : List Char) : Option (List Char) :=
  match cs.dropWhile (· ≠ '.') with
  | [] => some cs
  | _ :: zeros =>
    if zeros ≠ [] ∧ zeros.all (· = '0') then some (cs.takeWhile (· ≠ '.')) else none

/-- Drops the underscores of a numeral, which stand alone and inside it. -/
def dropUnderscores (cs : List Char) : Option (List Char) :=
  let doubled := (cs.zip cs.tail).any fun (a, b) => a = '_' ∧ b = '_'
  if doubled ∨ cs.head? = some '_' ∨ cs.getLast? = some '_' then none
  else some (cs.filter (· ≠ '_'))

/-- The characters that matter of a numeral. -/
def essentialDigits (s : String) : Option (List Char) := do
  let cs :=
    match Text.numeralChars s with
    | '+' :: rest => if rest.head? = some '-' then [] else rest
    | cs => cs
  dropUnderscores (← dropFraction (← dropLeadingZeros cs))

/-- Reads the text of a whole number: digits with single underscores between them, a sign, and
zeros before and behind. -/
def wholeOfText (s : String) : Checked Int :=
  match essentialDigits s with
  | none => .fail .unreadableWhole
  | some cs =>
    if Text.integerDigitLimit < cs.length then .fail .tooLongWhole
    else
      let (negative, ds) :=
        match cs with
        | '-' :: ds => (true, ds)
        | ds => (false, ds)
      if ds ≠ [] ∧ ds.all Text.isAsciiDigit then
        .valid (if negative then -(Text.natOfDigits ds : Int) else Text.natOfDigits ds)
      else .fail .unreadableWhole

/-- The bound of the whole numbers that doubles are turned into. -/
def wordBound : Int := 2 ^ (63 : Nat)

/-- The whole number that a double without a fraction is. -/
def wholeOfFloat (x : Binary64) : Checked Int :=
  match x.toWhole? .floor, x.toWhole? .ceiling with
  | some n, some m =>
    if n ≠ m then .fail .fractional
    else if -wordBound < n ∧ n < wordBound then .valid n
    else .fail .tooLongWhole
  | _, _ => .fail .notFinite

/-- The whole number that a decimal without a fraction is. -/
def wholeOfDecimal (d : Decimal) : Checked Int :=
  match d.toWhole? .floor, d.toWhole? .ceiling with
  | some n, some m => if n = m then .valid n else .fail .fractional
  | _, _ => .fail .notFinite

/-- Reads a whole number.  Numbers without a fraction, truth values and numeric texts count. -/
def whole (v : Value) : Checked Int :=
  match v with
  | .int n => .valid n
  | .bool b => .valid (if b then 1 else 0)
  | .float x => wholeOfFloat x
  | .decimal d => wholeOfDecimal d
  | v =>
    match textual? .unreadableWhole v with
    | some text => text.andThen wholeOfText
    | none => .fail .notWhole

/-! ## Truth values and doubles -/

/-- The words for truth values, in any case. -/
def boolWords : List (String × Bool) := [
  ("0", false), ("off", false), ("f", false), ("false", false), ("n", false), ("no", false),
  ("1", true), ("on", true), ("t", true), ("true", true), ("y", true), ("yes", true)]

def boolOfText (s : String) : Checked Bool :=
  match boolWords.lookup (String.ofList (s.toList.map Char.toLower)) with
  | some b => .valid b
  | none => .fail .unclearBool

/-- Only zero and one are truth values. -/
def boolOfWhole (n : Int) : Checked Bool :=
  if n = 0 then .valid false else if n = 1 then .valid true else .fail .unclearBool

/-- The truth value that a double is; one that is no whole number is none. -/
def boolOfFloat (x : Binary64) : Checked Bool :=
  match wholeOfFloat x with
  | .valid n => boolOfWhole n
  | .invalid _ => .fail .notBool

/-- Reads a truth value.  The numbers zero and one and some words count. -/
def bool (v : Value) : Checked Bool :=
  match v with
  | .bool b => .valid b
  | .int n => if -wordBound ≤ n ∧ n < wordBound then boolOfWhole n else boolOfFloat (.ofInt n)
  | .float x => boolOfFloat x
  | .decimal d => if d.isSignaling then .fail .notBool else boolOfFloat d.toBinary64
  | v =>
    match textual? .unclearBool v with
    | some text => text.andThen boolOfText
    | none => .fail .notBool

/-- A double that a text writes with digits of ASCII. -/
def plainNumberOfText? (cs : List Char) : Option Binary64 :=
  if cs.all fun c => c.toNat < 128 ∧ c ≠ '_' then Binary64.ofChars? cs else none

/-- Reads the text of a double; underscores stand alone between other characters. -/
def numberOfText (s : String) : Checked Binary64 :=
  let direct := plainNumberOfText? (Text.numeralChars s)
  match direct.or ((dropUnderscores s.toList).bind plainNumberOfText?) with
  | some x => .valid x
  | none => .fail .unreadableNumber

/-- Reads a double.  Whole numbers, decimals and numeric texts count. -/
def number (v : Value) : Checked Binary64 :=
  match v with
  | .float x => .valid x
  | .int n => if (Binary64.ofInt n).isFinite then .valid (.ofInt n) else .fail .notNumber
  | .decimal d => if d.isSignaling then .fail .notNumber else .valid d.toBinary64
  | v =>
    match textual? .unreadableNumber v with
    | some text => text.andThen numberOfText
    | none => .fail .notNumber

def atLeast (least : Int) (n : Int) : Checked Int :=
  if least ≤ n then .valid n else .fail (.tooSmall least)

/-- Reads a list, for which a tuple or a set counts too. -/
def listOf {α : Type} (item : Value → Checked α) (v : Value) : Checked (List α) :=
  match v with
  | .list items => Checked.all item 0 items
  | .tuple items => Checked.all item 0 items
  | .set items => Checked.all item 0 items
  | .frozenSet items => Checked.all item 0 items
  | _ => .fail .notList

/-- What counts as a list: lists, tuples and sets. -/
def items? (v : Value) : Option (List Value) :=
  v.sequence?.or v.elements?

/-- The field that a mapping holds under one of the given keys, the first of which goes first. -/
def claim? (entries : Entries) (keys : List String) : Option (String × Value) :=
  keys.findSome? fun key => (entries.get? key).map (key, ·)

/-- A field that has to be there. -/
def required {α : Type} (entries : Entries) (keys : List String) (check : Value → Checked α) :
    Checked α :=
  match claim? entries keys with
  | some (key, v) => (check v).under key
  | none => (Checked.fail .missing).under (keys.headD "")

/-- A field that may be absent. -/
def withDefault {α : Type} (entries : Entries) (key : String) (absent : α)
    (check : Value → Checked α) : Checked α :=
  match entries.get? key with
  | some v => (check v).under key
  | none => .valid absent

/-- The entries that no field has claimed; their keys have to be names of fields. -/
def unclaimed (entries : Entries) (claimed : List String) : Checked Entries :=
  match entries with
  | [] => .valid []
  | (key, v) :: rest =>
    match fieldName? key with
    | some name =>
      (unclaimed rest claimed).map fun more =>
        if claimed.contains name then more else (key, v) :: more
    | none =>
      (Checked.both ((Checked.fail .keyNotText).under (keyPart key)) (unclaimed rest claimed)).map
        fun ((), more) => more

/-- The entries of a mapping that is to be read as a record of the given kind. -/
def record {α : Type} (kind : String) (check : Entries → Checked α) (v : Value) : Checked α :=
  match v.entries? with
  | some entries => check entries
  | none => .fail (.notInstance kind)

/-- The fault of a document with a key that is not a text. -/
def badKey : Fault := .ofType "keywords must be strings"

def hasTextKeys (entries : Entries) : Bool :=
  entries.all fun entry => entry.1.text?.isSome

end ModelPlaybook.Schema
