import ModelPlaybook.Files
import ModelPlaybook.Number.Binary64
import ModelPlaybook.Text.Encoding
import ModelPlaybook.Yaml.Failure

/-!
# Where a YAML text comes from

A text at hand is looked through for characters that no text may hold before it is read.  A file
comes load by load, and a load comes when the reader looks at a character of it.  So what is wrong
with a load is found out only after the reader has got that far.
-/

namespace ModelPlaybook.Yaml

/-- Whether a text may hold a character. -/
def isReadable (c : Char) : Bool :=
  let n := Text.codeOfChar c
  c = '\t' || c = '\n' || c = '\r' || (0x20 ≤ n && n < 0x7F) || n = 0x85 ||
    (0xA0 ≤ n && n < 0xD800) || (0xE000 ≤ n && n < 0xFFFE) || 0x10000 ≤ n

/-- The characters that a reader can look at, and what stops it behind them if that is not the end
of the text. -/
structure Source where
  chars : List Char
  stop : Option Failure
deriving DecidableEq, Repr

namespace Source

/-- A text at hand. -/
def ofText (text : String) : Source :=
  if text.toList.all isReadable then ⟨text.toList, none⟩
  else ⟨[], some (.malformed .unprintable)⟩

/-! ## Loads -/

/-- How many characters a file is asked for at once. -/
def loadSize : Nat := 4096

/-- How many characters come before the load that holds the one with an index.  The first load is
asked for twice. -/
def loadStart (index : Nat) : Nat :=
  if index < 2 * loadSize then 0 else index / loadSize * loadSize

/-- Characters that come load by load. -/
def ofLoads (chars : List Char) (stop : Option Failure) : Source :=
  if chars.all isReadable then ⟨chars, stop⟩
  else
    let index := (chars.takeWhile isReadable).length
    ⟨chars.take (loadStart index), some (.malformed .unprintable)⟩

/-! ## Files that are no text -/

/-- A character, and how many bytes of the file there are up to its end. -/
abbrev Placed := Char × Nat

/-- The characters at the start of some bytes, and how many bytes have to be met before it shows
that the bytes behind them are no text.  The end of the bytes counts as one more.  The first `skip`
bytes belong to a character before. -/
def decode : Nat → Nat → List Nat → List Placed × Nat
  | _, place, [] => ([], place + 1)
  | skip + 1, place, _ :: rest => decode skip (place + 1) rest
  | 0, place, first :: rest =>
    match Text.Encoding.front8 first rest with
    | .code n size =>
      let (more, met) := decode (size - 1) (place + 1) rest
      ((Text.charOfCode n, place + size) :: more, met)
    | .bad size _ =>
      ([], if (Text.Encoding.size? first).isNone then place + size else place + size + 1)

/-- How many characters some first bytes of a file give.  An end of a line is held back until it is
known what follows it. -/
def given (chars : List Placed) (bytes : Nat) : Nat :=
  let read := (chars.takeWhile (·.2 ≤ bytes)).map (·.1)
  (Text.unifyLines (if read.getLast? = some '\r' then read.dropLast else read)).length

/-- The least number of bytes that are taken from a file at once. -/
def chunkSize : Nat := 8192

/-- How many bytes are taken for some characters, if the last ones took `ratio` bytes a piece. -/
def bytesFor (chars : Nat) (ratio : Binary64) : Nat :=
  let one := Binary64.ofInt 1
  let factor := if Binary64.compare? ratio one = some .gt then ratio else one
  max chunkSize ((factor.mul (.ofInt chars)).truncate?.getD 0).toNat

/-- How many characters are there when bytes that are no text are met.  `asked` counts those asked
for so far. -/
def loaded (chars : List Placed) (size met : Nat) :
    (fuel bytes : Nat) → (ratio : Binary64) → (asked : Nat) → Nat
  | 0, _, _, asked => asked - loadSize
  | fuel + 1, bytes, ratio, asked =>
    let there := given chars bytes
    if asked ≤ there then loaded chars size met fuel bytes ratio (asked + loadSize)
    else
      let next := min size (bytes + bytesFor (asked - there) ratio)
      if met ≤ next ∨ next = bytes then asked - loadSize
      else
        let new := given chars next - there
        let ratio := if new = 0 then .ofInt 0 else .ofQuotient false (next - bytes) new
        loaded chars size met fuel next ratio asked

/-- A file. -/
def ofFile (content : List UInt8) : Source :=
  match Text.ofBytes content with
  | .ok text => ofLoads text.toList none
  | .error f =>
    let (chars, met) := decode 0 0 (content.map UInt8.toNat)
    let size := content.length
    let count := loaded chars size met (2 * size + 2) 0 (.ofInt 0) loadSize
    ofLoads ((Text.unifyLines (chars.map (·.1))).take (loadStart count)) (some (.misfit f))

end Source

end ModelPlaybook.Yaml
