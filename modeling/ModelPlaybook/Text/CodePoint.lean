import ModelPlaybook.Number.Exponent

/-!
# Code points

Text holds code points below 0x110000.  Among them are the surrogates 0xD800 to 0xDFFF, halves of
pairs that are no characters by themselves; an escape can name one all the same.  A surrogate that
stands alone is kept as a character of private use, 0xF0000 above it.
-/

namespace ModelPlaybook.Text

/-- Whether a code point is half of a pair. -/
def isSurrogate (n : Nat) : Bool :=
  0xD800 ≤ n && n < 0xE000

/-- How far above a surrogate its stand-in lies. -/
def surrogateShift : Nat := 0xF0000

/-- The character that a code point below 0x110000 is kept as. -/
def charOfCode (n : Nat) : Char :=
  Char.ofNat (if isSurrogate n then n + surrogateShift else n)

/-- The code point that a character stands for. -/
def codeOfChar (c : Char) : Nat :=
  let n := c.toNat - surrogateShift
  if isSurrogate n then n else c.toNat

/-- Whether a text can be encoded: no half of a pair stands alone in it. -/
def isEncodable (s : String) : Bool :=
  s.toList.all fun c => !isSurrogate (codeOfChar c)

/-- A text with marks in place of each byte that a half of a pair would take. -/
def encodable (s : String) : String :=
  String.ofList (s.toList.flatMap fun c =>
    if isSurrogate (codeOfChar c) then List.replicate 3 '\uFFFD' else [c])

end ModelPlaybook.Text
