import ModelPlaybook.Text.CodePoint
import ModelPlaybook.Text.Printable

/-!
# Quoted text

The way a text or a run of bytes is shown inside a message.  A single quote surrounds it unless it
holds a single quote and no double quote; then a double quote does.
-/

namespace ModelPlaybook.Text

/-- One lower-case hexadecimal digit. -/
def hexDigit (n : Nat) : Char :=
  Nat.digitChar n

/-- A number as exactly `width` lower-case hexadecimal digits (its low ones). -/
def hexDigits (width n : Nat) : List Char :=
  (List.range width).reverse.map fun i => hexDigit (n / 16 ^ i % 16)

def escapeByNumber (n : Nat) : List Char :=
  if n < 0x100 then '\\' :: 'x' :: hexDigits 2 n
  else if n < 0x10000 then '\\' :: 'u' :: hexDigits 4 n
  else '\\' :: 'U' :: hexDigits 8 n

def quoteFor (cs : List Char) : Char :=
  if cs.contains '\'' && !cs.contains '"' then '"' else '\''

def quotedChar (quote c : Char) : List Char :=
  if c = quote || c = '\\' then ['\\', c]
  else if c = '\n' then ['\\', 'n']
  else if c = '\r' then ['\\', 'r']
  else if c = '\t' then ['\\', 't']
  else if isPrintable c then [c]
  else escapeByNumber (codeOfChar c)

/-- A text in quotes, with backslash escapes for the quote, the backslash, the three common
control characters and every unprintable character. -/
def quoted (s : String) : String :=
  let cs := s.toList
  let quote := quoteFor cs
  String.ofList (quote :: (cs.flatMap (quotedChar quote) ++ [quote]))

/-- A text in which every character beyond ASCII is escaped. -/
def asciiOnly (s : String) : String :=
  String.ofList (s.toList.flatMap fun c =>
    if c.toNat < 128 then [c] else escapeByNumber (codeOfChar c))

def quotedByte (quote : Char) (n : Nat) : List Char :=
  if n = quote.toNat || n = '\\'.toNat then ['\\', Char.ofNat n]
  else if n = 10 then ['\\', 'n']
  else if n = 13 then ['\\', 'r']
  else if n = 9 then ['\\', 't']
  else if 32 ≤ n && n < 127 then [Char.ofNat n]
  else '\\' :: 'x' :: hexDigits 2 n

/-- A run of bytes in quotes behind the letter `b`; what is not printable ASCII is written in
hexadecimal. -/
def quotedBytes (bytes : List UInt8) : String :=
  let codes := bytes.map UInt8.toNat
  let quote := quoteFor (codes.map Char.ofNat)
  String.ofList ('b' :: quote :: (codes.flatMap (quotedByte quote) ++ [quote]))

/-- Texts joined by a separator. -/
def join (separator : String) (parts : List String) : String :=
  separator.intercalate parts

end ModelPlaybook.Text
