import ModelPlaybook.Text.CodePoint
import ModelPlaybook.Text.Quoted

/-!
# Strings of JSON

How a text is written between quotes, with all characters or in ASCII only, and the escapes that
stand for characters.
-/

namespace ModelPlaybook.Json

/-- One UTF-16 unit by number. -/
def escapedUnit (n : Nat) : List Char :=
  '\\' :: 'u' :: Text.hexDigits 4 n

/-- The escape of a character that is not written as itself. -/
def shortEscape? (c : Char) : Option (List Char) :=
  if c = '"' then some ['\\', '"']
  else if c = '\\' then some ['\\', '\\']
  else if c = '\n' then some ['\\', 'n']
  else if c = '\r' then some ['\\', 'r']
  else if c = '\t' then some ['\\', 't']
  else if c.toNat = 8 then some ['\\', 'b']
  else if c.toNat = 12 then some ['\\', 'f']
  else none

/-- A code point as one UTF-16 unit or as two. -/
def escapedCode (n : Nat) : List Char :=
  if n < 0x10000 then escapedUnit n
  else
    let m := n - 0x10000
    escapedUnit (0xD800 + m / 0x400) ++ escapedUnit (0xDC00 + m % 0x400)

/-- A character inside a string. -/
def escapedChar (asciiOnly : Bool) (c : Char) : List Char :=
  match shortEscape? c with
  | some escape => escape
  | none =>
    if c.toNat < 32 || (asciiOnly && 126 < c.toNat) then escapedCode (Text.codeOfChar c)
    else [c]

/-- A text as a string. -/
def quotedWith (asciiOnly : Bool) (s : String) : String :=
  String.ofList ('"' :: (s.toList.flatMap (escapedChar asciiOnly) ++ ['"']))

/-- A text as a string in ASCII. -/
def quoted (s : String) : String :=
  quotedWith true s

def boolText (b : Bool) : String :=
  if b then "true" else "false"

def hexValue? (c : Char) : Option Nat :=
  if '0' ≤ c ∧ c ≤ '9' then some (c.toNat - '0'.toNat)
  else if 'a' ≤ c ∧ c ≤ 'f' then some (c.toNat - 'a'.toNat + 10)
  else if 'A' ≤ c ∧ c ≤ 'F' then some (c.toNat - 'A'.toNat + 10)
  else none

/-- The number that hexadecimal digits write. -/
def hexNumber? (cs : List Char) : Option Nat :=
  cs.foldl (fun n c => do pure (16 * (← n) + (← hexValue? c))) (some 0)

/-- The character that a letter behind a backslash stands for. -/
def simpleEscape? (c : Char) : Option Char :=
  match c with
  | '"' => some '"'
  | '\\' => some '\\'
  | '/' => some '/'
  | 'b' => some (Char.ofNat 8)
  | 'f' => some (Char.ofNat 12)
  | 'n' => some '\n'
  | 'r' => some '\r'
  | 't' => some '\t'
  | _ => none

end ModelPlaybook.Json
