/-!
# Blank characters

The characters that separate words in every text this library reads: the blanks of ASCII, the
four information separators, and the blanks of Unicode.  `trim` drops them at both ends.  Around
numerals the separators are no blanks.
-/

namespace ModelPlaybook.Text

/-- The code points that count as blank: ASCII blanks and separators, `U+0085`, and the space,
line and paragraph separators of Unicode. -/
def isBlankCode (n : Nat) : Bool :=
  (9 ≤ n && n ≤ 13) || (28 ≤ n && n ≤ 32) || n == 0x85 || n == 0xA0 || n == 0x1680 ||
    (0x2000 ≤ n && n ≤ 0x200A) || n == 0x2028 || n == 0x2029 || n == 0x202F || n == 0x205F ||
    n == 0x3000

def isBlank (c : Char) : Bool :=
  isBlankCode c.toNat

/-- The blanks of Unicode alone, to which the information separators do not belong. -/
def isUnicodeBlank (c : Char) : Bool :=
  isBlank c && !(28 ≤ c.toNat && c.toNat ≤ 31)

/-- The characters of a numeral without the blanks at its ends. -/
def numeralChars (s : String) : List Char :=
  ((s.toList.dropWhile isUnicodeBlank).reverse.dropWhile isUnicodeBlank).reverse

def trimLeftChars (cs : List Char) : List Char :=
  cs.dropWhile isBlank

def trimRightChars (cs : List Char) : List Char :=
  (cs.reverse.dropWhile isBlank).reverse

def trimChars (cs : List Char) : List Char :=
  trimRightChars (trimLeftChars cs)

/-- A text without the blanks at its two ends. -/
def trim (s : String) : String :=
  String.ofList (trimChars s.toList)

/-- Whether a text holds nothing but blanks. -/
def isAllBlank (s : String) : Bool :=
  s.toList.all isBlank

end ModelPlaybook.Text
