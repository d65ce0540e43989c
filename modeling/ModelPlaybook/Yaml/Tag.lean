import ModelPlaybook.Text.Digits

/-!
# Tags and the types of plain scalars

A tag says what kind of value a node is.  A scalar without a tag and without quotes has the first
kind whose pattern its text fits.
-/

namespace ModelPlaybook.Yaml

inductive Tag where
  | null
  | bool
  | int
  | float
  | text
  | timestamp
  | binary
  /-- The key that merges other mappings into its own. -/
  | merge
  /-- The key of a mapping's main value. -/
  | standard
  | sequence
  | mapping
  | set
  | pairs
  | unknown (name : String)
deriving DecidableEq, Repr

namespace Tag

/-- What the names of all common tags start with. -/
def commonPrefix : String := "tag:yaml.org,2002:"

def common : List (String × Tag) :=
  [("null", null), ("bool", bool), ("int", int), ("float", float), ("str", text),
    ("timestamp", timestamp), ("binary", binary), ("merge", merge), ("value", standard),
    ("seq", sequence), ("map", mapping), ("set", set), ("omap", pairs), ("pairs", pairs)]

def ofName (name : String) : Tag :=
  match common.find? fun entry => commonPrefix ++ entry.1 == name with
  | some (_, tag) => tag
  | none => unknown name

end Tag

/-! ## Patterns -/

namespace Pattern

def dropSign : List Char → List Char
  | '-' :: rest => rest
  | '+' :: rest => rest
  | cs => cs

def isSigned (cs : List Char) : Bool :=
  cs.head? = some '-' || cs.head? = some '+'

def isGroupedDigit (c : Char) : Bool :=
  Text.isAsciiDigit c || c = '_'

/-- Digits with underscores anywhere after the first one. -/
def isGrouped (cs : List Char) : Bool :=
  cs.head?.any Text.isAsciiDigit && cs.all isGroupedDigit

/-- Nothing, or a mark, a sign and digits. -/
def isExponent : List Char → Bool
  | [] => true
  | mark :: sign :: digits =>
    (mark = 'e' || mark = 'E') && (sign = '-' || sign = '+') && !digits.isEmpty &&
      digits.all Text.isAsciiDigit
  | _ => false

/-- Digits with underscores, perhaps none, and then an exponent. -/
def isFraction (cs : List Char) : Bool :=
  isExponent (cs.dropWhile isGroupedDigit)

/-- A text cut at every colon. -/
def atColons (cs : List Char) : List (List Char) :=
  match cs with
  | [] => [[]]
  | ':' :: rest => [] :: atColons rest
  | c :: rest =>
    match atColons rest with
    | [] => [[c]]
    | part :: parts => (c :: part) :: parts

/-- A number below sixty, with one or two digits. -/
def isSixtieth : List Char → Bool
  | [d] => Text.isAsciiDigit d
  | [t, d] => ('0' ≤ t && t ≤ '5') && Text.isAsciiDigit d
  | _ => false

/-- A number in base sixty: at least two parts. -/
def isSexagesimal (startsWell : List Char → Bool) (cs : List Char) : Bool :=
  match atColons cs with
  | first :: part :: parts => startsWell first && (part :: parts).all isSixtieth
  | _ => false

def infinityNames : List (List Char) := ["inf", "Inf", "INF"].map String.toList

def nanNames : List (List Char) := ["nan", "NaN", "NAN"].map String.toList

/-- A fraction in base ten or sixty, or the name of an infinity or of no number.  There is always a
point, and no sign stands before one. -/
def isFloat (cs : List Char) : Bool :=
  let body := dropSign cs
  match body.dropWhile (· ≠ '.') with
  | [] => false
  | _ :: fraction =>
    let whole := body.takeWhile (· ≠ '.')
    if whole.isEmpty then
      infinityNames.contains fraction ||
        (!isSigned cs && (nanNames.contains fraction ||
          (fraction.head?.any Text.isAsciiDigit && isFraction fraction)))
    else
      (isGrouped whole && isFraction fraction) ||
        (isSexagesimal isGrouped whole && fraction.all isGroupedDigit)

def isNonzeroGrouped (cs : List Char) : Bool :=
  isGrouped cs && cs.head? ≠ some '0'

/-- A whole number: in base two, eight, ten, sixteen or sixty. -/
def isInt (cs : List Char) : Bool :=
  match dropSign cs with
  | ['0'] => true
  | '0' :: 'b' :: digits =>
    !digits.isEmpty && digits.all fun c => c = '0' || c = '1' || c = '_'
  | '0' :: 'x' :: digits =>
    !digits.isEmpty && digits.all fun c =>
      isGroupedDigit c || ('a' ≤ c && c ≤ 'f') || ('A' ≤ c && c ≤ 'F')
  | '0' :: digits => digits.all fun c => ('0' ≤ c && c ≤ '7') || c = '_'
  | body => isNonzeroGrouped body || isSexagesimal isNonzeroGrouped body

def boolWords : List String :=
  ["yes", "Yes", "YES", "no", "No", "NO", "true", "True", "TRUE", "false", "False", "FALSE",
    "on", "On", "ON", "off", "Off", "OFF"]

def nullWords : List String := ["~", "null", "Null", "NULL"]

end Pattern

end ModelPlaybook.Yaml
