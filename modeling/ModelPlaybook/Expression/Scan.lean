import ModelPlaybook.Expression.Error
import ModelPlaybook.Number.Reading
import ModelPlaybook.Text.Blank

/-!
# Reading tokens

A text is cut into tokens from left to right, each as long as it can be; blanks between tokens are
skipped.  The first place where no token fits stops the scan, and the tokens before it are kept.
-/

namespace ModelPlaybook.Expression

/-- Which tokens a text may hold: conditions have comparators, expressions do not. -/
inductive Dialect where
  | arithmetic
  | condition
deriving DecidableEq, Repr

def isNumberChar (c : Char) : Bool :=
  Text.isAsciiDigit c || c = '.'

def isNameChar (c : Char) : Bool :=
  c.isAlphanum || c = '_'

/-- Whether a numeric literal starts with a character: a digit, or a point before a digit. -/
def startsNumber (c : Char) (rest : List Char) : Bool :=
  Text.isAsciiDigit c || (c = '.' && rest.head?.any Text.isAsciiDigit)

namespace Literal

/-- The number that digits and at most one point write. -/
def ofChars (position : Nat) (digits : List Char) : Except SyntaxFault Literal :=
  if 1 < digits.count '.' then .error (.secondPoint (String.ofList digits) position)
  else if digits.contains '.' then
    match DecimalLiteral.ofChars? false digits with
    | some l =>
      let x := l.toBinary64
      if x.isFinite then .ok (.float x) else .error (.outOfRange position)
    | none => .error (.outOfRange position)
  else if Text.integerDigitLimit < digits.length then .error (.outOfRange position)
  else .ok (.int (Text.natOfDigits digits))

end Literal

/-- The dotted name of a field reference: as many segments as asked for, each of them not empty. -/
def fieldName (scope : Scope) (position : Nat) : Nat → List Char → Except SyntaxFault (List Char)
  | 0, _ => .ok []
  | n + 1, cs =>
    let segment := cs.takeWhile isNameChar
    if segment.isEmpty then .error (.missingName scope position)
    else if n = 0 then .ok segment
    else
      match cs.drop segment.length with
      | '.' :: rest => do
        let more ← fieldName scope position n rest
        pure (segment ++ '.' :: more)
      | _ => .error (.missingSegment scope position)

/-- The scope whose opening starts a text. -/
def openedScope? (cs : List Char) : Option Scope :=
  Scope.reserved.find? fun scope => scope.opening.toList.isPrefixOf cs

/-- The first comparator that starts a text. -/
def comparatorAt? (cs : List Char) : Option Comparator :=
  Comparator.all.find? fun c => c.symbol.toList.isPrefixOf cs

/-- The token that starts with the character `c`, and how many characters it has beyond `c`. -/
def lexemeAt (dialect : Dialect) (text : String) (position : Nat) (c : Char) (rest : List Char) :
    Except SyntaxFault (Lexeme × Nat) :=
  if startsNumber c rest then do
    let digits := (c :: rest).takeWhile isNumberChar
    let value ← Literal.ofChars position digits
    pure (.number value, digits.length - 1)
  else
    match openedScope? (c :: rest) with
    | some scope => do
      let opening := scope.opening.length
      let name ← fieldName scope position scope.segments (rest.drop (opening - 1))
      pure (.field scope (String.ofList name), opening - 1 + name.length)
    | none =>
      match Lexeme.ofSingle? c with
      | some l => .ok (l, 0)
      | none =>
        match if dialect = .condition then comparatorAt? (c :: rest) else none with
        | some k => .ok (.comparator k, k.symbol.length - 1)
        | none => .error (.unexpectedCharacter c position text)

/-- What a scan has found: tokens in order, and the fault that stopped it, if any. -/
structure Scan where
  tokens : List Token
  fault? : Option SyntaxFault
deriving DecidableEq, Repr

/-- Scans the characters from a position on. -/
def scanFrom (dialect : Dialect) (text : String) (position : Nat) (cs : List Char) : Scan :=
  match cs with
  | [] => ⟨[⟨.ending, position⟩], none⟩
  | c :: rest =>
    if Text.isBlank c then scanFrom dialect text (position + 1) rest
    else
      match lexemeAt dialect text position c rest with
      | .error fault => ⟨[], some fault⟩
      | .ok (lexeme, extra) =>
        let scan := scanFrom dialect text (position + 1 + extra) (rest.drop extra)
        ⟨⟨lexeme, position⟩ :: scan.tokens, scan.fault?⟩
termination_by cs.length
decreasing_by
  all_goals simp only [List.length_cons, List.length_drop]; omega

def scan (dialect : Dialect) (text : String) : Scan :=
  scanFrom dialect text 0 text.toList

/-- The tokens of a text, of which the last is its ending. -/
def tokens (dialect : Dialect) (text : String) : Except SyntaxFault (List Token) :=
  let scan := scan dialect text
  match scan.fault? with
  | some fault => .error fault
  | none => .ok scan.tokens

end ModelPlaybook.Expression
