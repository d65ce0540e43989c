import ModelPlaybook.Number.Fixed
import ModelPlaybook.Number.WholeText
import ModelPlaybook.Value.Equality

/-!
# Directives

What stands for an argument in a text that is filled in: flags, a width, a precision and a letter.
The letter says which form the argument takes, the rest how that form is laid out.  Numbers have a
sign and a mark of their base apart from their digits, so that zeros can be filled in between.
-/

namespace ModelPlaybook.Format

/-- What is filled in: text, or a run of bytes, which is handled as the characters with the same
numbers. -/
inductive Medium where
  | text
  | bytes
deriving DecidableEq, Repr

structure Directive where
  alignLeft : Bool := false
  plus : Bool := false
  blank : Bool := false
  /-- Asks for the mark of the base, or for a point in any case. -/
  alternate : Bool := false
  zero : Bool := false
  width : Nat := 0
  precision : Option Nat := none
  letter : Char := 's'
deriving DecidableEq, Repr

/-- Reads the flags of a directive. -/
def readFlags : Directive → List Char → Directive × List Char
  | d, '-' :: rest => readFlags { d with alignLeft := true } rest
  | d, '+' :: rest => readFlags { d with plus := true } rest
  | d, ' ' :: rest => readFlags { d with blank := true } rest
  | d, '#' :: rest => readFlags { d with alternate := true } rest
  | d, '0' :: rest => readFlags { d with zero := true } rest
  | d, rest => (d, rest)

/-! ## Layout -/

/-- Nothing wider than this is laid out. -/
def widthLimit : Nat := 2 ^ (36 : Nat)

def outOfMemory : Fault := ⟨.named "MemoryError", ""⟩

/-- Fills a form up to the width of a directive.  Zeros go between the sign with the mark and the
digits, blanks to either side of all. -/
def Directive.fillUp (d : Directive) (zeros : Bool) (sign mark body : List Char) :
    Except Fault (List Char) :=
  let form := sign ++ mark ++ body
  let missing := d.width - form.length
  if widthLimit ≤ missing then .error outOfMemory
  else if d.alignLeft then .ok (form ++ List.replicate missing ' ')
  else if zeros then .ok (sign ++ mark ++ (List.replicate missing '0' ++ body))
  else .ok (List.replicate missing ' ' ++ form)

/-- Lays out a text, cut to the precision. -/
def Directive.layOutText (d : Directive) (body : List Char) : Except Fault (List Char) :=
  d.fillUp false [] [] ((d.precision.map fun n => body.take n).getD body)

/-- Lays out a single character. -/
def Directive.layOutChar (d : Directive) (c : Char) : Except Fault (List Char) :=
  d.fillUp false [] [] [c]

/-- Lays out a number, given by its sign, the mark of its base and its digits. -/
def Directive.layOutNumber (d : Directive) (negative : Bool) (mark body : List Char) :
    Except Fault (List Char) :=
  let sign := if negative then ['-'] else if d.plus then ['+'] else if d.blank then [' '] else []
  d.fillUp d.zero sign mark body

def Directive.isUpper (d : Directive) : Bool :=
  d.letter.isUpper

/-- Characters in the case of the letter of a directive. -/
def Directive.inCase (d : Directive) (cs : List Char) : List Char :=
  if d.isUpper then cs.map Char.toUpper else cs

/-! ## Whole numbers -/

/-- An argument is no number, or none of the kind that a directive asks for. -/
def Directive.refused (d : Directive) (wanted typeName : String) : Fault :=
  .ofType ("%" ++ String.singleton d.letter ++ " format: " ++ wanted ++ " is required, not " ++
    typeName)

/-- The whole number of an argument; fractions are cut off. -/
def Directive.cutArgument (d : Directive) (v : Value) : Except Fault Int :=
  match v with
  | .int n => .ok n
  | .bool b => .ok (if b then 1 else 0)
  | .float x =>
    match x.truncate? with
    | some n => .ok n
    | none =>
      if x.isNaN then .error (.ofValue "cannot convert float NaN to integer")
      else .error ⟨.overflow, "cannot convert float infinity to integer"⟩
  | .decimal x =>
    match x.toWhole? .down with
    | some n => .ok n
    | none =>
      if x.isNaN then .error (.ofValue "cannot convert NaN to integer")
      else .error ⟨.overflow, "cannot convert Infinity to integer"⟩
  | v => .error (d.refused "a real number" v.familyName)

/-- The whole number that an argument is. -/
def Directive.wholeArgument (d : Directive) (v : Value) : Except Fault Int :=
  match v with
  | .int n => .ok n
  | .bool b => .ok (if b then 1 else 0)
  | v => .error (d.refused "an integer" v.familyName)

/-- The most digits that a precision may ask for. -/
def precisionLimit : Nat := 2147483644

/-- Lays out a whole number in a base. -/
def Directive.layOutWhole (d : Directive) (base : Nat) (mark : List Char) (n : Int) :
    Except Fault (List Char) :=
  if precisionLimit < d.precision.getD 0 then .error ⟨.overflow, "precision too large"⟩
  else if base = 10 && !WholeText.isWritable n then .error WholeText.unwritable
  else
    let ds := Nat.toDigits base n.natAbs
    let body := List.replicate (d.precision.getD 0 - ds.length) '0' ++ ds
    d.layOutNumber (decide (n < 0)) (d.inCase (if d.alternate then mark else [])) (d.inCase body)

/-! ## Doubles -/

/-- The double that an argument is. -/
def realArgument (v : Value) : Except Fault Binary64 :=
  match v with
  | .float x => .ok x
  | .int n =>
    let x := Binary64.ofInt n
    if x.isFinite then .ok x else .error .intTooLarge
  | .bool b => .ok (.ofInt (if b then 1 else 0))
  | .decimal d =>
    if d.isSignaling then .error (.ofValue "cannot convert signaling NaN to float")
    else .ok d.toBinary64
  | v => .error (.ofType ("must be real number, not " ++ v.familyName))

/-- The double that an argument is, where bytes are filled in: all faults are one. -/
def Medium.realArgument (medium : Medium) (v : Value) : Except Fault Binary64 :=
  match medium, Format.realArgument v with
  | .bytes, .error _ =>
    .error (.ofType ("float argument required, not " ++ v.familyName))
  | _, r => r

/-- A magnitude as the letter of a directive asks for it. -/
def Directive.realText (d : Directive) (m : Nat) (e : Int) : List Char :=
  let places := d.precision.getD 6
  match d.letter.toLower with
  | 'f' => fixedText m e places d.alternate
  | 'e' => scientificText m e places d.alternate
  | _ => generalText m e places d.alternate

def Directive.layOutReal (d : Directive) (x : Binary64) : Except Fault (List Char) :=
  match x with
  | .finite negative m e => d.layOutNumber negative [] (d.inCase (d.realText m e))
  | .infinite negative => d.layOutNumber negative [] (d.inCase ['i', 'n', 'f'])
  | .nan _ => d.layOutNumber false [] (d.inCase ['n', 'a', 'n'])

/-! ## Characters -/

/-- The character that an argument is, by itself or by its number. -/
def charArgument (v : Value) : Except Fault Char :=
  let ofCode (n : Int) : Except Fault Char :=
    if 0 ≤ n ∧ n < 0x110000 then .ok (Text.charOfCode n.toNat)
    else .error ⟨.overflow, "%c arg not in range(0x110000)"⟩
  match v with
  | .int n => ofCode n
  | .bool b => ofCode (if b then 1 else 0)
  | .text s =>
    match s.toList with
    | [c] => .ok c
    | _ => .error (.ofType "%c requires int or char")
  | _ => .error (.ofType "%c requires int or char")

/-- The byte that an argument is, by itself or by its number. -/
def byteArgument (v : Value) : Except Fault Char :=
  let ofCode (n : Int) : Except Fault Char :=
    if 0 ≤ n ∧ n < 256 then .ok (Char.ofNat n.toNat)
    else .error ⟨.overflow, "%c arg not in range(256)"⟩
  match v with
  | .int n => ofCode n
  | .bool b => ofCode (if b then 1 else 0)
  | .bytes [b] => .ok (Char.ofNat b.toNat)
  | _ => .error (.ofType "%c requires an integer in range(256) or a single byte")

def Medium.charArgument (medium : Medium) (v : Value) : Except Fault Char :=
  match medium with
  | .text => Format.charArgument v
  | .bytes => byteArgument v

/-- The bytes that an argument is, as characters. -/
def contentArgument (v : Value) : Except Fault (List Char) :=
  match v with
  | .bytes content => .ok (content.map fun b => Char.ofNat b.toNat)
  | v =>
    .error (.ofType ("%b requires a bytes-like object, or an object that implements __bytes__, " ++
      "not '" ++ v.familyName ++ "'"))

/-! ## Letters -/

/-- What a letter makes of its argument. -/
inductive Form where
  | plain
  | shown
  | ascii
  /-- Bytes as they are. -/
  | content
  | char
  /-- A number of which the fraction is cut off. -/
  | cut
  | whole (base : Nat) (mark : List Char)
  | real
deriving DecidableEq, Repr

/-- The letter by which faults name a directive. -/
def Medium.namedLetter (medium : Medium) (letter : Char) : Char :=
  if medium = .bytes ∧ letter = 'i' then 'd' else letter

/-- The form that a letter asks for. -/
def Medium.form? (medium : Medium) (letter : Char) : Option Form :=
  match medium, letter with
  | .text, 's' => some .plain
  | .text, 'r' => some .shown
  | .bytes, 's' => some .content
  | .bytes, 'b' => some .content
  | .bytes, 'r' => some .ascii
  | _, 'a' => some .ascii
  | _, 'c' => some .char
  | _, 'd' => some .cut
  | _, 'i' => some .cut
  | _, 'u' => some .cut
  | _, 'o' => some (.whole 8 ['0', 'o'])
  | _, 'x' => some (.whole 16 ['0', 'x'])
  | _, 'X' => some (.whole 16 ['0', 'x'])
  | _, c => if ['e', 'E', 'f', 'F', 'g', 'G'].contains c then some .real else none

/-- A letter that asks for no form.  Beyond ASCII a byte can be shown only where it was read as
part of a number. -/
def Medium.unknownLetter (medium : Medium) (letter : Char) (index : Nat) (behindNumber : Bool) :
    Fault :=
  let n := letter.toNat
  if medium = .bytes && !behindNumber && 128 ≤ n then
    ⟨.overflow, "character argument not in range(0x110000)"⟩
  else
    let shown := if medium = .text && !(31 ≤ n && n < 127) then '?' else letter
    .ofValue ("unsupported format character '" ++ String.singleton shown ++ "' (0x" ++
      String.ofList (Nat.toDigits 16 (Text.codeOfChar letter)) ++ ") at index " ++ toString index)

end ModelPlaybook.Format
