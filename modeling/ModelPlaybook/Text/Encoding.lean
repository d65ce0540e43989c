import ModelPlaybook.Text.Quoted

/-!
# Encodings

How bytes stand for text.  Reading looks at the front of the bytes: it finds a code point that some
of them stand for, or some of them that stand for nothing.  What is done with those is a matter of
its own.
-/

namespace ModelPlaybook.Text

inductive Encoding where
  | ascii
  | latin1
  | utf8
  /-- Two bytes stand for a code point, or four for a pair of surrogates. -/
  | utf16 (bigFirst : Bool)
  | utf32 (bigFirst : Bool)
deriving DecidableEq, Repr

namespace Encoding

def name : Encoding → String
  | ascii => "ascii"
  | latin1 => "latin-1"
  | utf8 => "utf-8"
  | utf16 bigFirst => if bigFirst then "utf-16-be" else "utf-16-le"
  | utf32 bigFirst => if bigFirst then "utf-32-be" else "utf-32-le"

/-- What some bytes start with. -/
inductive Front where
  | code (n size : Nat)
  /-- The first bytes stand for nothing. -/
  | bad (size : Nat) (reason : String)
deriving DecidableEq, Repr

/-- Bytes that stand for nothing. -/
structure Fault where
  encoding : Encoding
  position : Nat
  bytes : List Nat
  reason : String
deriving DecidableEq, Repr

def Fault.text (f : Fault) : String :=
  let place :=
    match f.bytes with
    | [b] =>
      "byte 0x" ++ String.ofList (hexDigits 2 b) ++ " in position " ++ toString f.position
    | bs =>
      "bytes in position " ++ toString f.position ++ "-" ++
        toString (f.position + bs.length - 1)
  "'" ++ f.encoding.name ++ "' codec can't decode " ++ place ++ ": " ++ f.reason

/-! ## One code point -/

/-- How many bytes a code point has that starts with a byte. -/
def size? (first : Nat) : Option Nat :=
  if first < 0x80 then some 1
  else if first < 0xC2 then none
  else if first < 0xE0 then some 2
  else if first < 0xF0 then some 3
  else if first < 0xF5 then some 4
  else none

/-- Whether a byte can come second: neither more bytes than needed, nor surrogates, nor what lies
beyond the last code point. -/
def isSecond (first second : Nat) : Bool :=
  let low := if first = 0xE0 then 0xA0 else if first = 0xF0 then 0x90 else 0x80
  let high := if first = 0xED then 0xA0 else if first = 0xF4 then 0x90 else 0xC0
  low ≤ second && second < high

/-- Whether a byte can come after the first one. -/
def isLater (b : Nat) : Bool :=
  0x80 ≤ b && b < 0xC0

def front8 (first : Nat) (rest : List Nat) : Front :=
  match size? first with
  | none => .bad 1 "invalid start byte"
  | some 1 => .code first 1
  | some size =>
    let there := rest.take (size - 1)
    let good :=
      match there with
      | second :: more => if isSecond first second then second :: more.takeWhile isLater else []
      | [] => []
    if good.length = size - 1 then
      .code (good.foldl (fun n b => n * 64 + b % 64) (first % 2 ^ (7 - size))) size
    else
      .bad (good.length + 1)
        (if good.length = there.length then "unexpected end of data"
          else "invalid continuation byte")

/-- The number that some bytes write. -/
def numberOf (bigFirst : Bool) (bytes : List Nat) : Nat :=
  (if bigFirst then bytes else bytes.reverse).foldl (fun n b => n * 256 + b) 0

def front16 (bigFirst : Bool) (bytes : List Nat) : Front :=
  match bytes with
  | a :: b :: rest =>
    let unit := numberOf bigFirst [a, b]
    if !isSurrogate unit then .code unit 2
    else if 0xDC00 ≤ unit then .bad 2 "illegal encoding"
    else
      match rest with
      | c :: d :: _ =>
        let low := numberOf bigFirst [c, d]
        if isSurrogate low && 0xDC00 ≤ low then
          .code (0x10000 + (unit - 0xD800) * 0x400 + (low - 0xDC00)) 4
        else .bad 2 "illegal UTF-16 surrogate"
      | rest => .bad (2 + rest.length) "unexpected end of data"
  | bytes => .bad bytes.length "truncated data"

def front32 (bigFirst : Bool) (bytes : List Nat) : Front :=
  match bytes with
  | a :: b :: c :: d :: _ =>
    let n := numberOf bigFirst [a, b, c, d]
    if isSurrogate n then .bad 4 "code point in surrogate code point range(0xd800, 0xe000)"
    else if 0x110000 ≤ n then .bad 4 "code point not in range(0x110000)"
    else .code n 4
  | bytes => .bad bytes.length "truncated data"

/-- What a byte and the ones after it start with. -/
def front (e : Encoding) (first : Nat) (rest : List Nat) : Front :=
  match e with
  | ascii => if first < 0x80 then .code first 1 else .bad 1 "ordinal not in range(128)"
  | latin1 => .code first 1
  | utf8 => front8 first rest
  | utf16 bigFirst => front16 bigFirst (first :: rest)
  | utf32 bigFirst => front32 bigFirst (first :: rest)

/-- The surrogate that bytes would stand for if it were a character, with their number. -/
def surrogate? (e : Encoding) (bytes : List Nat) : Option (Nat × Nat) :=
  let found :=
    match e, bytes with
    | utf8, a :: b :: c :: _ =>
      if 0xE0 ≤ a && a < 0xF0 && isLater b && isLater c then
        some (a % 16 * 4096 + b % 64 * 64 + c % 64, 3)
      else none
    | utf16 bigFirst, a :: b :: _ => some (numberOf bigFirst [a, b], 2)
    | utf32 bigFirst, a :: b :: c :: d :: _ => some (numberOf bigFirst [a, b, c, d], 4)
    | _, _ => none
  found.filter fun entry => isSurrogate entry.1

end Encoding

/-! ## What is done with bytes that stand for nothing -/

inductive Remedy where
  | none
  | ignore
  | replace
  /-- The bytes are written in hexadecimal. -/
  | escape
  /-- Bytes beyond ASCII become surrogates. -/
  | keepBytes
  /-- Surrogates are kept. -/
  | keepSurrogates
deriving DecidableEq, Repr

namespace Remedy

def ofName? : String → Option Remedy
  | "strict" => some .none
  | "ignore" => some .ignore
  | "replace" => some .replace
  | "backslashreplace" => some .escape
  | "surrogateescape" => some .keepBytes
  | "surrogatepass" => some .keepSurrogates
  | _ => Option.none

/-- The code points in place of the first bytes, with the number of those. -/
def instead? (r : Remedy) (e : Encoding) (size : Nat) (bytes : List Nat) :
    Option (List Nat × Nat) :=
  let bad := bytes.take size
  match r with
  | none => Option.none
  | ignore => some ([], size)
  | replace => some ([0xFFFD], size)
  | escape =>
    some (bad.flatMap fun b => ('\\' :: 'x' :: hexDigits 2 b).map Char.toNat, size)
  | keepBytes =>
    match (bad.take 4).takeWhile (0x80 ≤ ·) with
    | [] => Option.none
    | kept => some (kept.map (0xDC00 + ·), kept.length)
  | keepSurrogates => (e.surrogate? bytes).map fun (n, size) => ([n], size)

end Remedy

/-! ## All bytes -/

namespace Encoding

/-- The code points that bytes stand for. -/
def codes (e : Encoding) (r : Remedy) (position : Nat) (bytes : List Nat) :
    Except Fault (List Nat) :=
  match bytes with
  | [] => .ok []
  | first :: rest =>
    match e.front first rest with
    | .code n size => do pure (n :: (← codes e r (position + size) (rest.drop (size - 1))))
    | .bad size reason =>
      match r.instead? e size (first :: rest) with
      | some (ns, used) => do
        pure (ns ++ (← codes e r (position + used) (rest.drop (used - 1))))
      | none => .error ⟨e, position, (first :: rest).take size, reason⟩
termination_by bytes.length
decreasing_by all_goals simp only [List.length_drop, List.length_cons]; omega

/-- An encoding together with how the bytes start: with a mark, that may count in positions. -/
structure Opening where
  encoding : Encoding
  mark : Nat
  start : Nat
deriving DecidableEq, Repr

def plain (e : Encoding) : Opening :=
  ⟨e, 0, 0⟩

/-- The text that bytes stand for. -/
def Opening.decode (o : Opening) (r : Remedy) (bytes : List UInt8) : Except Fault String := do
  let found ← o.encoding.codes r o.start ((bytes.drop o.mark).map UInt8.toNat)
  pure (String.ofList (found.map charOfCode))

/-! ## Choosing an encoding -/

def mark8 : List UInt8 := [0xEF, 0xBB, 0xBF]

/-- An encoding with several bytes for a character, whose order a mark tells in front. -/
def marked (make : Bool → Encoding) (size : Nat) (bytes : List UInt8) : Opening :=
  let padding : List UInt8 := List.replicate (size - 2) 0
  if ([0xFF, 0xFE] ++ padding).isPrefixOf bytes then ⟨make false, size, size⟩
  else if (padding ++ [0xFE, 0xFF]).isPrefixOf bytes then ⟨make true, size, size⟩
  else (make false).plain

/-- A name in lower case, its parts joined by underscores. -/
def simpleName (s : String) : String :=
  let (_, found) := s.toList.foldl (fun (acc : Bool × List Char) c =>
    if c.isAlphanum || c = '.' then
      (false, c.toLower :: (if acc.1 && !acc.2.isEmpty then '_' :: acc.2 else acc.2))
    else (true, acc.2)) (false, [])
  String.ofList found.reverse

/-- The encoding with a name. -/
def ofName? (s : String) (bytes : List UInt8) : Option Opening :=
  let named := simpleName s
  if ["utf8", "utf_8", "u8", "utf"].contains named then some utf8.plain
  else if ["utf_8_sig"].contains named then
    some ⟨utf8, if mark8.isPrefixOf bytes then 3 else 0, 0⟩
  else if ["ascii", "us_ascii", "us", "646"].contains named then some ascii.plain
  else if ["latin1", "latin_1", "latin", "l1", "iso_8859_1", "iso8859_1", "8859", "cp819"].contains
      named then
    some latin1.plain
  else if ["utf16", "utf_16", "u16"].contains named then some (marked utf16 2 bytes)
  else if ["utf_16_le", "utf_16le"].contains named then some (utf16 false).plain
  else if ["utf_16_be", "utf_16be"].contains named then some (utf16 true).plain
  else if ["utf32", "utf_32", "u32"].contains named then some (marked utf32 4 bytes)
  else if ["utf_32_le", "utf_32le"].contains named then some (utf32 false).plain
  else if ["utf_32_be", "utf_32be"].contains named then some (utf32 true).plain
  else none

/-- The encoding of bytes that hold ASCII at the front, as a mark or the place of zeros tells. -/
def ofContent (bytes : List UInt8) : Opening :=
  let wide := marked utf32 4 bytes
  let narrow := marked utf16 2 bytes
  if 0 < wide.mark then wide
  else if 0 < narrow.mark then narrow
  else if mark8.isPrefixOf bytes then ⟨utf8, 3, 0⟩
  else
    match bytes with
    | 0 :: 0 :: _ :: _ :: _ => (utf32 true).plain
    | 0 :: _ :: _ :: _ :: _ => (utf16 true).plain
    | _ :: 0 :: 0 :: 0 :: _ => (utf32 false).plain
    | _ :: 0 :: _ :: _ :: _ => (utf16 false).plain
    | [0, _] => (utf16 true).plain
    | [_, 0] => (utf16 false).plain
    | _ => utf8.plain

end Encoding

end ModelPlaybook.Text
