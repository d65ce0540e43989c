import ModelPlaybook.Fault
import ModelPlaybook.Value.Basic

/-!
# Equality of values

Numbers of different kinds are equal when they stand for the same number, and a truth value counts
as the number zero or one; otherwise values of different kinds differ, except that a read-only
container equals the other form with the same content.  Comparing a signaling NaN stops with a
decimal signal, and comparing the stand-in for a blocked name is denied.  What a container holds is
not compared with itself, so a NaN or a stand-in matches itself there.
-/

namespace ModelPlaybook

/-- The numbers that values can be. -/
inductive Number where
  | int (n : Int)
  | float (x : Binary64)
  | decimal (d : Decimal)
deriving DecidableEq, Repr, Inhabited

namespace Number

/-- A number as a decimal that equals it exactly. -/
def exact : Number → Decimal
  | .int n => .ofInt n
  | .float x => .ofBinary64 x
  | .decimal d => d

/-- The order of two numbers by their exact values; a NaN has none. -/
def compare? (x y : Number) : Option Ordering :=
  x.exact.compare? y.exact

def isSignaling : Number → Bool
  | .decimal d => d.isSignaling
  | _ => false

def isDecimal : Number → Bool
  | .decimal _ => true
  | _ => false

/-- Whether a number is neither infinite nor a NaN. -/
def isFinite : Number → Bool
  | .int _ => true
  | .float x => x.isFinite
  | .decimal d => d.isFinite

def toValue : Number → Value
  | .int n => .int n
  | .float x => .float x
  | .decimal d => .decimal d

end Number

/-- The number a scalar stands for; truth values count as zero and one. -/
def Scalar.number? : Scalar → Option Number
  | .bool b => some (.int (if b then 1 else 0))
  | .int n => some (.int n)
  | .float x => some (.float x)
  | .decimal d => some (.decimal d)
  | _ => Option.none

def Value.number? : Value → Option Number
  | .scalar s => s.number?
  | _ => Option.none

/-- Equality of scalars. -/
def Scalar.equals (a b : Scalar) : Except DecimalSignal Bool :=
  match a.number?, b.number? with
  | some x, some y =>
    if x.isSignaling || y.isSignaling then .error .invalidOperation
    else .ok (x.compare? y == some .eq)
  | _, _ =>
    match a, b with
    | .none, .none => .ok true
    | .text s, .text t => .ok (s == t)
    | .date d, .date e => .ok (d == e)
    | .dateTime t, .dateTime u => .ok (t.same u)
    | .duration d, .duration e => .ok (d == e)
    | _, _ => .ok false

/-- Whether two scalars are one NaN. -/
def Scalar.isIdentical (a b : Scalar) : Bool :=
  match a, b with
  | .float (.nan o), .float (.nan p) => o.isSame p
  | .decimal (.nan _ _ _ o), .decimal (.nan _ _ _ p) => o.isSame p
  | _, _ => false

/-- The first element of a list that passes a test which may stop. -/
def findFirst {α ε : Type} (test : α → Except ε Bool) : List α → Except ε (Option α)
  | [] => .ok none
  | x :: rest => do
    if ← test x then pure (some x) else findFirst test rest

/-- Whether all elements of a list pass a test, which ends at the first that does not. -/
def checkAll {α ε : Type} (test : α → Except ε Bool) : List α → Except ε Bool
  | [] => .ok true
  | x :: rest => do
    if ← test x then checkAll test rest else pure false

namespace Value

/-- The fault of whatever is done with a stand-in. -/
def denial? (v : Value) : Option Fault :=
  v.blocks?.map .denied

/-- Whether two values are one NaN or one object of an unknown type. -/
def isIdentical (a b : Value) : Bool :=
  match a, b with
  | .scalar a, .scalar b => a.isIdentical b
  | .foreign _ o, .foreign _ p => o.isSame p
  | _, _ => false

/-- Denies a comparison with a stand-in; the operand on the left comes first. -/
def unlessBlocked (left right : Value) (equal : Except Fault Bool) : Except Fault Bool :=
  match left.blocks?.or right.blocks? with
  | some name => .error (.denied name)
  | Option.none => equal

/-- Whether two values match inside containers, given whether they are equal.  Turned values come
with the right one first. -/
def matching (turned : Bool) (a b : Value) (equal : Except Fault Bool) : Except Fault Bool :=
  if a.isIdentical b then .ok true
  else if turned then unlessBlocked b a equal
  else unlessBlocked a b equal

/-- The elements of a set, read-only or not. -/
def elements? : Value → Option (List Value)
  | .set items => some items
  | .frozenSet items => some items
  | _ => Option.none

def isFrozenMap : Value → Bool
  | .frozenMap _ => true
  | _ => false

/-- Whether of two mappings the first one's entries are gone through and looked up in the second.
Those of the left one are, unless the right one is read-only. -/
def goesFirst (turned : Bool) (a b : Value) : Bool :=
  if turned then a.isFrozenMap else !b.isFrozenMap

-- The order of the operands shows in what a comparison comes to before it ends.  A read-only
-- mapping on the right turns it, and then the recursion still has to go down the first argument.
mutual

/-- Equality of two values that are no stand-ins.  Turned values come with the right one first. -/
def equalsIn (turned : Bool) : Value → Value → Except Fault Bool
  | .scalar a, other =>
    match other with
    | .scalar b => liftSignal (if turned then b.equals a else a.equals b)
    | _ => .ok false
  | .list xs, other =>
    match other with
    | .list ys => if xs.length = ys.length then allEqual turned xs ys else .ok false
    | _ => .ok false
  | .tuple xs, other =>
    match other with
    | .tuple ys => allEqual turned xs ys
    | _ => .ok false
  | .map xs, other =>
    match other.entries? with
    | some ys =>
      if xs.length ≠ ys.length then .ok false
      else if goesFirst turned (.map xs) other then entriesWithin xs ys
      else checkAll (fun (l, w) => hasEntry l w xs) ys
    | Option.none => .ok false
  | .frozenMap xs, other =>
    match other.entries? with
    | some ys =>
      if xs.length ≠ ys.length then .ok false
      else if goesFirst turned (.frozenMap xs) other then entriesWithin xs ys
      else checkAll (fun (l, w) => hasEntry l w xs) ys
    | Option.none => .ok false
  | .set xs, other =>
    match other.elements? with
    | some ys =>
      if xs.length ≠ ys.length then .ok false
      else if turned then checkAll (fun y => hasElement y xs) ys
      else elementsWithin xs ys
    | Option.none => .ok false
  | .frozenSet xs, other =>
    match other.elements? with
    | some ys =>
      if xs.length ≠ ys.length then .ok false
      else if turned then checkAll (fun y => hasElement y xs) ys
      else elementsWithin xs ys
    | Option.none => .ok false
  | .bytes xs, other =>
    match other with
    | .bytes ys => .ok (xs == ys)
    | _ => .ok false
  | .derived s, other =>
    match other with
    | .derived t => .ok (s == t)
    | _ => .ok false
  | .foreign _ o, other =>
    match other with
    | .foreign _ p => .ok (o.isSame p)
    | _ => .ok false
termination_by structural v => v

/-- Equality item by item, stopping at the first difference. -/
def allEqual (turned : Bool) : List Value → List Value → Except Fault Bool
  | [], ys => .ok ys.isEmpty
  | x :: xs, ys =>
    match ys with
    | [] => .ok false
    | y :: ys => do
      if ← matching turned x y (equalsIn turned x y) then allEqual turned xs ys else pure false
termination_by structural xs => xs

/-- Whether every entry of the first list has an equal one in the second. -/
def entriesWithin : Entries → Entries → Except Fault Bool
  | [], _ => .ok true
  | (k, v) :: rest, ys => do
    match ← findFirst (fun entry => matching false k entry.1 (equalsIn false k entry.1)) ys with
    | some (_, w) =>
      if ← matching false v w (equalsIn false v w) then entriesWithin rest ys else pure false
    | Option.none => pure false
termination_by structural xs => xs

/-- Whether the first entry that is found under a key has an equal value. -/
def hasEntry (key value : Value) : Entries → Except Fault Bool
  | [] => .ok false
  | (k, v) :: rest => do
    if ← matching true k key (equalsIn true k key) then
      matching true v value (equalsIn true v value)
    else hasEntry key value rest
termination_by structural xs => xs

/-- Whether every element of the first list has an equal one in the second. -/
def elementsWithin : List Value → List Value → Except Fault Bool
  | [], _ => .ok true
  | x :: xs, ys => do
    match ← findFirst (fun y => matching false x y (equalsIn false x y)) ys with
    | some _ => elementsWithin xs ys
    | Option.none => pure false
termination_by structural xs => xs

/-- Whether an element of a list equals a value. -/
def hasElement (value : Value) : List Value → Except Fault Bool
  | [] => .ok false
  | x :: xs => do
    if ← matching true x value (equalsIn true x value) then pure true else hasElement value xs
termination_by structural xs => xs

end

/-- Equality of values. -/
def equals (a b : Value) : Except Fault Bool :=
  unlessBlocked a b (equalsIn false a b)

/-- Whether two values match inside containers. -/
def isMatch (a b : Value) : Except Fault Bool :=
  matching false a b (equalsIn false a b)

/-- Whether two values are the same key of a mapping. -/
def sameKey (a b : Value) : Bool :=
  match isMatch a b with
  | .ok b => b
  | .error _ => false

/-- Whether a value is among the items of a list. -/
def isAmong (v : Value) (items : List Value) : Except Fault Bool := do
  pure (← findFirst (fun item => isMatch item v) items).isSome

end Value

namespace Entries

/-- Puts a value under a key: in place if the key is there, otherwise at the end. -/
def put (entries : Entries) (key value : Value) : Entries :=
  if entries.any (fun entry => entry.1.sameKey key) then
    entries.map fun entry => if entry.1.sameKey key then (entry.1, value) else entry
  else entries ++ [(key, value)]

/-- A mapping from entries in which a key may come again: the first place and the last value win. -/
def ofPairs (pairs : List (Value × Value)) : Entries :=
  pairs.foldl (fun entries (key, value) => put entries key value) []

end Entries

/-- The elements of a list without those equal to an earlier one. -/
def Value.distinct (items : List Value) : List Value :=
  items.foldl (fun kept v => if kept.any (·.sameKey v) then kept else kept ++ [v]) []

def Value.isNatural : Value → Bool
  | .int n => decide (0 ≤ n)
  | _ => false

/-- The elements of a set made from a list: each once, in ascending order where all are natural
numbers and as they came otherwise. -/
def Value.elementsOf (items : List Value) : List Value :=
  let kept := Value.distinct items
  if kept.all Value.isNatural then
    kept.mergeSort fun x y =>
      match x, y with
      | .int a, .int b => decide (a ≤ b)
      | _, _ => true
  else kept

end ModelPlaybook
