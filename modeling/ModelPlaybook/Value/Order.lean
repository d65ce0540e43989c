import ModelPlaybook.Sorting.Stretch
import ModelPlaybook.Value.Equality

/-!
# The order of values

Numbers are ordered by their exact values, text by its characters, days and times by the calendar,
lists and tuples by their first difference, sets by inclusion.  Other pairs have no order, and
asking for one is a fault.
-/

namespace ModelPlaybook

/-- The ways to compare two values. -/
inductive Comparator where
  | equal | notEqual | atLeast | atMost | greater | less
deriving DecidableEq, Repr, Inhabited

namespace Comparator

def symbol : Comparator → String
  | equal => "=="
  | notEqual => "!="
  | atLeast => ">="
  | atMost => "<="
  | greater => ">"
  | less => "<"

/-- The comparators, the longer ones before their first characters. -/
def all : List Comparator := [equal, notEqual, atLeast, atMost, greater, less]

def ofSymbol? (s : String) : Option Comparator :=
  all.find? (·.symbol == s)

/-- Whether a comparison holds of two things in a given order. -/
def holds : Comparator → Ordering → Bool
  | equal, o => o == .eq
  | notEqual, o => o != .eq
  | atLeast, o => o != .lt
  | atMost, o => o != .gt
  | greater, o => o == .gt
  | less, o => o == .lt

/-- Whether a comparison only asks for equality. -/
def isEquality : Comparator → Bool
  | equal => true
  | notEqual => true
  | _ => false

/-- Whether a comparison holds of two things without an order, one of which is not a number. -/
def holdsUnordered : Comparator → Bool
  | notEqual => true
  | _ => false

end Comparator

namespace Number

def isNaN : Number → Bool
  | .int _ => false
  | .float x => x.isNaN
  | .decimal d => d.isNaN

/-- Compares two numbers.  Where a decimal takes part, equality stops at a signaling NaN and the
orderings stop at any NaN. -/
def holds (c : Comparator) (x y : Number) : Except DecimalSignal Bool :=
  if x.isSignaling || y.isSignaling then .error .invalidOperation
  else if !c.isEquality && (x.isDecimal || y.isDecimal) && (x.isNaN || y.isNaN) then
    .error .invalidOperation
  else
    match x.compare? y with
    | some o => .ok (c.holds o)
    | none => .ok c.holdsUnordered

end Number

/-- The order of two scalars that are not both numbers. -/
def Scalar.order (c : Comparator) (a b : Scalar) : Except Fault Bool :=
  match a, b with
  | .text s, .text t => .ok (c.holds (compare s t))
  | .date d, .date e => .ok (c.holds (compare d.ordinal e.ordinal))
  | .dateTime t, .dateTime u =>
    if t.offset.isSome = u.offset.isSome then .ok (c.holds (compare t.instant u.instant))
    else .error (.ofType "can't compare offset-naive and offset-aware datetimes")
  | .date _, .dateTime _ => .error (.ofType "can't compare datetime.datetime to datetime.date")
  | .dateTime _, .date _ => .error (.ofType "can't compare datetime.datetime to datetime.date")
  | .duration d, .duration e => .ok (c.holds (compare d.microseconds e.microseconds))
  | _, _ => .error (.unordered c.symbol a.familyName b.familyName)

namespace Value

/-- Compares two values in a way that asks for their order. -/
def orderScalar (c : Comparator) (a : Scalar) (other : Value) : Except Fault Bool :=
  match other with
  | .scalar b =>
    match a.number?, b.number? with
    | some x, some y => liftSignal (x.holds c y)
    | _, _ => a.order c b
  | _ => .error (.unordered c.symbol a.familyName other.familyName)

/-- Inclusion of sets, proper or not, in either direction. -/
def orderSets (c : Comparator) (xs ys : List Value) : Except Fault Bool := do
  match c with
  | .less => pure (xs.length < ys.length && (← elementsWithin xs ys))
  | .atMost => elementsWithin xs ys
  | .greater => pure (ys.length < xs.length && (← elementsWithin ys xs))
  | _ => elementsWithin ys xs

mutual

/-- Compares two values by order. -/
def order (c : Comparator) : Value → Value → Except Fault Bool
  | .scalar a, other => orderScalar c a other
  | .list xs, other =>
    match other with
    | .list ys => orderItems c xs ys
    | _ => .error (.unordered c.symbol "list" other.familyName)
  | .tuple xs, other =>
    match other with
    | .tuple ys => orderItems c xs ys
    | _ => .error (.unordered c.symbol "tuple" other.familyName)
  | .set xs, other =>
    match other.elements? with
    | some ys => orderSets c xs ys
    | Option.none => .error (.unordered c.symbol "set" other.familyName)
  | .frozenSet xs, other =>
    match other.elements? with
    | some ys => orderSets c xs ys
    | Option.none => .error (.unordered c.symbol "frozenset" other.familyName)
  | .bytes xs, other =>
    match other with
    | .bytes ys => .ok (c.holds (compare (xs.map UInt8.toNat) (ys.map UInt8.toNat)))
    | _ => .error (.unordered c.symbol "bytes" other.familyName)
  | .map _, other => .error (.unordered c.symbol "dict" other.familyName)
  | .frozenMap _, other => .error (.unordered c.symbol "dict" other.familyName)
  | .derived s, other => .error (.unordered c.symbol (derived s).typeName other.familyName)
  | .foreign name _, other => .error (.unordered c.symbol name other.familyName)
termination_by structural v => v

/-- Compares item by item: the first pair of different items decides, or else the lengths. -/
def orderItems (c : Comparator) : List Value → List Value → Except Fault Bool
  | [], ys => .ok (c.holds (compare 0 ys.length))
  | x :: xs, ys =>
    match ys with
    | [] => .ok (c.holds .gt)
    | y :: ys => do
      if ← isMatch x y then orderItems c xs ys else order c x y
termination_by structural xs => xs

end

/-- Compares two values. -/
def compareBy (c : Comparator) (a b : Value) : Except Fault Bool :=
  match c with
  | .equal => equals a b
  | .notEqual => do pure !(← equals a b)
  | c => order c a b

end Value

/-- The values of a list in ascending order. -/
def Value.sorted (items : List Value) : Except Fault (List Value) :=
  sortBy (fun a b => a.compareBy .less b) items

end ModelPlaybook
