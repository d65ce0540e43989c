import ModelPlaybook.Number.Power
import ModelPlaybook.Value.Format
import ModelPlaybook.Value.Order

/-!
# Operators on values

The arithmetic operators work on numbers, on days, moments and durations, and some of them on text
and on containers.  Each operator has a plain form and an assigning form; they differ in the symbol
that faults name, and for lists in what may stand on the right.
-/

namespace ModelPlaybook

/-- The operators that model logic has. -/
inductive BinaryOperator where
  | add | sub | mul | div | floorDiv | mod | pow
  | matMul | shiftLeft | shiftRight | bitAnd | bitOr | bitXor
deriving DecidableEq, Repr, Inhabited

namespace BinaryOperator

def symbol : BinaryOperator → String
  | add => "+"
  | sub => "-"
  | mul => "*"
  | div => "/"
  | floorDiv => "//"
  | mod => "%"
  | pow => "**"
  | matMul => "@"
  | shiftLeft => "<<"
  | shiftRight => ">>"
  | bitAnd => "&"
  | bitOr => "|"
  | bitXor => "^"

/-- The operators whose assigning form model logic may use. -/
def assignable : List BinaryOperator := [add, sub, mul, div, floorDiv, mod, pow]

/-- The symbol of the assigning form. -/
def assigningSymbol (op : BinaryOperator) : String :=
  op.symbol ++ "="

def ofAssigningSymbol? (s : String) : Option BinaryOperator :=
  assignable.find? (·.assigningSymbol == s)

end BinaryOperator

/-- An operator as it is applied: in its plain or in its assigning form. -/
structure Application where
  operator : BinaryOperator
  assigning : Bool
deriving DecidableEq, Repr

/-- How faults name an application. -/
def Application.symbol (a : Application) : String :=
  if a.assigning then a.operator.assigningSymbol
  else if a.operator = .pow then "** or pow()"
  else a.operator.symbol

def Application.unsupported (a : Application) (left right : String) : Fault :=
  .unsupported a.symbol left right

/-! ## Numbers -/

/-- An operator on whole numbers that works on their binary digits.  Digits that are shifted out on
the right are lost; once all are gone, only the sign is left. -/
def bitOperation? (op : BinaryOperator) (a b : Int) : Option (Except Fault Int) :=
  match op with
  | .shiftLeft =>
    some (if b < 0 then .error (.ofValue "negative shift count")
      else if a = 0 then .ok 0
      else if Number.digitLimit < b then .error Number.tooManyDigits
      else .ok (a * 2 ^ b.toNat))
  | .shiftRight =>
    some (if b < 0 then .error (.ofValue "negative shift count")
      else .ok (a.fdiv (2 ^ min b.toNat (a.natAbs.log2 + 1))))
  | .bitAnd => some (.ok (bitwise (fun x y => x && y) a b))
  | .bitOr => some (.ok (bitwise (fun x y => x || y) a b))
  | .bitXor => some (.ok (bitwise (fun x y => x != y) a b))
  | _ => none
where
  /-- Combines two whole numbers digit by digit; a negative number has ones without end. -/
  bitwise (f : Bool → Bool → Bool) (a b : Int) : Int :=
    let digit (n : Int) (i : Nat) : Bool := n.fdiv (2 ^ i) % 2 ≠ 0
    let width := max a.natAbs.log2 b.natAbs.log2 + 2
    let bits := (List.range width).filter fun i => f (digit a i) (digit b i)
    let n : Int := bits.foldl (fun acc i => acc + 2 ^ i) 0
    if f (decide (a < 0)) (decide (b < 0)) then n - 2 ^ width else n

/-- Whether an operator knows a pair of numbers: decimals and doubles do not meet. -/
def Number.meets (x y : Number) : Bool :=
  match x, y with
  | .decimal _, .float _ => false
  | .float _, .decimal _ => false
  | _, _ => true

/-- An operator on two numbers, if it knows them. -/
def BinaryOperator.onNumbers? (op : BinaryOperator) (x y : Number) : Option (Except Fault Value) :=
  if !x.meets y then none
  else
    match op with
    | .add => some do pure (← x.add y).toValue
    | .sub => some do pure (← x.sub y).toValue
    | .mul => some do pure (← x.mul y).toValue
    | .div => some do pure (← x.div y).toValue
    | .floorDiv => some do pure (← x.floorDiv y).toValue
    | .mod => some do pure (← x.modulo y).toValue
    | .pow => some do
      match ← x.power y with
      | .number n => pure n.toValue
      | .complex => pure (.foreign "complex")
    | op =>
      match x, y with
      | .int a, .int b => (bitOperation? op a b).map fun r => do pure (.int (← r))
      | _, _ => none

/-! ## Durations and the calendar -/

namespace Duration

/-- A duration that is in range. -/
def checked (d : Duration) : Except Fault Scalar :=
  if d.inRange then .ok (.duration d)
  else if -2147483648 ≤ d.days ∧ d.days ≤ 2147483647 then
    .error ⟨.overflow, "days=" ++ toString d.days ++ "; must have magnitude <= 999999999"⟩
  else .error ⟨.overflow, "Python int too large to convert to C int"⟩

def divisionFault : Fault :=
  ⟨.zeroDivision, "integer division or modulo by zero"⟩

/-- The whole number nearest to a quotient; a tie goes to the even one. -/
def nearestQuotient (a b : Int) : Int :=
  let negative := decide (a < 0) != decide (b < 0)
  let n : Int := Rounding.halfEven.divide negative a.natAbs b.natAbs
  if negative then -n else n

/-- A finite double as a quotient of whole numbers. -/
def ratio (x : Binary64) : Except Fault (Int × Int) :=
  match x with
  | .finite negative m e =>
    let n : Int := m * 2 ^ e.toNat
    .ok (if negative then -n else n, 2 ^ (-e).toNat)
  | .infinite _ => .error ⟨.overflow, "cannot convert Infinity to integer ratio"⟩
  | .nan _ => .error (.ofValue "cannot convert NaN to integer ratio")

end Duration

/-- The fault of leaving the calendar. -/
def offCalendar : Fault := ⟨.overflow, "date value out of range"⟩

/-- The moment at a distance from another one. -/
def shiftMoment (t : DateTime) (micros : Int) : Except Fault Scalar :=
  match DateTime.ofLocalMicros? (t.localMicros + micros) t.offset with
  | some u => .ok (.dateTime u)
  | none => .error offCalendar

/-- The day at a distance from another one; the rest of a duration beyond whole days is dropped. -/
def shiftDay (d : Date) (days : Int) : Except Fault Scalar :=
  match Date.ofOrdinal? ((d.ordinal : Int) + days) with
  | some e => .ok (.date e)
  | none => .error offCalendar

/-- An operator on two scalars of which one belongs to the calendar, if it knows them. -/
def BinaryOperator.onCalendar? (op : BinaryOperator) (a b : Scalar) :
    Option (Except Fault Scalar) :=
  match op, a, b with
  | .add, .date d, .duration x => some (shiftDay d x.days)
  | .add, .duration x, .date d => some (shiftDay d x.days)
  | .sub, .date d, .duration x => some (shiftDay d (-x.days))
  | .sub, .date d, .date e => some (Duration.ofParts ((d.ordinal : Int) - e.ordinal) 0 0).checked
  | .add, .dateTime t, .duration x => some (shiftMoment t x.microseconds)
  | .add, .duration x, .dateTime t => some (shiftMoment t x.microseconds)
  | .sub, .dateTime t, .duration x => some (shiftMoment t (-x.microseconds))
  | .sub, .dateTime t, .dateTime u =>
    some (if t.offset.isSome = u.offset.isSome then
      (Duration.mk (t.instant - u.instant)).checked
    else .error (.ofType "can't subtract offset-naive and offset-aware datetimes"))
  | .add, .duration x, .duration y => some (Duration.mk (x.microseconds + y.microseconds)).checked
  | .sub, .duration x, .duration y => some (Duration.mk (x.microseconds - y.microseconds)).checked
  | .mul, .duration x, b => scaled? x b
  | .mul, a, .duration y => scaled? y a
  | .div, .duration x, .duration y =>
    some (if y.microseconds = 0 then .error .divisionByZero
    else do pure (.float (← Number.quotient x.microseconds y.microseconds)))
  | .div, .duration x, .float y => some do
    let (n, m) ← Duration.ratio y
    if n = 0 then .error Duration.divisionFault
    else (Duration.mk (Duration.nearestQuotient (x.microseconds * m) n)).checked
  | .div, .duration x, b => (whole? b).map fun n =>
    if n = 0 then .error Duration.divisionFault
    else (Duration.mk (Duration.nearestQuotient x.microseconds n)).checked
  | .floorDiv, .duration x, .duration y =>
    some (if y.microseconds = 0 then .error Duration.divisionFault
    else .ok (.int (x.microseconds.fdiv y.microseconds)))
  | .floorDiv, .duration x, b => (whole? b).map fun n =>
    if n = 0 then .error Duration.divisionFault
    else (Duration.mk (x.microseconds.fdiv n)).checked
  | .mod, .duration x, .duration y =>
    some (if y.microseconds = 0 then .error ⟨.zeroDivision, "integer modulo by zero"⟩
    else .ok (.duration ⟨x.microseconds.fmod y.microseconds⟩))
  | _, _, _ => none
where
  /-- The whole number that a scalar is. -/
  whole? : Scalar → Option Int
    | .int n => some n
    | .bool b => some (if b then 1 else 0)
    | _ => none
  /-- A multiple of a duration. -/
  scaled? (x : Duration) (b : Scalar) : Option (Except Fault Scalar) :=
    match b with
    | .float y => some do
      let (n, m) ← Duration.ratio y
      (Duration.mk (Duration.nearestQuotient (x.microseconds * n) m)).checked
    | b => (whole? b).map fun n => (Duration.mk (x.microseconds * n)).checked

/-! ## Sequences -/

/-- How often a sequence is repeated: a negative number counts as zero. -/
def repeatCount (n : Int) : Except Fault Nat :=
  if n ≤ 0 then .ok 0
  else if n < 2 ^ (63 : Nat) then .ok n.toNat
  else .error ⟨.overflow, "cannot fit 'int' into an index-sized integer"⟩

def repeatList {α : Type} (items : List α) (n : Nat) : List α :=
  (List.replicate n items).flatten

/-- The whole number that a value is; truth values count. -/
def Value.index? (v : Value) : Option Int :=
  match v with
  | .int n => some n
  | .bool b => some (if b then 1 else 0)
  | _ => Option.none

def notRepeatable (factor : String) : Fault :=
  .ofType ("can't multiply sequence by non-int of type '" ++ factor ++ "'")

def notConcatenable (kind other : String) : Fault :=
  .ofType ("can only concatenate " ++ kind ++ " (not \"" ++ other ++ "\") to " ++ kind)

def notIterable (typeName : String) : Fault :=
  .ofType ("'" ++ typeName ++ "' object is not iterable")

/-- The values that iterating over a value gives. -/
def Value.iterate (v : Value) : Except Fault (List Value) :=
  match v with
  | .list items => .ok items
  | .tuple items => .ok items
  | .set items => .ok items
  | .frozenSet items => .ok items
  | .map entries => .ok (entries.map (·.1))
  | .frozenMap entries => .ok (entries.map (·.1))
  | .text s => .ok (s.toList.map fun c => .text (String.singleton c))
  | .bytes content => .ok (content.map fun b => .int b.toNat)
  | .scalar s => .error (notIterable s.familyName)
  | .derived e => .ok [.tuple [.text "derived", .text e]]
  | .foreign name _ => .error (notIterable name)

/-- Whether a value is a sequence that can be repeated. -/
def Value.isSequence : Value → Bool
  | .text _ => true
  | .list _ => true
  | .tuple _ => true
  | .bytes _ => true
  | _ => false

/-- A sequence repeated. -/
def Value.repeated (v : Value) (n : Nat) : Value :=
  match v with
  | .text s => .text (String.ofList (repeatList s.toList n))
  | .list items => .list (repeatList items n)
  | .tuple items => .tuple (repeatList items n)
  | .bytes content => .bytes (repeatList content n)
  | v => v

/-! ## All values -/

/-- What an operator does to two sets, if it knows sets. -/
def BinaryOperator.onSets? (op : BinaryOperator) (xs ys : List Value) : Option (List Value) :=
  let within (v : Value) (items : List Value) : Bool := items.any (·.sameKey v)
  match op with
  | .sub => some (xs.filter fun v => !within v ys)
  | .bitAnd => some (xs.filter fun v => within v ys)
  | .bitOr => some (xs ++ ys.filter fun v => !within v xs)
  | .bitXor => some ((xs.filter fun v => !within v ys) ++ ys.filter fun v => !within v xs)
  | _ => none

/-- An operator on two scalars, if it knows them without regard to sequences. -/
def BinaryOperator.onScalars? (op : BinaryOperator) (a b : Scalar) : Option (Except Fault Value) :=
  match a.number?, b.number? with
  | some x, some y =>
    match op, a, b with
    | .bitAnd, .bool p, .bool q => some (.ok (.bool (p && q)))
    | .bitOr, .bool p, .bool q => some (.ok (.bool (p || q)))
    | .bitXor, .bool p, .bool q => some (.ok (.bool (p != q)))
    | _, _, _ => op.onNumbers? x y
  | _, _ => (op.onCalendar? a b).map fun r => do pure (.scalar (← r))

/-- Joins two values end to end, where the left one is a sequence. -/
def Value.concatenate (app : Application) (x y : Value) : Except Fault Value :=
  match x, y with
  | .text s, .text t => .ok (.text (s ++ t))
  | .text _, _ => .error (notConcatenable "str" y.familyName)
  | .tuple xs, .tuple ys => .ok (.tuple (xs ++ ys))
  | .tuple _, _ => .error (notConcatenable "tuple" y.familyName)
  | .list xs, .list ys => .ok (.list (xs ++ ys))
  | .list xs, _ =>
    if app.assigning then do pure (.list (xs ++ (← y.iterate)))
    else .error (notConcatenable "list" y.familyName)
  | .bytes xs, .bytes ys => .ok (.bytes (xs ++ ys))
  | .bytes _, _ => .error (.ofType ("can't concat " ++ y.familyName ++ " to bytes"))
  | _, _ => .error (app.unsupported x.familyName y.familyName)

/-- Whether a value holds others without being a sequence. -/
def Value.isCollection : Value → Bool
  | .map _ => true
  | .frozenMap _ => true
  | .set _ => true
  | .frozenSet _ => true
  | _ => false

/-- A sequence times a number, in either order. -/
def Value.multiply (app : Application) (x y : Value) : Except Fault Value :=
  if x.isSequence then
    match y.index? with
    | some n => do pure (x.repeated (← repeatCount n))
    | Option.none => .error (notRepeatable y.familyName)
  else if y.isSequence && !(app.assigning && x.isCollection) then
    match x.index? with
    | some n => do pure (y.repeated (← repeatCount n))
    | Option.none => .error (notRepeatable x.familyName)
  else .error (app.unsupported x.familyName y.familyName)

/-- Applies an operator to two values. -/
def Application.apply (app : Application) (x y : Value) : Except Fault Value :=
  let otherwise : Except Fault Value :=
    match app.operator with
    | .add => x.concatenate app y
    | .mul => x.multiply app y
    | .mod =>
      match x with
      | .text s => do pure (.text (← Format.fillText Value.argumentSource s y))
      | .bytes content => do pure (.bytes (← Format.fillBytes Value.argumentSource content y))
      | x => .error (app.unsupported x.familyName y.familyName)
    | _ => .error (app.unsupported x.familyName y.familyName)
  match x, y with
  | .scalar a, .scalar b => (app.operator.onScalars? a b).getD otherwise
  | .set xs, .set ys => ((app.operator.onSets? xs ys).map (.ok ∘ .set)).getD otherwise
  | .set xs, .frozenSet ys => ((app.operator.onSets? xs ys).map (.ok ∘ .set)).getD otherwise
  | .frozenSet xs, .set ys => ((app.operator.onSets? xs ys).map (.ok ∘ .frozenSet)).getD otherwise
  | .frozenSet xs, .frozenSet ys =>
    ((app.operator.onSets? xs ys).map (.ok ∘ .frozenSet)).getD otherwise
  | .map xs, .map ys =>
    if app.operator = .bitOr then .ok (.map (Entries.ofPairs (xs ++ ys))) else otherwise
  | _, _ => otherwise

/-- The fault of an operator that has no assigning form. -/
def unsupportedAssignment (symbol : String) : Fault :=
  ⟨.notImplemented, "Augmented assignment " ++ symbol ++ " is not supported"⟩

/-- Applies the assigning form of an operator by its symbol.  A key fault, which a look-up in the
operands may raise, counts as an unknown symbol too. -/
def assignBySymbol (symbol : String) (target v : Value) : Except Fault Value :=
  match BinaryOperator.ofAssigningSymbol? symbol with
  | none => .error (unsupportedAssignment symbol)
  | some op =>
    match (Application.mk op true).apply target v with
    | .error f => .error (if f.kind = .key then unsupportedAssignment symbol else f)
    | .ok r => .ok r

end ModelPlaybook
