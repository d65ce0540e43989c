import ModelPlaybook.Script.Object

/-!
# Which objects are one

Lists, mappings and the like are told apart by their places in the store.  Objects that cannot
change are told apart by marks, which they get where they are made.  There is only one object each
for small whole numbers, truth values, and text and bytes of at most one character.
-/

namespace ModelPlaybook.Script

namespace Object

/-- Whether there is only one object of a scalar's content. -/
def isPooled (s : Scalar) : Bool :=
  match s with
  | .none => true
  | .bool _ => true
  | .int n => decide (-5 ≤ n ∧ n ≤ 256)
  | .text t =>
    match t.toList with
    | [] => true
    | [c] => decide (c.toNat < 256)
    | _ => false
  | _ => false

/-- An object without a mark gets one, unless all objects of its content are one. -/
def withMark (mark : Mark) (o : Object) : Object :=
  match o with
  | .scalar s .shared => if isPooled s then o else .scalar s mark
  | .bytes content .shared => if content.length ≤ 1 then o else .bytes content mark
  | .tuple items .shared => if items.isEmpty then o else .tuple items mark
  | .frozenSet items .shared => .frozenSet items mark
  | .range start stop step .shared => .range start stop step mark
  | o => o

/-- An object told apart by a number, if it is not told apart already.  A NaN and an object of an
unknown type have an origin instead of a mark. -/
def numbered (n : Nat) (o : Object) : Object :=
  match o with
  | .scalar (.float (.nan .computed)) _ => .scalar (.float (.nan (.numbered n)))
  | .scalar (.float (.nan _)) _ => o
  | .scalar (.decimal (.nan negative signaling payload .computed)) _ =>
    .scalar (.decimal (.nan negative signaling payload (.numbered n)))
  | .scalar (.decimal (.nan _ _ _ _)) _ => o
  | .foreign name .computed => .foreign name (.numbered n)
  | o => o.withMark (.numbered n)

/-- An object that an expression without names gives: it is made once, when the script is read. -/
def asWritten (o : Object) : Object :=
  match o with
  | .scalar s _ => withMark .written (.scalar s)
  | .bytes content _ => withMark .written (.bytes content)
  | .tuple items _ => withMark .written (.tuple items)
  | o => o

/-- A number that is the same for one object and differs between others, as far as they are told
apart. -/
def identityNumber (o : Object) : Int :=
  match o with
  | .cell a => 2 * a
  | .scalar _ (.numbered n) => 2 * n + 1
  | .scalar (.float (.nan (.numbered n))) _ => 2 * n + 1
  | .tuple _ (.numbered n) => 2 * n + 1
  | .bytes _ (.numbered n) => 2 * n + 1
  | .frozenSet _ (.numbered n) => 2 * n + 1
  | .range _ _ _ (.numbered n) => 2 * n + 1
  | _ => 0

end Object

namespace Run

/-- An object that has just been made. -/
def anew (o : Object) : Run Object := do
  let m ← get
  set { m with next := m.next + 1 }
  pure (o.numbered m.next)

end Run

/-! ## Numbers in use -/

mutual

/-- The first number that no part of a value is told apart by. -/
def unusedNumber : Value → Nat
  | .scalar (.float (.nan (.numbered n))) => n + 1
  | .scalar (.decimal (.nan _ _ _ (.numbered n))) => n + 1
  | .foreign _ (.numbered n) => n + 1
  | .list items => unusedByAll items
  | .tuple items => unusedByAll items
  | .set items => unusedByAll items
  | .frozenSet items => unusedByAll items
  | .map entries => unusedByEntries entries
  | .frozenMap entries => unusedByEntries entries
  | _ => 0
termination_by structural v => v

def unusedByAll : List Value → Nat
  | [] => 0
  | v :: rest => max (unusedNumber v) (unusedByAll rest)
termination_by structural vs => vs

def unusedByEntries : List (Value × Value) → Nat
  | [] => 0
  | (k, v) :: rest => max (max (unusedNumber k) (unusedNumber v)) (unusedByEntries rest)
termination_by structural es => es

end

end ModelPlaybook.Script
