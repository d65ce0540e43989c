import ModelPlaybook.Sandbox.Capability
import ModelPlaybook.Script.Binding

/-!
# Objects of a running script

What the names of a running script stand for.  Objects that can change, or that are told apart by
more than their content, are cells of a store and appear by their address.
-/

namespace ModelPlaybook.Script

/-- The place of a cell in the store. -/
abbrev Address := Nat

/-- The types that scripts know by themselves. -/
inductive Kind where
  | bool | int | float | complex | text | tuple | list | dict | set | frozenSet | range | slice
  | decimal | date | dateTime | duration
  | enumerate | filter | map | reversed | zip
  | error (name : String)
deriving DecidableEq, Repr

/-- The functions that scripts know by themselves. -/
inductive Primitive where
  | abs | all | any | callable | chr | divmod | hash | hex | id | isInstance | isSubclass
  | len | max | min | oct | ord | pow | repr | round | sorted | sum
  | register
deriving DecidableEq, Repr

/-- The collections of functions that scripts know by themselves. -/
inductive Library where
  | math
  | json
  | time
deriving DecidableEq, Repr

/-- What a view of a mapping shows. -/
inductive View where
  | keys
  | values
  | items
deriving DecidableEq, Repr

/-- What tells apart objects of equal content that a script makes anew. -/
inductive Mark where
  /-- All objects with that content are one. -/
  | shared
  /-- The object is written in the script, and is one with all others that are. -/
  | written
  /-- The object belongs to a library, and is one with all others that do. -/
  | library
  | numbered (n : Nat)
deriving DecidableEq, Repr, Inhabited

inductive Object where
  | scalar (s : Scalar) (mark : Mark := .shared)
  | ellipsis
  | bytes (content : List UInt8) (mark : Mark := .shared)
  | tuple (items : List Object) (mark : Mark := .shared)
  | frozenMap (entries : List (Object × Object))
  | frozenSet (items : List Object) (mark : Mark := .shared)
  | range (start stop step : Int) (mark : Mark := .shared)
  | slice (start stop step : Object)
  | standIn (name : String)
  | kind (k : Kind)
  | primitive (p : Primitive)
  | library (l : Library)
  /-- A function of a library. -/
  | member (l : Library) (name : String)
  | logger
  /-- The function that prints, and the scope that keeps what it prints. -/
  | printer (scope : Address)
  /-- A method of an object that scripts know by itself. -/
  | method (receiver : Object) (name : String)
  | view (v : View) (source : Object)
  /-- An object of which only the type is known. -/
  | foreign (typeName : String) (origin : Origin := .computed)
  | cell (a : Address)
deriving BEq, Repr, Inhabited

abbrev Pairs := List (Object × Object)

namespace Object

@[match_pattern] abbrev nothing : Object := .scalar .none
@[match_pattern] abbrev bool (b : Bool) : Object := .scalar (.bool b)
abbrev int (n : Int) : Object := .scalar (.int n)
abbrev float (x : Binary64) : Object := .scalar (.float x)
abbrev decimal (d : Decimal) : Object := .scalar (.decimal d)
abbrev text (s : String) : Object := .scalar (.text s)

end Object

/-- Where a statement runs: the innermost scope, and what stands before the names of functions that
are defined there. -/
structure Frame where
  scope : Address
  path : String
deriving Repr

inductive ScopeKind where
  | script
  | function
  | kind
deriving DecidableEq, Repr

/-- The names of a block.  Of the names of a function it is known from the start which are its
own.  What is printed is kept with the names, or else by the scope around. -/
structure Scope where
  kind : ScopeKind
  own : List String
  given : List String
  bindings : List (String × Object)
  printed : Option String
  outer : Option Address

/-- What a function does when it is called. -/
inductive Body where
  | block (statements : List Stmt)
  | value (e : Expr)

structure Closure where
  name : String
  path : String
  parameters : Parameters
  defaults : List Object
  namedDefaults : List (String × Object)
  body : Body
  scope : Address

structure CustomKind where
  name : String
  path : String
  bases : List Object
  members : List (String × Object)

/-- A comprehension under way: the iterators of the clauses that are open, the innermost first.  It
fills something at once, or is handed on as an iterator. -/
structure Generator where
  frame : Frame
  element : Expr
  clauses : List Clause
  running : List Address
  handedOn : Bool

/-- How an iterator goes on. -/
inductive Iteration where
  | rest (typeName : String) (items : List Object)
  | listItems (list : Address) (index : Nat)
  | dictItems (v : View) (dict : Address) (index size : Nat)
  | numbers (next : Int) (count : Nat) (step : Int)
  | mapped (function : Object) (sources : List Address)
  | filtered (test : Object) (source : Address)
  /-- A strict iterator stops if the others do not all end together. -/
  | zipped (strict : Bool) (sources : List Address)
  | enumerated (source : Address) (next : Int)
  | generator (g : Generator)

inductive Cell where
  | list (items : List Object)
  | dict (entries : Pairs)
  | set (items : List Object)
  | scope (s : Scope)
  | closure (c : Closure)
  | custom (k : CustomKind)
  /-- An object of a custom kind, with the entries that it has as a mapping. -/
  | made (kind : Address) (entries : Option Pairs)
  /-- A custom function together with the object that it is a method of. -/
  | bound (receiver function : Object)
  /-- An error, with what it has under names.  Its text is fixed unless it follows from what it was
  made with. -/
  | error (kind : Object) (arguments : List Object) (text : Option String)
    (details : List (String × Object) := [])
  | iterator (i : Iteration)

/-- Why a script stops: an error was raised, or it runs on beyond all limits. -/
inductive Stop where
  | raised (error : Object)
  | exhausted

structure Machine where
  cells : Array Cell
  /-- The messages that were logged, the last one first. -/
  log : List String
  /-- The entry points that were registered, the last one first. -/
  registered : List Object
  /-- The errors that are being handled, the innermost first. -/
  handled : List Object
  /-- The number of the next object that is told apart from others of its content. -/
  next : Nat

abbrev Run := EStateM Stop Machine

namespace Run

/-- The cell of the script's own names. -/
def scriptScope : Address := 0

def read (a : Address) : Run Cell := do
  match (← get).cells[a]? with
  | some c => pure c
  | none => pure (.list [])

def write (a : Address) (c : Cell) : Run Unit :=
  modify fun m => { m with cells := m.cells.setIfInBounds a c }

def allocate (c : Cell) : Run Object := do
  let m ← get
  set { m with cells := m.cells.push c }
  pure (.cell m.cells.size)

def newList (items : List Object) : Run Object :=
  allocate (.list items)

def newDict (entries : Pairs) : Run Object :=
  allocate (.dict entries)

def newSet (items : List Object) : Run Object :=
  allocate (.set items)

/-- Raises an error of a named kind. -/
def raiseError {α : Type} (name : String) (arguments : List Object) (text : Option String)
    (details : List (String × Object) := []) : Run α := do
  throw (.raised (← allocate (.error (.kind (.error name)) arguments text details)))

def raiseFault {α : Type} (f : Fault) : Run α :=
  raiseError f.kind.name [.text f.text] (some f.text)

def raiseType {α : Type} (text : String) : Run α :=
  raiseFault (.ofType text)

def raiseValue {α : Type} (text : String) : Run α :=
  raiseFault (.ofValue text)

/-- A look-up failed; the text of the error shows the key. -/
def raiseKey {α : Type} (key : Object) : Run α :=
  raiseError "KeyError" [key] none

/-- A blocked name was used. -/
def deny {α : Type} (name : String) : Run α :=
  raiseFault (.denied name)

def ofFault {α : Type} (r : Except Fault α) : Run α :=
  match r with
  | .ok a => pure a
  | .error f => raiseFault f

/-- Repeats a step until it gives an answer. -/
def untilSome {α : Type} (step : Run (Option α)) : Nat → Run α
  | 0 => throw .exhausted
  | n + 1 => fun m =>
    match step m with
    | .ok (some a) m => .ok a m
    | .ok none m => untilSome step n m
    | .error e m => .error e m

/-- How often a loop may run. -/
def loopLimit : Nat := 100000000

/-- Takes a sequence of objects one by one. -/
def foldSome {α β : Type} (next : Run (Option α)) (visit : β → α → Run β) : Nat → β → Run β
  | 0, _ => throw .exhausted
  | n + 1, acc => fun m =>
    match next m with
    | .ok none m => .ok acc m
    | .ok (some a) m =>
      match visit acc a m with
      | .ok acc m => foldSome next visit n acc m
      | .error e m => .error e m
    | .error e m => .error e m

end Run

end ModelPlaybook.Script
