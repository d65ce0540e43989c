import ModelPlaybook.Script.Object

/-!
# Kinds of objects

The types of objects, how they are named, and which of them include others.
-/

namespace ModelPlaybook.Script

/-- The kinds of errors with the kinds that include them directly. -/
def errorParents : List (String × List String) := [
  ("BaseException", []), ("Exception", ["BaseException"]), ("GeneratorExit", ["BaseException"]),
  ("KeyboardInterrupt", ["BaseException"]), ("SystemExit", ["BaseException"]),
  ("ArithmeticError", ["Exception"]), ("FloatingPointError", ["ArithmeticError"]),
  ("OverflowError", ["ArithmeticError"]), ("ZeroDivisionError", ["ArithmeticError"]),
  ("DecimalException", ["ArithmeticError"]), ("InvalidOperation", ["DecimalException"]),
  ("DivisionByZero", ["DecimalException", "ZeroDivisionError"]),
  ("Overflow", ["DecimalException"]), ("AssertionError", ["Exception"]),
  ("AttributeError", ["Exception"]), ("BufferError", ["Exception"]), ("EOFError", ["Exception"]),
  ("ImportError", ["Exception"]), ("LookupError", ["Exception"]), ("IndexError", ["LookupError"]),
  ("KeyError", ["LookupError"]), ("MemoryError", ["Exception"]), ("NameError", ["Exception"]),
  ("UnboundLocalError", ["NameError"]), ("OSError", ["Exception"]),
  ("BlockingIOError", ["OSError"]), ("ChildProcessError", ["OSError"]),
  ("ConnectionError", ["OSError"]), ("BrokenPipeError", ["ConnectionError"]),
  ("ConnectionAbortedError", ["ConnectionError"]),
  ("ConnectionRefusedError", ["ConnectionError"]), ("ConnectionResetError", ["ConnectionError"]),
  ("FileExistsError", ["OSError"]), ("FileNotFoundError", ["OSError"]),
  ("InterruptedError", ["OSError"]), ("IsADirectoryError", ["OSError"]),
  ("NotADirectoryError", ["OSError"]), ("PermissionError", ["OSError"]),
  ("ProcessLookupError", ["OSError"]), ("TimeoutError", ["OSError"]),
  ("ReferenceError", ["Exception"]),
  ("RuntimeError", ["Exception"]), ("NotImplementedError", ["RuntimeError"]),
  ("StopIteration", ["Exception"]), ("SyntaxError", ["Exception"]),
  ("IndentationError", ["SyntaxError"]), ("TabError", ["IndentationError"]),
  ("SystemError", ["Exception"]), ("TypeError", ["Exception"]), ("ValueError", ["Exception"]),
  ("JSONDecodeError", ["ValueError"]), ("UnicodeError", ["ValueError"]),
  ("UnicodeDecodeError", ["UnicodeError"]), ("UnicodeEncodeError", ["UnicodeError"]),
  ("UnicodeTranslateError", ["UnicodeError"]), ("Warning", ["Exception"]),
  ("BytesWarning", ["Warning"]), ("DeprecationWarning", ["Warning"]),
  ("FutureWarning", ["Warning"]), ("ImportWarning", ["Warning"]),
  ("PendingDeprecationWarning", ["Warning"]), ("RuntimeWarning", ["Warning"]),
  ("SyntaxWarning", ["Warning"]), ("UnicodeWarning", ["Warning"]), ("UserWarning", ["Warning"])]

/-- The longest chain of kinds that is followed. -/
def kindDepth : Nat := 100

/-- Whether one kind of errors includes another one. -/
def errorIncludes (ancestor : String) : Nat → String → Bool
  | 0, _ => false
  | fuel + 1, name =>
    name = ancestor ||
      ((errorParents.lookup name).getD []).any (errorIncludes ancestor fuel)

namespace Kind

def name : Kind → String
  | bool => "bool"
  | int => "int"
  | float => "float"
  | complex => "complex"
  | text => "str"
  | tuple => "tuple"
  | list => "list"
  | dict => "dict"
  | set => "set"
  | frozenSet => "frozenset"
  | range => "range"
  | slice => "slice"
  | decimal => "Decimal"
  | date => "date"
  | dateTime => "datetime"
  | duration => "timedelta"
  | enumerate => "enumerate"
  | filter => "filter"
  | map => "map"
  | reversed => "reversed"
  | zip => "zip"
  | error name => name

/-- The name together with the family that the kind belongs to. -/
def familyName : Kind → String
  | decimal => "decimal.Decimal"
  | date => "datetime.date"
  | dateTime => "datetime.datetime"
  | duration => "datetime.timedelta"
  | k => k.name

/-- Whether a kind is another one or included in it. -/
def isWithin (k ancestor : Kind) : Bool :=
  k = ancestor ||
    match k, ancestor with
    | bool, int => true
    | dateTime, date => true
    | error name, error ancestor => errorIncludes ancestor kindDepth name
    | _, _ => false

end Kind

/-- The kind of a scalar, if scripts have a name for it. -/
def kindOfScalar? : Scalar → Option Kind
  | .none => none
  | .bool _ => some .bool
  | .int _ => some .int
  | .float _ => some .float
  | .decimal _ => some .decimal
  | .text _ => some .text
  | .date _ => some .date
  | .dateTime _ => some .dateTime
  | .duration _ => some .duration

def Iteration.typeName : Iteration → String
  | rest typeName _ => typeName
  | listItems _ _ => "list_iterator"
  | dictItems .keys _ _ _ => "dict_keyiterator"
  | dictItems .values _ _ _ => "dict_valueiterator"
  | dictItems .items _ _ _ => "dict_itemiterator"
  | numbers _ _ _ => "range_iterator"
  | mapped _ _ => "map"
  | filtered _ _ => "filter"
  | zipped _ _ => "zip"
  | enumerated _ _ => "enumerate"
  | generator _ => "generator"

def View.typeName : View → String
  | keys => "dict_keys"
  | values => "dict_values"
  | items => "dict_items"

/-- Sizes, and positions in what is kept item by item, lie below. -/
def sizeLimit : Int := 2 ^ (63 : Nat)

/-- A whole number is beyond what a word of the machine holds. -/
def Run.raiseTooLarge {α : Type} (word : String) : Run α :=
  Run.raiseFault ⟨.overflow, "Python int too large to convert to C " ++ word⟩

namespace Object

/-- The name of a kind. -/
def kindName (kind : Object) : Run String := do
  match kind with
  | .kind k => pure k.name
  | .cell a =>
    match ← Run.read a with
    | .custom k => pure k.name
    | _ => pure "type"
  | _ => pure "type"

/-- The name of an object's type. -/
def typeName (o : Object) : Run String := do
  match o with
  | .scalar s _ => pure s.typeName
  | .ellipsis => pure "ellipsis"
  | .bytes _ _ => pure "bytes"
  | .tuple _ _ => pure "tuple"
  | .frozenMap _ => pure "mappingproxy"
  | .frozenSet _ _ => pure "frozenset"
  | .range _ _ _ _ => pure "range"
  | .slice _ _ _ => pure "slice"
  | .standIn _ => pure Sandbox.standInType
  | .kind _ => pure "type"
  | .primitive .register => pure "function"
  | .primitive _ => pure "builtin_function_or_method"
  | .library _ => pure "SimpleNamespace"
  | .member .json _ => pure "function"
  | .member _ _ => pure "builtin_function_or_method"
  | .logger => pure "ModelLog"
  | .method .logger _ => pure "method"
  | .printer _ => pure "method"
  | .method _ _ => pure "builtin_function_or_method"
  | .view v _ => pure v.typeName
  | .foreign name _ => pure name
  | .cell a =>
    match ← Run.read a with
    | .list _ => pure "list"
    | .dict _ => pure "dict"
    | .set _ => pure "set"
    | .scope _ => pure "dict"
    | .closure _ => pure "function"
    | .custom _ => pure "type"
    | .made maker _ => kindName (.cell maker)
    | .bound _ _ => pure "method"
    | .error maker .. => kindName maker
    | .iterator i => pure i.typeName

/-- The name of an object's type together with the family of the type. -/
def familyName (o : Object) : Run String := do
  match o with
  | .scalar s _ => pure s.familyName
  | .library _ => pure "types.SimpleNamespace"
  | o => o.typeName

/-- A value of the same type, by which faults name the object.  Collections stand empty. -/
def shadow (o : Object) : Run Value := do
  match o with
  | .scalar s _ => pure (.scalar s)
  | .tuple _ _ => pure (.tuple [])
  | .bytes content _ => pure (.bytes content)
  | .frozenMap _ => pure (.frozenMap [])
  | .frozenSet _ _ => pure (.frozenSet [])
  | .cell a =>
    match ← Run.read a with
    | .list _ => pure (.list [])
    | .dict _ => pure (.map [])
    | .set _ => pure (.set [])
    | _ => pure (.foreign (← o.familyName))
  | o => pure (.foreign (← o.familyName))

/-- The kind that an object is made by, if scripts know it. -/
def madeBy? (o : Object) : Run (Option Object) := do
  match o with
  | .scalar s _ => pure ((kindOfScalar? s).map .kind)
  | .tuple _ _ => pure (some (.kind .tuple))
  | .frozenSet _ _ => pure (some (.kind .frozenSet))
  | .range _ _ _ _ => pure (some (.kind .range))
  | .slice _ _ _ => pure (some (.kind .slice))
  | .foreign "complex" _ => pure (some (.kind .complex))
  | .cell a =>
    match ← Run.read a with
    | .list _ => pure (some (.kind .list))
    | .dict _ => pure (some (.kind .dict))
    | .set _ => pure (some (.kind .set))
    | .made maker _ => pure (some (.cell maker))
    | .error maker .. => pure (some maker)
    | .iterator (.mapped _ _) => pure (some (.kind .map))
    | .iterator (.filtered _ _) => pure (some (.kind .filter))
    | .iterator (.zipped _ _) => pure (some (.kind .zip))
    | .iterator (.enumerated _ _) => pure (some (.kind .enumerate))
    | _ => pure none
  | _ => pure none

/-- The kinds that a kind is directly included in. -/
def bases (kind : Object) : Run (List Object) := do
  match kind with
  | .cell a =>
    match ← Run.read a with
    | .custom k => pure k.bases
    | _ => pure []
  | _ => pure []

/-- Whether a kind is another one or included in it. -/
def isKindWithin (ancestor : Object) : Nat → Object → Run Bool
  | 0, _ => pure false
  | fuel + 1, o => do
    match o, ancestor with
    | .kind k, .kind a => pure (k.isWithin a)
    | _, _ =>
      if o == ancestor then pure true
      else (← o.bases).anyM (isKindWithin ancestor fuel)

/-- The kind of scripts' own that a kind rests on. -/
def foundation? : Nat → Object → Run (Option Kind)
  | 0, _ => pure none
  | fuel + 1, o => do
    match o with
    | .kind k => pure (some k)
    | other => do
      for base in ← other.bases do
        match ← foundation? fuel base with
        | some k => return some k
        | none => pure ()
      pure none

def isErrorKind (kind : Object) : Run Bool := do
  match kind with
  | .kind (.error _) => pure true
  | .cell a =>
    match ← Run.read a with
    | .custom _ =>
      match ← foundation? kindDepth kind with
      | some (.error _) => pure true
      | _ => pure false
    | _ => pure false
  | _ => pure false

/-- Whether an object is a type. -/
def isKind (o : Object) : Run Bool := do
  match o with
  | .kind _ => pure true
  | .cell a =>
    match ← Run.read a with
    | .custom _ => pure true
    | _ => pure false
  | _ => pure false

/-- Whether an object is of a kind. -/
def isOf (o kind : Object) : Run Bool := do
  match ← o.madeBy? with
  | some k => isKindWithin kind kindDepth k
  | none => pure false

/-- Whether an object can be called; the stand-in of a blocked name seems so. -/
def isCallable (o : Object) : Run Bool := do
  match o with
  | .standIn _ => pure true
  | .kind _ => pure true
  | .primitive _ => pure true
  | .member _ _ => pure true
  | .method _ _ => pure true
  | .printer _ => pure true
  | .cell a =>
    match ← Run.read a with
    | .closure _ => pure true
    | .custom _ => pure true
    | .bound _ _ => pure true
    | _ => pure false
  | _ => pure false

/-- The entries of a mapping. -/
def entries? (o : Object) : Run (Option Pairs) := do
  match o with
  | .frozenMap entries => pure (some entries)
  | .cell a =>
    match ← Run.read a with
    | .dict entries => pure (some entries)
    | .made _ entries => pure entries
    | _ => pure none
  | _ => pure none

def isWhole : Object → Bool
  | .scalar (.int _) _ => true
  | _ => false

def isNatural : Object → Bool
  | .scalar (.int n) _ => decide (0 ≤ n)
  | _ => false

/-- The order in which the elements of a set are gone through: whole numbers ascend, anything else
comes as it was put in. -/
def setOrder (items : List Object) : List Object :=
  if items.all isNatural then
    items.mergeSort fun x y =>
      match x, y with
      | .scalar (.int a) _, .scalar (.int b) _ => decide (a ≤ b)
      | _, _ => true
  else items

/-- The elements of a set, or of a view that is used like one. -/
def elements? (o : Object) : Run (Option (List Object)) := do
  match o with
  | .frozenSet items _ => pure (some items)
  | .view .keys source => pure ((← source.entries?).map fun es => es.map (·.1))
  | .view .items source =>
    pure ((← source.entries?).map fun es => es.map fun (k, v) => .tuple [k, v])
  | .cell a =>
    match ← Run.read a with
    | .set items => pure (some items)
    | _ => pure none
  | _ => pure none

/-- The items of a list. -/
def listItems? (o : Object) : Run (Option (List Object)) := do
  match o with
  | .cell a =>
    match ← Run.read a with
    | .list items => pure (some items)
    | _ => pure none
  | _ => pure none

/-- How many numbers a range has. -/
def rangeCount (start stop step : Int) : Nat :=
  if 0 < step then ((stop - start + step - 1).fdiv step).toNat
  else ((start - stop - step - 1).fdiv (-step)).toNat

/-- The number of parts of an object that has parts. -/
def size? (o : Object) : Run (Option Nat) := do
  match o with
  | .scalar (.text s) _ => pure (some s.length)
  | .bytes content _ => pure (some content.length)
  | .tuple items _ => pure (some items.length)
  | .frozenMap entries => pure (some entries.length)
  | .frozenSet items _ => pure (some items.length)
  | .range start stop step _ => pure (some (rangeCount start stop step))
  | .view _ source => pure ((← source.entries?).map (·.length))
  | .cell a =>
    match ← Run.read a with
    | .list items => pure (some items.length)
    | .dict entries => pure (some entries.length)
    | .set items => pure (some items.length)
    | .made _ entries => pure (entries.map (·.length))
    | _ => pure none
  | _ => pure none

/-- Whether an object counts as true. -/
def isTrue (o : Object) : Run Bool := do
  match o with
  | .scalar s _ => pure (Value.scalar s).isTruthy
  | .standIn name => Run.deny name
  | o =>
    match ← o.size? with
    | some n => pure (n ≠ 0)
    | none => pure true

/-- The whole number that an object is; truth values count. -/
def index? : Object → Option Int
  | .scalar (.int n) _ => some n
  | .bool b => some (if b then 1 else 0)
  | _ => none

end Object

/-- Something else takes the place of what raises an error of a kind. -/
def Run.unlessRaised {α : Type} (r : Run α) (kind : Kind) (other : Run α) : Run α :=
  tryCatch r fun
    | .raised error => do
      if ← error.isOf (.kind kind) then other else throw (.raised error)
    | .exhausted => throw .exhausted

end ModelPlaybook.Script
