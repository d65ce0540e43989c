import ModelPlaybook.Script.Comparison
import ModelPlaybook.Script.Identity
import ModelPlaybook.Value.Shown

/-!
# The shown form of objects

The shown form of objects, and the values that objects stand for outside of a script.
-/

namespace ModelPlaybook.Script

namespace Object

def isError (o : Object) : Run Bool := do
  match o with
  | .cell a =>
    match ← Run.read a with
    | .error .. => pure true
    | _ => pure false
  | _ => pure false

/-- The name of a kind as its shown form gives it. -/
def kindPath (kind : Object) : Run String := do
  match kind with
  | .kind (.error "JSONDecodeError") => pure "json.decoder.JSONDecodeError"
  | .kind k => pure k.familyName
  | .cell a =>
    match ← Run.read a with
    | .custom k => pure ("model_logic." ++ k.path)
    | _ => pure "type"
  | _ => pure "type"

def primitiveName : Primitive → String
  | .abs => "abs"
  | .all => "all"
  | .any => "any"
  | .callable => "callable"
  | .chr => "chr"
  | .divmod => "divmod"
  | .hash => "hash"
  | .hex => "hex"
  | .id => "id"
  | .isInstance => "isinstance"
  | .isSubclass => "issubclass"
  | .len => "len"
  | .max => "max"
  | .min => "min"
  | .oct => "oct"
  | .ord => "ord"
  | .pow => "pow"
  | .repr => "repr"
  | .round => "round"
  | .sorted => "sorted"
  | .sum => "sum"
  | .register => "register"

mutual

/-- The shown form of an object.  `inside` are the containers that it lies in. -/
def shownIn (inside : List Address) : Nat → Object → Run String
  | 0, _ => throw .exhausted
  | fuel + 1, o => do
    match o with
    | .scalar s _ => Run.ofFault (Value.scalar s).writeShown
    | .ellipsis => pure "Ellipsis"
    | .bytes content _ => pure (Text.quotedBytes content)
    | .tuple items _ => pure (Value.tupleText (← shownItems inside fuel items))
    | .frozenMap entries =>
      pure ("mappingproxy(" ++ Value.mapText (← shownEntries inside fuel entries) ++ ")")
    | .frozenSet items _ =>
      pure (Value.frozenSetText (← shownItems inside fuel (setOrder items)))
    | .range start stop step _ =>
      let bounds := [start, stop] ++ (if step = 1 then [] else [step])
      let parts ← bounds.mapM fun n => Run.ofFault (Value.int n).writeShown
      pure ("range(" ++ ", ".intercalate parts ++ ")")
    | .slice start stop step =>
      let parts ← shownItems inside fuel [start, stop, step]
      pure ("slice(" ++ ", ".intercalate parts ++ ")")
    | .standIn name => Run.deny name
    | .kind _ => pure ("<class '" ++ (← o.kindPath) ++ "'>")
    | .primitive .register => pure "<function register>"
    | .primitive p => pure ("<built-in function " ++ primitiveName p ++ ">")
    | .member _ name => pure ("<built-in function " ++ name ++ ">")
    | .method _ name => pure ("<built-in method " ++ name ++ ">")
    | .view v source =>
      let entries := (← source.entries?).getD []
      let parts ←
        match v with
        | .keys => shownItems inside fuel (entries.map (·.1))
        | .values => shownItems inside fuel (entries.map (·.2))
        | .items => shownItems inside fuel (entries.map fun (k, v) => .tuple [k, v])
      pure (v.typeName ++ "([" ++ ", ".intercalate parts ++ "])")
    | .cell a =>
      match ← Run.read a with
      | .list items =>
        if inside.contains a then pure "[...]"
        else pure ("[" ++ ", ".intercalate (← shownItems (a :: inside) fuel items) ++ "]")
      | .dict entries =>
        if inside.contains a then pure "\x7b...\x7d"
        else pure (Value.mapText (← shownEntries (a :: inside) fuel entries))
      | .set items =>
        pure (Value.setText (← shownItems (a :: inside) fuel (setOrder items)))
      | .made _ (some entries) =>
        if inside.contains a then pure "\x7b...\x7d"
        else pure (Value.mapText (← shownEntries (a :: inside) fuel entries))
      | .error maker arguments fixed _ =>
        match arguments, fixed with
        | [.scalar (.text _) _], some s => pure (Fault.shown ⟨.named (← kindName maker), s⟩)
        | arguments, _ =>
          let parts ← shownItems inside fuel arguments
          pure ((← kindName maker) ++ "(" ++ ", ".intercalate parts ++ ")")
      | .custom _ => pure ("<class '" ++ (← o.kindPath) ++ "'>")
      | .closure c => pure ("<function " ++ c.path ++ ">")
      | _ => pure ("<" ++ (← o.typeName) ++ " object>")
    | o => pure ("<" ++ (← o.typeName) ++ " object>")

def shownItems (inside : List Address) : Nat → List Object → Run (List String)
  | 0, _ => throw .exhausted
  | _ + 1, [] => pure []
  | fuel + 1, o :: rest => do
    let s ← shownIn inside fuel o
    pure (s :: (← shownItems inside fuel rest))

def shownEntries (inside : List Address) : Nat → Pairs → Run (List String)
  | 0, _ => throw .exhausted
  | _ + 1, [] => pure []
  | fuel + 1, (k, v) :: rest => do
    let key ← shownIn inside fuel k
    let value ← shownIn inside fuel v
    pure ((key ++ ": " ++ value) :: (← shownEntries inside fuel rest))

end

/-- The shown form of an object. -/
def shown (o : Object) : Run String :=
  shownIn [] compareDepth o

/-! ## Values -/

/-- The value that an object stands for.  A view or an iterator, a function and the like are known
by their types only. -/
def toValue : Nat → Object → Run Value
  | 0, _ => throw .exhausted
  | fuel + 1, o => do
    let pairs (entries : Pairs) : Run Entries :=
      entries.mapM fun (k, v) => do pure (← toValue fuel k, ← toValue fuel v)
    match o with
    | .scalar s _ => pure (.scalar s)
    | .bytes content _ => pure (.bytes content)
    | .tuple items _ => pure (.tuple (← items.mapM (toValue fuel)))
    | .frozenMap entries => pure (.frozenMap (← pairs entries))
    | .frozenSet items _ => pure (.frozenSet (← items.mapM (toValue fuel)))
    | .cell a =>
      match ← Run.read a with
      | .list items => pure (.list (← items.mapM (toValue fuel)))
      | .dict entries => pure (.map (← pairs entries))
      | .set items => pure (.set (← items.mapM (toValue fuel)))
      | .made _ (some entries) => pure (.map (← pairs entries))
      | _ => pure (.foreign (← o.typeName))
    | o => pure (.foreign (← o.typeName))

end Object

mutual

/-- The object that a value is for a script. -/
def ofValue : Value → Run Object
  | .scalar s => Run.anew (.scalar s)
  | .list items => do Run.newList (← ofValues items)
  | .tuple items => do Run.anew (.tuple (← ofValues items))
  | .map entries => do Run.newDict (← ofEntries entries)
  | .frozenMap entries => do pure (.frozenMap (← ofEntries entries))
  | .set items => do Run.newSet (← ofValues items)
  | .frozenSet items => do Run.anew (.frozenSet (← ofValues items))
  | .bytes content => Run.anew (.bytes content)
  | .derived _ => pure (.foreign "DerivedInput")
  | .foreign name origin => pure (.foreign name origin)
termination_by structural v => v

def ofValues : List Value → Run (List Object)
  | [] => pure []
  | v :: rest => do
    let o ← ofValue v
    pure (o :: (← ofValues rest))
termination_by structural vs => vs

def ofEntries : List (Value × Value) → Run Pairs
  | [] => pure []
  | (k, v) :: rest => do
    let key ← ofValue k
    let value ← ofValue v
    pure ((key, value) :: (← ofEntries rest))
termination_by structural es => es

end

end ModelPlaybook.Script
