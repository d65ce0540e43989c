import ModelPlaybook.Script.Iterator
import ModelPlaybook.Script.Slots

/-!
# Sorting and choosing the extreme

Lists in ascending or descending order, and the least and the greatest of several objects, with
respect to a key if one is given.
-/

namespace ModelPlaybook.Script

namespace Object

/-- The key by which an object is compared. -/
def keyOf (ev : Evaluator) (function : Option Object) (o : Object) : Run Object := do
  match function with
  | none => pure o
  | some .nothing => pure o
  | some f => ev.apply f [o]

/-- Objects in ascending order of their keys, or in descending order. -/
def sortedBy (ev : Evaluator) (key : Option Object) (descending : Bool) (items : List Object) :
    Run (List Object) := do
  let keyed ← items.mapM fun o => do pure (← keyOf ev key o, o)
  let less (x y : Object × Object) : Run Bool := compareBy .less x.1 y.1
  let turn (pairs : List (Object × Object)) : List (Object × Object) :=
    if descending then pairs.reverse else pairs
  pure ((turn (← sortBy less (turn keyed))).map (·.2))

/-- The parameters of sorting. -/
def sortSlots : Slots where
  function := some "sort"
  names := ["key", "reverse"]

/-- Whether an argument asks for descending order. -/
def isDescending (o : Object) : Run Bool := do
  match o.index? with
  | some n =>
    if -(2 ^ (31 : Nat)) ≤ n ∧ n < 2 ^ (31 : Nat) then pure (n ≠ 0) else Run.raiseTooLarge "int"
  | none =>
    Run.raiseType ("'" ++ (← o.familyName) ++ "' object cannot be interpreted as an integer")

/-- Objects sorted as the named arguments say. -/
def sortedGiven (ev : Evaluator) (g : Given) (items : List Object) : Run (List Object) := do
  match ← sortSlots.fill g.onlyNamed with
  | [key, order] => do
    let descending ← order.elim (pure false) isDescending
    sortedBy ev key descending items
  | _ => pure items

/-- The object whose key comes first by a comparison; of equal ones, the earliest. -/
def extreme (ev : Evaluator) (c : Comparator) (key : Option Object) (items : List Object) :
    Run (Option Object) := do
  let found ← items.foldlM (fun (best : Option (Object × Object)) o => do
    let k ← keyOf ev key o
    match best with
    | none => pure (some (k, o))
    | some (k', o') => pure (if ← compareBy c k k' then some (k, o) else some (k', o')))
    (none : Option (Object × Object))
  pure (found.map (·.2))

/-- The least or the greatest of the arguments, or of the items of the only one. -/
def extremeGiven (ev : Evaluator) (name : String) (c : Comparator) (g : Given) : Run Object := do
  if g.positional.isEmpty then
    Run.raiseType (name ++ " expected at least 1 argument, got 0")
  let slots : Slots := { function := some name, names := ["key", "default"] }
  let _ ← slots.fill g.onlyNamed
  match g.positional, g.get? "default" with
  | [source], fallback =>
    match ← extreme ev c (g.get? "key") (← ev.items source), fallback with
    | some o, _ => pure o
    | none, some o => pure o
    | none, none => Run.raiseValue (name ++ "() arg is an empty sequence")
  | _, some _ =>
    Run.raiseType ("Cannot specify a default for " ++ name ++
      "() with multiple positional arguments")
  | items, none => pure ((← extreme ev c (g.get? "key") items).getD .nothing)

end Object

end ModelPlaybook.Script
