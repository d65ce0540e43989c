import ModelPlaybook.Script.Iterator
import ModelPlaybook.Value.Format

/-!
# Objects in texts

Objects fill the directives of a text or of a run of bytes.
-/

namespace ModelPlaybook.Script

namespace Object

/-- Whether items of an object that is no text can be looked up. -/
def isSubscriptable (o : Object) : Run Bool := do
  match o with
  | .bytes _ _ => pure true
  | .frozenMap _ => pure true
  | .range _ _ _ _ => pure true
  | .standIn _ => pure true
  | .cell a =>
    match ← Run.read a with
    | .list _ => pure true
    | .dict _ => pure true
    | .made _ entries => pure entries.isSome
    | _ => pure false
  | _ => pure false

/-- The item of an object under a key of a directive. -/
def itemUnder (o : Object) (key : Value) : Run Object := do
  let key ← ofValue key
  match o with
  | .standIn name => Run.deny name
  | o =>
    match ← o.entries? with
    | some entries =>
      match ← entries.get? key with
      | some found => pure found
      | none => Run.raiseKey key
    | none =>
      let kind ← match o with
        | .bytes _ _ => pure "byte"
        | o => o.typeName
      Run.raiseType (kind ++ " indices must be integers or slices, not " ++ (← key.familyName))

/-- Objects as arguments. -/
def argumentSource : Format.Source Run Object where
  lift := Run.ofFault
  plainText := plainText
  shown := shown
  value := shadow
  group?
    | .tuple items _ => some items
    | _ => none
  isMapping := isSubscriptable
  item := itemUnder

end Object

end ModelPlaybook.Script
