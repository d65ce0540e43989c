import ModelPlaybook.Format.Filling
import ModelPlaybook.Value.Shown

/-!
# Values in texts

Values fill the directives of a text or of a run of bytes.  Besides mappings, sequences other than
tuples count as something that items can be looked up in, although none is under a key.
-/

namespace ModelPlaybook.Value

/-- No item of a sequence is under a key. -/
def indexFault (sequence : String) (key : Value) : Fault :=
  .ofType (sequence ++ " indices must be integers or slices, not " ++ key.familyName)

/-- The item of a mapping under a key. -/
def itemUnder (mapping key : Value) : Except Fault Value :=
  match mapping with
  | .list _ => .error (indexFault "list" key)
  | .bytes _ => .error (indexFault "byte" key)
  | v =>
    match (v.entries?.getD []).find? fun entry => entry.1.sameKey key with
    | some (_, found) => .ok found
    | Option.none => .error ⟨.key, key.shown⟩

/-- Values as arguments. -/
def argumentSource : Format.Source (Except Fault) Value where
  lift r := r
  plainText v := v.writePlain
  shown v := v.writeShown
  value v := .ok v
  group?
    | .tuple items => some items
    | _ => Option.none
  isMapping
    | .map _ => .ok true
    | .frozenMap _ => .ok true
    | .list _ => .ok true
    | .bytes _ => .ok true
    | _ => .ok false
  item := itemUnder

end ModelPlaybook.Value
