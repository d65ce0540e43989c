import ModelPlaybook.Expression.Condition
import ModelPlaybook.Value.Shown

/-!
# Inputs of a step

Each input of a step is written as a literal, as a reference to one field, or as an object with an
expression to compute it from.
-/

namespace ModelPlaybook.Playbook

open ModelPlaybook.Expression

/-- Whether a text is meant as a field reference: it opens like one. -/
def opensReference (s : String) : Bool :=
  (openedScope? s.toList).isSome

/-- Whether a value is meant as a field reference. -/
def isFieldReference (v : Value) : Bool :=
  v.text?.any opensReference

/-- The reference that makes up a whole text; it is placed at the start of the text. -/
def referenceOfText (s : String) : Except SyntaxFault Reference := do
  match ← tokens .arithmetic (Text.trim s) with
  | [t, _] =>
    match t.lexeme with
    | .field scope name => pure ⟨scope, name, some 0⟩
    | _ => .error (.notOneReference s)
  | _ => .error (.notOneReference s)

/-- The keys of an object that should have had the key `derived` only, in order. -/
def sortedKeys (entries : Entries) : Except Failure String := do
  let keys ← escaping (Value.sorted (entries.map (·.1)))
  escaping (Value.list keys).writeShown

/-- The concrete value of an input. -/
def resolveInput (env : Environment) (input : Value) : Except Failure Value :=
  match input with
  | .derived expression => do
    pure (← Expression.evaluate env (.text expression)).toValue
  | .map entries => object entries
  | .frozenMap entries => object entries
  | .text s =>
    if opensReference s then
      match referenceOfText s with
      | .ok target => env.lookup target
      | .error fault => .error (.malformed fault)
    else .ok input
  | .none => .ok input
  | .bool _ => .ok input
  | .int _ => .ok input
  | .float _ => .ok input
  | v => .error (.contract ("Unsupported input map value of type " ++ v.typeName))
where
  /-- An input written as an object. -/
  object (entries : Entries) : Except Failure Value :=
    match entries with
    | [(.text "derived", expression)] => do
      pure (← Expression.evaluate env expression).toValue
    | _ => do
      let keys ← sortedKeys entries
      .error (.contract ("Input map objects must have exactly one key 'derived', got " ++ keys))

/-- The concrete values of inputs under their names, in order; the first failure stops. -/
def resolveEntries (env : Environment) (inputs : Entries) : Except Failure Entries :=
  inputs.mapM fun (key, input) => do
    pure (key, ← resolveInput env input)

/-- The concrete inputs of a step, of which the map may be absent. -/
def resolveInputs (env : Environment) (inputMap : Value) : Except Failure Entries :=
  match inputMap with
  | .none => .ok []
  | .map entries => resolveEntries env entries
  | .frozenMap entries => resolveEntries env entries
  | v => .error (.contract ("input_map must be a mapping, got " ++ v.typeName))

end ModelPlaybook.Playbook
