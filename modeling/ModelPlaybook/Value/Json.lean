import ModelPlaybook.Json.Text
import ModelPlaybook.Value.Equality

/-!
# JSON text of values

Writing uses ASCII only and separates items by a comma and a blank.  Lists and tuples become
arrays; mappings become objects whose keys are text, numbers, truth values or null.  Other values
have no JSON text.
-/

namespace ModelPlaybook.Json

/-- The text of a scalar, if JSON knows its kind. -/
def scalarText? (s : Scalar) : Option String :=
  match s with
  | .none => some "null"
  | .bool b => some (boolText b)
  | .int n => some (toString n)
  | .float x => some (jsonLayout.text x)
  | .text t => some (quoted t)
  | _ => none

/-- The name under which a key is written. -/
def keyText? (k : Value) : Option String :=
  match k with
  | .scalar (.text s) => some s
  | .scalar s => scalarText? s
  | _ => none

mutual

/-- The JSON text of a value, if it has one. -/
def write? : Value → Option String
  | .scalar s => scalarText? s
  | .list items => do pure ("[" ++ ", ".intercalate (← writeItems? items) ++ "]")
  | .tuple items => do pure ("[" ++ ", ".intercalate (← writeItems? items) ++ "]")
  | .map entries => do pure ("\x7b" ++ ", ".intercalate (← writeEntries? entries) ++ "\x7d")
  | _ => none
termination_by structural v => v

def writeItems? : List Value → Option (List String)
  | [] => some []
  | x :: xs => do
    let t ← write? x
    let ts ← writeItems? xs
    pure (t :: ts)
termination_by structural xs => xs

def writeEntries? : List (Value × Value) → Option (List String)
  | [] => some []
  | (k, v) :: rest => do
    let name ← keyText? k
    let t ← write? v
    let ts ← writeEntries? rest
    pure ((quoted name ++ ": " ++ t) :: ts)
termination_by structural xs => xs

end

end ModelPlaybook.Json
