import ModelPlaybook.Model.Manifest
import ModelPlaybook.Value.Json
import ModelPlaybook.Value.Order

/-!
# Checking inputs against a manifest

Every declared input has to be there and to be of its declared type; other inputs are ignored.  All
violations are reported, in the order of the manifest.
-/

namespace ModelPlaybook

/-- The result of a validation. -/
structure Verdict where
  valid : Bool
  errors : List String
  warnings : List String
deriving DecidableEq, Repr

namespace Verdict

def ok (warnings : List String) : Verdict := ⟨true, [], warnings⟩

def error (errors : List String) : Verdict := ⟨false, errors, []⟩

end Verdict

namespace Model

/-- The types that an input can be declared with. -/
inductive InputType where
  | number | string | boolean | enum
deriving DecidableEq, Repr

def InputType.name : InputType → String
  | number => "number"
  | string => "string"
  | boolean => "boolean"
  | enum => "enum"

def InputType.all : List InputType := [number, string, boolean, enum]

def InputType.ofName? (s : String) : Option InputType :=
  all.find? (·.name == s)

/-- Whether a value is a number that is neither infinite nor a NaN; truth values are none. -/
def isFiniteNumber (v : Value) : Bool :=
  match v with
  | .int _ => true
  | .float x => x.isFinite
  | .decimal d => d.isFinite
  | _ => false

/-- A value inside a message: its JSON text, or its shown form if it has none. -/
def valueText (v : Value) : Except Fault String :=
  match v.writeShown, Json.write? v with
  | .ok _, some s => .ok s
  | shown, _ => shown

def wrongType (spec : InputSpec) (expected : String) (v : Value) : Except Fault String := do
  pure ("Input \"" ++ spec.id ++ "\" must be a " ++ expected ++ ", got " ++ v.typeName ++ " (" ++
    (← valueText v) ++ ")")

/-- The violation of a declared input by a value, if there is one. -/
def InputSpec.violation? (spec : InputSpec) (v : Value) : Except Fault (Option String) :=
  let expecting (accepted : Bool) (expected : String) : Except Fault (Option String) :=
    if accepted then .ok none else (wrongType spec expected v).map some
  match InputType.ofName? spec.type with
  | none =>
    .ok (some ("Input \"" ++ spec.id ++ "\" declares unknown type \"" ++ spec.type ++
      "\". Allowed types: " ++ ", ".intercalate (InputType.all.map (·.name))))
  | some .number => expecting (isFiniteNumber v) "finite number"
  | some .string => expecting v.text?.isSome "string"
  | some .boolean => expecting (decide (v.kind = .bool)) "boolean"
  | some .enum =>
    match spec.values with
    | none | some [] =>
      .ok (some ("Input \"" ++ spec.id ++
        "\" is declared as enum but has no \"values\" list in the manifest"))
    | some values => do
      if ← v.isAmong values then pure none
      else
        let given ← valueText v
        pure (some ("Input \"" ++ spec.id ++ "\" value " ++ given ++
          " is not one of the allowed enum values: " ++
          ", ".intercalate (← values.mapM valueText)))

/-- The violation of a declared input by a mapping of inputs, if there is one. -/
def InputSpec.violationIn? (spec : InputSpec) (inputs : Entries) :
    Except Fault (Option String) :=
  match inputs.get? spec.id with
  | none => .ok (some ("Missing required input: \"" ++ spec.id ++ "\""))
  | some v => spec.violation? v

/-- The violations of declared inputs, in order. -/
def violations (specs : List InputSpec) (inputs : Entries) :
    Except Fault (List String) := do
  pure ((← specs.mapM (·.violationIn? inputs)).filterMap id)

/-- Checks inputs against a manifest. -/
def Manifest.checkInputs (m : Manifest) (inputs : Value) : Except Fault Verdict :=
  match inputs.entries? with
  | none => .ok (.error ["inputs must be a mapping"])
  | some entries => do
    match ← violations m.inputs entries with
    | [] => pure (.ok [])
    | errors => pure (.error errors)

end Model

end ModelPlaybook
