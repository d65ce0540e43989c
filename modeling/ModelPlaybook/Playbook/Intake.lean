import ModelPlaybook.Playbook.Definition

/-!
# Intake

The intake holds the values that a run starts from.  Each declared field has to be there with a
value of its type; further values are allowed.  All violations are reported.
-/

namespace ModelPlaybook.Playbook

/-- The types that an intake field can be declared with. -/
inductive IntakeType where
  | number | string | boolean
deriving DecidableEq, Repr

def IntakeType.name : IntakeType → String
  | number => "number"
  | string => "string"
  | boolean => "boolean"

def IntakeType.all : List IntakeType := [number, string, boolean]

def IntakeType.ofName? (s : String) : Option IntakeType :=
  all.find? (·.name == s)

/-- Whether a value belongs to a type; numbers are whole numbers and finite doubles. -/
def IntakeType.admits : IntakeType → Value → Bool
  | number, .int _ => true
  | number, .float x => x.isFinite
  | string, .text _ => true
  | boolean, .bool _ => true
  | _, _ => false

def IntakeType.expected : IntakeType → String
  | number => "finite number"
  | string => "string"
  | boolean => "boolean"

/-- The violation of a field by a value, if there is one. -/
def IntakeField.violation? (field : IntakeField) (v : Value) : Option String :=
  match IntakeType.ofName? field.type with
  | none =>
    some ("Intake field \"" ++ field.id ++ "\" declares unknown type \"" ++ field.type ++
      "\". Allowed types: " ++ ", ".intercalate (IntakeType.all.map (·.name)))
  | some type =>
    if type.admits v then none
    else
      some ("Intake field \"" ++ field.id ++ "\" must be a " ++ type.expected ++ ", got " ++
        v.typeName)

/-- The violation of a field by the intake, if there is one. -/
def IntakeField.violationIn? (field : IntakeField) (intake : Entries) : Option String :=
  match intake.get? field.id with
  | none => some ("Missing required intake field: \"" ++ field.id ++ "\"")
  | some v => field.violation? v

/-- The violations of the declared fields by the intake, in the order of the fields. -/
def intakeViolations (fields : List IntakeField) (intake : Value) : List String :=
  match intake.entries? with
  | none => ["Intake must be a mapping, got " ++ intake.typeName]
  | some entries => fields.filterMap (·.violationIn? entries)

end ModelPlaybook.Playbook
