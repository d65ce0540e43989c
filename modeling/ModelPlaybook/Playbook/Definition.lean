import ModelPlaybook.Error
import ModelPlaybook.Schema.Field

/-!
# Playbooks

A playbook names the values it asks for once, its intake fields, and the steps that run one after
the other.  A step runs one model on inputs taken from the intake, from earlier steps or from
literals, unless its condition does not hold.
-/

namespace ModelPlaybook.Playbook

open ModelPlaybook.Schema

/-- What happens to a run when a step fails. -/
inductive FailurePolicy where
  | abort
  | warnAndContinue
deriving DecidableEq, Repr

def FailurePolicy.name : FailurePolicy → String
  | abort => "abort"
  | warnAndContinue => "warn_and_continue"

def FailurePolicy.check (v : Value) : Checked FailurePolicy :=
  match text v with
  | .valid "abort" => .valid abort
  | .valid "warn_and_continue" => .valid warnAndContinue
  | _ => .fail (.notAmong "'abort' or 'warn_and_continue'")

structure IntakeField where
  id : String
  type : String
  label : String
  extra : Entries
deriving DecidableEq, Repr

/-- When a step runs. -/
inductive StepCondition where
  | fixed (runs : Bool)
  | written (text : String)
deriving DecidableEq, Repr

def StepCondition.toValue : StepCondition → Value
  | fixed runs => .bool runs
  | written text => .text text

/-- Where an input of a step comes from: an expression, or a literal, of which a text may be a
field reference. -/
inductive StepInput where
  | derived (expression : String)
  | none
  | bool (b : Bool)
  | int (n : Int)
  | float (x : Binary64)
  | text (s : String)
deriving DecidableEq, Repr

def StepInput.toValue : StepInput → Value
  | derived expression => .derived expression
  | none => .none
  | bool b => .bool b
  | int n => .int n
  | float x => .float x
  | text s => .text s

structure Step where
  id : String
  modelId : String
  condition : Option StepCondition
  inputs : List (String × StepInput)
  onError : FailurePolicy
  sectionLabel : String
  extra : Entries
deriving DecidableEq, Repr

/-- The label under which a step appears in a report. -/
def Step.label (s : Step) : String :=
  if s.sectionLabel = "" then s.modelId else s.sectionLabel

end ModelPlaybook.Playbook

namespace ModelPlaybook

/-- A complete playbook. -/
structure Playbook where
  id : String
  version : String
  name : String
  description : String
  intakeFields : List Playbook.IntakeField
  steps : List Playbook.Step
  extra : Entries
deriving DecidableEq, Repr

/-- The step with a given id. -/
def Playbook.step? (p : Playbook) (id : String) : Option Playbook.Step :=
  p.steps.find? (·.id == id)

end ModelPlaybook
