import ModelPlaybook.Model.InputCheck
import ModelPlaybook.Playbook.Input
import ModelPlaybook.Playbook.Definition

/-!
# Reviewing a playbook without running it

A review finds conditions and inputs that cannot be read, references to steps that do not come
earlier, and, as warnings, references to intake fields that are not declared.
-/

namespace ModelPlaybook.Playbook

open ModelPlaybook.Expression

/-- The references of a condition, or the error that it gives; a condition that always or never
holds has none. -/
def StepCondition.references : StepCondition → Except SyntaxFault (List Reference)
  | fixed _ => .ok []
  | written text =>
    if Text.trim text = "true" ∨ Text.trim text = "false" then .ok []
    else do pure (← Condition.ofText text).references

/-- The references of an input, or the error that it gives. -/
def StepInput.references : StepInput → Except SyntaxFault (List Reference)
  | derived expression => do pure (← Tree.ofText expression).references
  | text s => if opensReference s then do pure [← referenceOfText s] else .ok []
  | _ => .ok []

/-- What a review has found so far. -/
structure Findings where
  errors : List String
  warnings : List String
deriving DecidableEq, Repr

namespace Findings

def none : Findings := ⟨[], []⟩

def append (a b : Findings) : Findings :=
  ⟨a.errors ++ b.errors, a.warnings ++ b.warnings⟩

instance : Append Findings := ⟨append⟩

def error (text : String) : Findings := ⟨[text], []⟩

def warning (text : String) : Findings := ⟨[], [text]⟩

end Findings

/-- The references of a part of a step, and the finding that it gives if it cannot be read. -/
def readReferences (complaint : String) (r : Except SyntaxFault (List Reference)) :
    Findings × List Reference :=
  match r with
  | .ok references => (.none, references)
  | .error fault => (.error (complaint ++ fault.message), [])

/-- What one reference gives, given the declared fields and the earlier steps. -/
def reviewReference (place : String) (declared earlier : List String) (r : Reference) : Findings :=
  if r.scope = .steps then
    if earlier.contains (splitAtPoint r.name).1 then .none
    else .error (place ++ ": reference to '" ++ r.path ++ "' does not name an earlier step")
  else if declared.isEmpty || declared.contains r.name then .none
  else .warning (place ++ ": '" ++ r.path ++ "' is not a declared intake field")

/-- How a review refers to a step. -/
def Step.place (index : Nat) (step : Step) : String :=
  "steps[" ++ toString index ++ "] (" ++ step.id ++ ")"

/-- What a step gives, given the declared fields and the earlier steps. -/
def reviewStep (declared earlier : List String) (index : Nat) (step : Step) : Findings :=
  let place := step.place index
  let ofCondition :=
    match step.condition with
    | some c => [readReferences (place ++ ": invalid condition: ") c.references]
    | none => []
  let ofInputs := step.inputs.map fun (key, input) =>
    readReferences (place ++ ": input '" ++ key ++ "': ") input.references
  let parts := ofCondition ++ ofInputs
  let unread := parts.foldl (fun found part => found ++ part.1) Findings.none
  (parts.flatMap (·.2)).foldl
    (fun found r => found ++ reviewReference place declared earlier r) unread

/-- Reviews the steps from an index on, given the ids of the steps before. -/
def reviewSteps (declared : List String) (earlier : List String) : Nat → List Step → Findings
  | _, [] => .none
  | index, step :: rest =>
    reviewStep declared earlier index step ++
      reviewSteps declared (step.id :: earlier) (index + 1) rest

/-- The review of a playbook. -/
def review (p : Playbook) : Verdict :=
  let found := reviewSteps (p.intakeFields.map (·.id)) [] 0 p.steps
  ⟨found.errors.isEmpty, found.errors, found.warnings⟩

end ModelPlaybook.Playbook
