import ModelPlaybook.Value.Basic

/-!
# Reports

A step ends in exactly one of three ways: it succeeds with outputs, it fails with an error, or it
is skipped because its condition does not hold.  A report lists how the steps of a run ended and
counts them.
-/

namespace ModelPlaybook.Playbook

/-- How a step ended. -/
inductive Ending where
  | succeeded (outputs : Entries) (modelVersion : Option String)
  | failed (error : String) (code : Option String)
  | skipped (reason : String)
deriving DecidableEq, Repr

structure StepResult where
  stepId : String
  modelId : String
  sectionLabel : String
  inputs : Entries
  ending : Ending
deriving DecidableEq, Repr

namespace Ending

def status : Ending → String
  | succeeded .. => "succeeded"
  | failed .. => "failed"
  | skipped _ => "skipped"

def outputs? : Ending → Option Entries
  | succeeded outputs _ => some outputs
  | _ => none

def error? : Ending → Option String
  | failed error _ => some error
  | _ => none

def isSkipped : Ending → Bool
  | skipped _ => true
  | _ => false

def isFailed : Ending → Bool
  | failed .. => true
  | _ => false

end Ending

/-- The counts over the steps of a run. -/
structure Summary where
  total : Nat
  executed : Nat
  skipped : Nat
  failed : Nat
  success : Bool
deriving DecidableEq, Repr

/-- The summary of step results: a run is a success if no step failed. -/
def Summary.ofSteps (steps : List StepResult) : Summary :=
  let failed := steps.countP (·.ending.isFailed)
  { total := steps.length
    executed := steps.countP (·.ending.outputs?.isSome)
    skipped := steps.countP (·.ending.isSkipped)
    failed := failed
    success := failed == 0 }

structure Report where
  playbookId : String
  version : String
  intake : Entries
  steps : List StepResult
deriving DecidableEq, Repr

namespace Report

def summary (r : Report) : Summary :=
  .ofSteps r.steps

/-- The place of the first result with a given step id. -/
def stepIndex? (r : Report) (id : String) : Option Nat :=
  r.steps.findIdx? (·.stepId == id)

def step? (r : Report) (id : String) : Option StepResult :=
  r.steps.find? (·.stepId == id)

end Report

/-! ## Records

Reports are handed on as plain records.  The record of a step has the same entries for outputs,
error and skipping however the step ended; what does not apply is nothing. -/

/-- The part of a step's record that says how it ended. -/
def Ending.toEntries : Ending → Entries
  | succeeded outputs modelVersion =>
    [(.text "outputs", .map outputs), (.text "error", .none), (.text "skipped", .bool false),
      (.text "model_version", (modelVersion.map .text).getD .none)]
  | failed error code =>
    [(.text "outputs", .none), (.text "error", .text error),
      (.text "error_code", (code.map .text).getD .none), (.text "skipped", .bool false)]
  | skipped reason =>
    [(.text "outputs", .none), (.text "error", .none), (.text "skipped", .bool true),
      (.text "reason", .text reason)]

def StepResult.toEntries (result : StepResult) : Entries :=
  [(.text "step_id", .text result.stepId), (.text "model_id", .text result.modelId),
    (.text "section_label", .text result.sectionLabel),
    (.text "status", .text result.ending.status), (.text "inputs", .map result.inputs)] ++
    result.ending.toEntries

def Summary.toEntries (s : Summary) : Entries :=
  [(.text "total", .int s.total), (.text "executed", .int s.executed),
    (.text "skipped", .int s.skipped), (.text "failed", .int s.failed),
    (.text "success", .bool s.success)]

/-- The record of a report, but for the time of the run. -/
def Report.toEntries (r : Report) : Entries :=
  [(.text "playbook_id", .text r.playbookId), (.text "version", .text r.version),
    (.text "intake", .map r.intake),
    (.text "steps", .list (r.steps.map fun result => .map result.toEntries)),
    (.text "summary", .map r.summary.toEntries)]

end ModelPlaybook.Playbook
