import ModelPlaybook.Model.InputCheck
import ModelPlaybook.Playbook.Input
import ModelPlaybook.Playbook.Intake
import ModelPlaybook.Playbook.Report

/-!
# Running a playbook

The steps run in order.  A step first looks at its condition, then at its inputs; only then its
model is loaded, its inputs are checked and the model is executed.  The outputs of a step that
succeeds can be referred to by later steps.  A failing step stops the run or is recorded, as its
policy says; a broken contract always stops the run.
-/

namespace ModelPlaybook

/-- A model together with the logic that computes its outputs. -/
structure Model where
  manifest : Model.Manifest
  logic : String
deriving DecidableEq, Repr

namespace Playbook

open ModelPlaybook.Expression

/-- What an execution of a model gives, and the messages that the model has logged. -/
structure Execution where
  outcome : Except Error Value
  log : List String

/-- The services that a run consults. -/
structure Services where
  load : String → Except Error Model
  check : Model.Manifest → Entries → Except Error Verdict
  execute : String → Entries → Execution

/-- The check of inputs against the manifest of their model. -/
def checkByManifest (m : Model.Manifest) (inputs : Entries) : Except Error Verdict :=
  match m.checkInputs (.map inputs) with
  | .ok verdict => .ok verdict
  | .error fault => .error (.fault fault)

/-- What a run asks its services for. -/
inductive Event where
  | load (modelId : String)
  | execute (logic : String) (inputs : Entries) (log : List String)
deriving DecidableEq, Repr

/-- The messages that models have logged during a run. -/
def Event.log : Event → List String
  | load _ => []
  | execute _ _ log => log

/-- The text of a condition inside the reason why a step was skipped. -/
def StepCondition.shown (c : StepCondition) : String :=
  c.toValue.plainText

/-- Whether a step is to run. -/
def Step.isDue (env : Environment) (step : Step) : Except Error Bool :=
  match step.condition with
  | none => .ok true
  | some c =>
    match holds env c.toValue with
    | .ok b => .ok b
    | .error failure => .error (.ofFailure failure)

/-- The concrete inputs of a step. -/
def Step.resolve (env : Environment) (step : Step) : Except Error Entries :=
  match resolveEntries env (step.inputs.map fun (key, input) => (.text key, input.toValue)) with
  | .ok inputs => .ok inputs
  | .error failure => .error (.ofFailure failure)

/-- How far a step has come: it was skipped, it failed with the inputs it had by then, or its
model gave a value. -/
inductive Attempt where
  | skipped
  | failed (inputs : Entries) (error : Error)
  | done (inputs : Entries) (modelVersion : String) (value : Value)

/-- The error of inputs that a manifest does not accept. -/
def rejectedInputs (modelId : String) (errors : List String) : Error :=
  .invalidInputs ("Input validation failed for model " ++ modelId ++ ": " ++
    "; ".intercalate errors) errors

/-- Runs the model of a step on concrete inputs. -/
def Step.runModel (services : Services) (step : Step) (inputs : Entries) : Attempt × List Event :=
  let loading := Event.load step.modelId
  match services.load step.modelId with
  | .error e => (.failed inputs e, [loading])
  | .ok model =>
    match services.check model.manifest inputs with
    | .error e => (.failed inputs e, [loading])
    | .ok verdict =>
      if verdict.valid then
        let execution := services.execute model.logic inputs
        let events := [loading, .execute model.logic inputs execution.log]
        match execution.outcome with
        | .error e => (.failed inputs e, events)
        | .ok v => (.done inputs model.manifest.version v, events)
      else (.failed inputs (rejectedInputs step.modelId verdict.errors), [loading])

/-- Attempts a step. -/
def Step.attempt (services : Services) (env : Environment) (step : Step) : Attempt × List Event :=
  match step.isDue env with
  | .error e => (.failed [] e, [])
  | .ok false => (.skipped, [])
  | .ok true =>
    match step.resolve env with
    | .error e => (.failed [] e, [])
    | .ok inputs => step.runModel services inputs

/-- The fault of a model that gives something other than a mapping. -/
def noMapping (v : Value) : Error :=
  .fault ⟨.missingAttribute, "'" ++ v.typeName ++ "' object has no attribute 'keys'"⟩

/-- The error of a run that a step stops. -/
def stoppedBy (playbookId : String) (step : Step) (e : Error) : Error :=
  .aborted ("Playbook " ++ playbookId ++ " aborted at step " ++ step.id ++ ": " ++ e.message)
    playbookId step.id (some step.modelId) (some e)

/-- The result of an attempt, or the error that stops the run. -/
def Step.conclude (playbookId : String) (step : Step) : Attempt → Except Error StepResult
  | .skipped =>
    let reason := "Condition not met: " ++ (step.condition.map (·.shown)).getD "None"
    .ok ⟨step.id, step.modelId, step.label, [], .skipped reason⟩
  | .failed inputs e =>
    if e.isContract then .error e
    else if step.onError = .abort then .error (stoppedBy playbookId step e)
    else .ok ⟨step.id, step.modelId, step.label, inputs, .failed e.message e.code?⟩
  | .done inputs version v =>
    match v.entries? with
    | some outputs =>
      .ok ⟨step.id, step.modelId, step.label, inputs, .succeeded outputs (some version)⟩
    | none => .error (noMapping v)

/-- The environment after a step: outputs are published under the step's id. -/
def publish (env : Environment) (result : StepResult) : Environment :=
  match result.ending with
  | .succeeded outputs _ =>
    { env with
      outputs := (result.stepId, outputs) :: env.outputs.filter (·.1 != result.stepId) }
  | _ => env

/-- What a run gives: the results of all steps or the error that stopped it, and what the services
were asked for until then. -/
structure Outcome (α : Type) where
  result : Except Error α
  events : List Event

/-- Runs steps in order, each with the services as they are at that step. -/
def runSteps (services : Nat → Services) (playbookId : String) (env : Environment) :
    List Step → Outcome (List StepResult)
  | [] => ⟨.ok [], []⟩
  | step :: rest =>
    let (attempt, events) := step.attempt (services 0) env
    match step.conclude playbookId attempt with
    | .error e => ⟨.error e, events⟩
    | .ok result =>
      let later := runSteps (fun n => services (n + 1)) playbookId (publish env result) rest
      ⟨later.result.map (result :: ·), events ++ later.events⟩

end Playbook

/-- Runs a playbook on an intake.  The services may have a state: the `n`-th step, counted from
zero, meets them as `services n`. -/
def Playbook.runWith (services : Nat → Playbook.Services) (p : Playbook) (intake : Value) :
    Playbook.Outcome Playbook.Report :=
  match Playbook.intakeViolations p.intakeFields intake with
  | [] =>
    let values := intake.entries?.getD []
    let run := Playbook.runSteps services p.id ⟨values, []⟩ p.steps
    ⟨run.result.map fun steps => ⟨p.id, p.version, values, steps⟩, run.events⟩
  | errors => ⟨.error (.invalidIntake errors), []⟩

/-- Runs a playbook on an intake, with services whose answers depend on nothing but what they are
asked. -/
def Playbook.run (services : Playbook.Services) (p : Playbook) (intake : Value) :
    Playbook.Outcome Playbook.Report :=
  p.runWith (fun _ => services) intake

end ModelPlaybook
