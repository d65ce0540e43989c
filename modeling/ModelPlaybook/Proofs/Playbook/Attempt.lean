import ModelPlaybook.Playbook.Run

/-!
# How a step can end

A result names its step.  A step has outputs only if its model gave a mapping, and its model is
asked only when the step is due and all its inputs have values.
-/

namespace ModelPlaybook.Playbook

open ModelPlaybook.Expression

variable {services : Services} {env : Environment} {playbookId : String} {step : Step}

/-- Everything a step can end with when it does not stop the run. -/
theorem Step.conclude_eq_ok {attempt : Attempt} {result : StepResult}
    (hresult : step.conclude playbookId attempt = .ok result) :
    ∃ inputs ending, result = ⟨step.id, step.modelId, step.label, inputs, ending⟩ ∧
      match ending with
      | .skipped _ => attempt = .skipped ∧ inputs = []
      | .failed message code =>
        ∃ e, attempt = .failed inputs e ∧ e.isContract = false ∧ step.onError ≠ .abort ∧
          message = e.message ∧ code = e.code?
      | .succeeded outputs version =>
        ∃ modelVersion v, attempt = .done inputs modelVersion v ∧ v.entries? = some outputs ∧
          version = some modelVersion := by
  cases attempt with
  | skipped =>
      cases hresult
      exact ⟨_, _, rfl, rfl, rfl⟩
  | failed inputs e =>
      simp only [Step.conclude] at hresult
      split at hresult
      · cases hresult
      next hcontract =>
        split at hresult
        · cases hresult
        next habort =>
          cases hresult
          exact ⟨_, _, rfl, e, rfl, by simpa using hcontract, habort, rfl, rfl⟩
  | done inputs version v =>
      simp only [Step.conclude] at hresult
      split at hresult
      next outputs houtputs =>
        cases hresult
        exact ⟨_, _, rfl, version, v, rfl, houtputs, rfl⟩
      next => cases hresult

theorem Step.stepId_of_conclude {attempt : Attempt} {result : StepResult}
    (hresult : step.conclude playbookId attempt = .ok result) :
    result.stepId = step.id := by
  obtain ⟨inputs, ending, rfl, -⟩ := Step.conclude_eq_ok hresult
  rfl

/-- A result without outputs is that of a step that was skipped or failed. -/
theorem Ending.outputs?_eq_none_iff {ending : Ending} :
    ending.outputs? = none ↔ ending.isSkipped = true ∨ ending.isFailed = true := by
  cases ending <;> simp [Ending.outputs?, Ending.isSkipped, Ending.isFailed]

theorem Step.done_of_outputs {attempt : Attempt} {result : StepResult} {outputs : Entries}
    (hresult : step.conclude playbookId attempt = .ok result)
    (houtputs : result.ending.outputs? = some outputs) :
    ∃ inputs version v, attempt = .done inputs version v := by
  obtain ⟨inputs, ending, rfl, hending⟩ := Step.conclude_eq_ok hresult
  cases ending with
  | succeeded outputs' version =>
      obtain ⟨modelVersion, v, hdone, -⟩ := hending
      exact ⟨inputs, modelVersion, v, hdone⟩
  | failed message code => cases houtputs
  | skipped reason => cases houtputs

theorem Step.ready_of_done {inputs : Entries} {version : String} {v : Value}
    (hdone : (step.attempt services env).1 = .done inputs version v) :
    step.isDue env = .ok true ∧ ∃ inputs', step.resolve env = .ok inputs' := by
  unfold Step.attempt at hdone
  cases hdue : step.isDue env with
  | error e => simp [hdue] at hdone
  | ok due =>
      cases due with
      | false => simp [hdue] at hdone
      | true =>
          cases hresolve : step.resolve env with
          | error e => simp [hdue, hresolve] at hdone
          | ok inputs' => exact ⟨rfl, inputs', rfl⟩

end ModelPlaybook.Playbook
