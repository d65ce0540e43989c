import ModelPlaybook.Playbook.Review
import ModelPlaybook.Playbook.Run
import ModelPlaybook.Proofs.Expression.Consultation
import ModelPlaybook.Proofs.Playbook.ReferenceText

/-!
# What a step refers to

The references of a step are those of its condition and of its inputs, as far as these can be read.
An attempt at the step depends on its environment through them alone, and the model of the step is
reached only if every part can be read and every reference has a value.
-/

namespace ModelPlaybook.Playbook

open ModelPlaybook.Expression

/-- The fault of a part that cannot be read. -/
def faultsRead : Except SyntaxFault (List Reference) → List SyntaxFault
  | .ok _ => []
  | .error fault => [fault]

/-- The references of a part that can be read. -/
def referencesRead : Except SyntaxFault (List Reference) → List Reference
  | .ok references => references
  | .error _ => []

/-- The parts of a step that are read, first its condition and then its inputs. -/
def Step.readings (step : Step) : List (Except SyntaxFault (List Reference)) :=
  step.condition.toList.map (·.references) ++ step.inputs.map (·.2.references)

def Step.faults (step : Step) : List SyntaxFault :=
  step.readings.flatMap faultsRead

def Step.references (step : Step) : List Reference :=
  step.readings.flatMap referencesRead

/-! ## Names of references -/

theorem writable_of_referenceOfText {s : String} {r : Reference}
    (hread : referenceOfText s = .ok r) : r.Writable := by
  obtain ⟨scope, name, hname, -, rfl⟩ := referenceOfText_eq_ok_iff.mp hread
  exact hname.names

theorem mem_referencesRead {reading : Except SyntaxFault (List Reference)} {r : Reference} :
    r ∈ referencesRead reading ↔ ∃ references, reading = .ok references ∧ r ∈ references := by
  cases reading <;> simp [referencesRead]

theorem StepCondition.writable {c : StepCondition} {r : Reference}
    (hr : r ∈ referencesRead c.references) :
    r.Writable := by
  obtain ⟨references, hread, hr⟩ := mem_referencesRead.mp hr
  cases c with
  | fixed runs =>
      cases hread
      cases hr
  | written text =>
      simp only [StepCondition.references] at hread
      split at hread
      · cases hread
        cases hr
      · obtain ⟨c, hc, hread⟩ := bind_eq_ok.mp hread
        cases hread
        exact Condition.writable_of_ofText hc hr

theorem StepInput.writable {input : StepInput} {r : Reference}
    (hr : r ∈ referencesRead input.references) :
    r.Writable := by
  obtain ⟨references, hread, hr⟩ := mem_referencesRead.mp hr
  cases input with
  | derived expression =>
      obtain ⟨tree, htree, hread⟩ := bind_eq_ok.mp hread
      cases hread
      exact Tree.writable_of_ofText htree hr
  | text s =>
      simp only [StepInput.references] at hread
      split at hread
      · obtain ⟨target, htarget, hread⟩ := bind_eq_ok.mp hread
        cases hread
        rw [List.mem_singleton.mp hr]
        exact writable_of_referenceOfText htarget
      · cases hread
        cases hr
  | none | bool b | int n | float x =>
      cases hread
      cases hr

/-- The references of a step have names that texts can write. -/
theorem Step.writable {step : Step} {r : Reference} (hr : r ∈ step.references) :
    r.Writable := by
  obtain ⟨reading, hreading, hr⟩ := List.mem_flatMap.mp hr
  rcases List.mem_append.mp hreading with hreading | hreading
  · obtain ⟨c, -, rfl⟩ := List.mem_map.mp hreading
    exact StepCondition.writable hr
  · obtain ⟨entry, -, rfl⟩ := List.mem_map.mp hreading
    exact StepInput.writable hr

/-! ## Conditions and inputs -/

theorem StepCondition.consults (c : StepCondition) :
    Consults (faultsRead c.references) (referencesRead c.references)
      fun env => holds env c.toValue := by
  cases c with
  | fixed runs =>
      exact Consults.ok _
  | written text =>
      simp only [StepCondition.references, StepCondition.toValue, holds]
      by_cases htrue : Text.trim text = "true"
      · simp only [htrue, true_or, if_true]
        exact Consults.ok _
      by_cases hfalse : Text.trim text = "false"
      · simp only [hfalse, or_true, if_true]
        exact Consults.ok false
      simp only [htrue, hfalse, or_false, if_false]
      cases hc : Condition.ofText text with
      | error fault => exact Consults.malformed fault
      | ok c => exact c.consults

theorem StepInput.consults (input : StepInput) :
    Consults (faultsRead input.references) (referencesRead input.references)
      fun env => resolveInput env input.toValue := by
  cases input with
  | derived expression =>
      simp only [StepInput.references, StepInput.toValue, resolveInput, Expression.evaluate,
        Tree.ofValue, Value.text?]
      cases htree : Tree.ofText expression with
      | error fault => exact Consults.malformed fault
      | ok tree =>
          refine tree.consults.andThen fun x env failure h => ?_
          exact absurd h pure_ne_error
  | text s =>
      simp only [StepInput.references, StepInput.toValue, resolveInput]
      by_cases hopens : opensReference s
      · simp only [hopens, if_true]
        cases htarget : referenceOfText s with
        | error fault => exact Consults.malformed fault
        | ok target => exact Consults.lookup target
      · simp only [hopens]
        exact Consults.ok _
  | none => exact Consults.ok _
  | bool b => exact Consults.ok _
  | int n => exact Consults.ok _
  | float x => exact Consults.ok _

theorem consults_resolveEntries (inputs : List (String × StepInput)) :
    Consults ((inputs.map (·.2.references)).flatMap faultsRead)
      ((inputs.map (·.2.references)).flatMap referencesRead)
      fun env => resolveEntries env
        (inputs.map fun (key, input) => (.text key, input.toValue)) := by
  induction inputs with
  | nil => exact Consults.ok _
  | cons entry inputs ih =>
      obtain ⟨key, input⟩ := entry
      simp only [resolveEntries, List.map_cons, List.flatMap_cons, List.mapM_cons]
      have hentry : Consults (faultsRead input.references) (referencesRead input.references)
          fun env => (do pure (Value.text key, ← resolveInput env input.toValue)) :=
        input.consults.andThen fun v env failure h => absurd h pure_ne_error
      exact hentry.bind fun first => ih.andThen fun rest env failure h => absurd h pure_ne_error

/-! ## Steps -/

/-- Whether a step is to run, with failures as evaluating its condition gives them. -/
def Step.due (step : Step) (env : Environment) : Except Failure Bool :=
  match step.condition with
  | none => .ok true
  | some c => holds env c.toValue

theorem Step.isDue_eq (step : Step) (env : Environment) :
    step.isDue env = (step.due env).mapError .ofFailure := by
  unfold Step.isDue Step.due
  cases step.condition with
  | none => rfl
  | some c =>
      simp only
      cases holds env c.toValue <;> rfl

theorem Step.resolve_eq (step : Step) (env : Environment) :
    step.resolve env =
      (resolveEntries env (step.inputs.map fun (key, input) => (.text key, input.toValue))).mapError
        .ofFailure := by
  unfold Step.resolve
  cases resolveEntries env (step.inputs.map fun (key, input) => (.text key, input.toValue)) <;> rfl

theorem Step.faults_eq (step : Step) :
    step.faults = (step.condition.toList.map (·.references)).flatMap faultsRead ++
      (step.inputs.map (·.2.references)).flatMap faultsRead := by
  simp only [Step.faults, Step.readings, List.flatMap_append]

theorem Step.references_eq (step : Step) :
    step.references = (step.condition.toList.map (·.references)).flatMap referencesRead ++
      (step.inputs.map (·.2.references)).flatMap referencesRead := by
  simp only [Step.references, Step.readings, List.flatMap_append]

theorem Step.consults_due (step : Step) :
    Consults ((step.condition.toList.map (·.references)).flatMap faultsRead)
      ((step.condition.toList.map (·.references)).flatMap referencesRead)
      fun env => step.due env := by
  unfold Step.due
  cases step.condition with
  | none => exact Consults.ok _
  | some c => simpa using c.consults

/-- An attempt at a step depends on the references of the step alone. -/
theorem Step.attempt_congr {step : Step} {env env' : Environment} (services : Services)
    (hlookup : ∀ r ∈ step.references, env.lookup? r = env'.lookup? r) :
    step.attempt services env = step.attempt services env' := by
  rw [step.references_eq] at hlookup
  have hdue : step.due env = step.due env' :=
    step.consults_due.agrees fun r hr => hlookup r (List.mem_append_left _ hr)
  have hentries := (consults_resolveEntries step.inputs).agrees fun r hr =>
    hlookup r (List.mem_append_right _ hr)
  unfold Step.attempt
  simp only [step.isDue_eq, step.resolve_eq, hdue, hentries]

/-- What stops a step before its model is asked for. -/
theorem Step.exists_failure {step : Step} {env : Environment} {e : Error}
    (h : step.isDue env = .error e ∨ step.resolve env = .error e) :
    ∃ failure : Failure, e = .ofFailure failure ∧
      failure.ArisesFrom env step.faults step.references := by
  rw [step.faults_eq, step.references_eq]
  rcases h with h | h
  · rw [step.isDue_eq] at h
    obtain ⟨failure, hfailure, rfl⟩ := mapError_eq_error.mp h
    exact ⟨failure, rfl, (step.consults_due.fails hfailure).mono
      (List.subset_append_left _ _) (List.subset_append_left _ _)⟩
  · rw [step.resolve_eq] at h
    obtain ⟨failure, hfailure, rfl⟩ := mapError_eq_error.mp h
    exact ⟨failure, rfl, ((consults_resolveEntries step.inputs).fails hfailure).mono
      (List.subset_append_right _ _) (List.subset_append_right _ _)⟩

/-- A step that is due and whose inputs all have values can be read, and all its references have
values. -/
theorem Step.readable_of_resolve {step : Step} {env : Environment} {inputs : Entries}
    (hdue : step.isDue env = .ok true) (hinputs : step.resolve env = .ok inputs) :
    step.faults = [] ∧ ∀ r ∈ step.references, ∃ v, env.lookup? r = some v := by
  rw [step.isDue_eq] at hdue
  rw [step.resolve_eq] at hinputs
  obtain ⟨hfaults, hvalues⟩ := step.consults_due.needs (mapError_eq_ok.mp hdue)
  obtain ⟨hfaults', hvalues'⟩ :=
    (consults_resolveEntries step.inputs).needs (mapError_eq_ok.mp hinputs)
  rw [step.faults_eq, step.references_eq]
  refine ⟨by rw [hfaults, hfaults', List.append_nil], fun r hr => ?_⟩
  rcases List.mem_append.mp hr with hr | hr
  · exact hvalues r hr
  · exact hvalues' r hr

end ModelPlaybook.Playbook
