import ModelPlaybook.Proofs.Playbook.Progress

/-!
# The course of a run

A step is ready when it is due and all its inputs have values.  Its model is executed when it can be
loaded and admits the inputs.  Each of these places is one where a step can fail.  Steps pass one
after the other, each in the environment that the results before it have made, and a run gives
results exactly when its steps pass with these results.
-/

namespace ModelPlaybook.Playbook

open ModelPlaybook.Expression

/-! ## One step -/

/-- The step is due, and its inputs have values. -/
def Step.Ready (env : Environment) (step : Step) (inputs : Entries) : Prop :=
  step.isDue env = .ok true ∧ step.resolve env = .ok inputs

/-- The model of the step can be loaded, and its manifest admits the inputs. -/
def Step.Admits (services : Services) (step : Step) (inputs : Entries) (model : Model) : Prop :=
  services.load step.modelId = .ok model ∧
    ∃ verdict, services.check model.manifest inputs = .ok verdict ∧ verdict.valid = true

/-- The step fails with an error, and with the inputs that it had by then. -/
inductive Step.Fails (services : Services) (env : Environment) (step : Step) :
    Entries → Error → Prop where
  | condition {e : Error} (hdue : step.isDue env = .error e) :
      Fails services env step [] e
  | inputs {e : Error} (hdue : step.isDue env = .ok true) (hinputs : step.resolve env = .error e) :
      Fails services env step [] e
  | load {inputs : Entries} {e : Error} (hready : step.Ready env inputs)
      (hload : services.load step.modelId = .error e) :
      Fails services env step inputs e
  | check {inputs : Entries} {model : Model} {e : Error} (hready : step.Ready env inputs)
      (hload : services.load step.modelId = .ok model)
      (hcheck : services.check model.manifest inputs = .error e) :
      Fails services env step inputs e
  | rejected {inputs : Entries} {model : Model} {verdict : Verdict}
      (hready : step.Ready env inputs) (hload : services.load step.modelId = .ok model)
      (hcheck : services.check model.manifest inputs = .ok verdict)
      (hinvalid : verdict.valid = false) :
      Fails services env step inputs (rejectedInputs step.modelId verdict.errors)
  | execution {inputs : Entries} {model : Model} {e : Error} (hready : step.Ready env inputs)
      (hmodel : step.Admits services inputs model)
      (houtcome : (services.execute model.logic inputs).outcome = .error e) :
      Fails services env step inputs e

/-- The step ends with a result: it is not due, or it fails and its policy goes on, or its model
gives a mapping. -/
inductive Step.Records (services : Services) (env : Environment) (step : Step) :
    StepResult → Prop where
  | skipped (hdue : step.isDue env = .ok false) :
      Records services env step ⟨step.id, step.modelId, step.label, [],
        .skipped ("Condition not met: " ++ (step.condition.map (·.shown)).getD "None")⟩
  | failed {inputs : Entries} {e : Error} (hfails : step.Fails services env inputs e)
      (hcontract : e.isContract = false) (hpolicy : step.onError = .warnAndContinue) :
      Records services env step
        ⟨step.id, step.modelId, step.label, inputs, .failed e.message e.code?⟩
  | succeeded {inputs outputs : Entries} {model : Model} {v : Value}
      (hready : step.Ready env inputs) (hmodel : step.Admits services inputs model)
      (houtcome : (services.execute model.logic inputs).outcome = .ok v)
      (houtputs : v.entries? = some outputs) :
      Records services env step ⟨step.id, step.modelId, step.label, inputs,
        .succeeded outputs (some model.manifest.version)⟩

section

variable {services : Services} {env : Environment} {playbookId : String} {step : Step}

theorem Step.attempt_of_ready {inputs : Entries} (hready : step.Ready env inputs) :
    step.attempt services env = step.runModel services inputs := by
  simp only [Step.attempt, hready.1, hready.2]

theorem Step.runModel_of_admits {inputs : Entries} {model : Model}
    (hmodel : step.Admits services inputs model) :
    step.runModel services inputs =
      let execution := services.execute model.logic inputs
      (match execution.outcome with
        | .error e => .failed inputs e
        | .ok v => .done inputs model.manifest.version v,
        [.load step.modelId, .execute model.logic inputs execution.log]) := by
  obtain ⟨hload, verdict, hcheck, hvalid⟩ := hmodel
  simp only [Step.runModel, hload, hcheck, hvalid, if_true]
  cases (services.execute model.logic inputs).outcome <;> rfl

theorem Step.runModel_cases {inputs : Entries} (hready : step.Ready env inputs) :
    (∃ e, step.Fails services env inputs e ∧ (step.runModel services inputs).1 = .failed inputs e) ∨
      ∃ model v, step.Admits services inputs model ∧
        (services.execute model.logic inputs).outcome = .ok v ∧
        (step.runModel services inputs).1 = .done inputs model.manifest.version v := by
  cases hload : services.load step.modelId with
  | error e => exact .inl ⟨e, .load hready hload, by simp only [Step.runModel, hload]⟩
  | ok model =>
      cases hcheck : services.check model.manifest inputs with
      | error e =>
          exact .inl ⟨e, .check hready hload hcheck, by simp only [Step.runModel, hload, hcheck]⟩
      | ok verdict =>
          cases hvalid : verdict.valid with
          | false =>
              exact .inl ⟨_, .rejected hready hload hcheck hvalid,
                by simp [Step.runModel, hload, hcheck, hvalid]⟩
          | true =>
              have hmodel : step.Admits services inputs model := ⟨hload, verdict, hcheck, hvalid⟩
              rw [Step.runModel_of_admits hmodel]
              cases houtcome : (services.execute model.logic inputs).outcome with
              | error e =>
                  exact .inl ⟨e, .execution hready hmodel houtcome, by simp only [houtcome]⟩
              | ok v => exact .inr ⟨model, v, hmodel, houtcome, by simp only [houtcome]⟩

/-- All that an attempt can come to. -/
theorem Step.attempt_cases (services : Services) (env : Environment) (step : Step) :
    (step.isDue env = .ok false ∧ (step.attempt services env).1 = .skipped) ∨
      (∃ inputs e, step.Fails services env inputs e ∧
        (step.attempt services env).1 = .failed inputs e) ∨
      ∃ inputs model v, step.Ready env inputs ∧ step.Admits services inputs model ∧
        (services.execute model.logic inputs).outcome = .ok v ∧
        (step.attempt services env).1 = .done inputs model.manifest.version v := by
  cases hdue : step.isDue env with
  | error e => exact .inr (.inl ⟨[], e, .condition hdue, by simp only [Step.attempt, hdue]⟩)
  | ok due =>
      cases due with
      | false => exact .inl ⟨rfl, by simp only [Step.attempt, hdue]⟩
      | true =>
          cases hinputs : step.resolve env with
          | error e =>
              exact .inr (.inl ⟨[], e, .inputs hdue hinputs,
                by simp only [Step.attempt, hdue, hinputs]⟩)
          | ok inputs =>
              have hready : step.Ready env inputs := ⟨hdue, hinputs⟩
              rw [Step.attempt_of_ready hready]
              rcases Step.runModel_cases hready with ⟨e, hfails, hrun⟩ | ⟨model, v, hdone⟩
              · exact .inr (.inl ⟨inputs, e, hfails, hrun⟩)
              · exact .inr (.inr ⟨inputs, model, v, hready, hdone⟩)

theorem Step.attempt_of_fails {inputs : Entries} {e : Error}
    (hfails : step.Fails services env inputs e) :
    (step.attempt services env).1 = .failed inputs e := by
  cases hfails with
  | condition hdue => simp only [Step.attempt, hdue]
  | inputs hdue hinputs => simp only [Step.attempt, hdue, hinputs]
  | load hready hload => simp only [Step.attempt_of_ready hready, Step.runModel, hload]
  | check hready hload hcheck =>
      simp only [Step.attempt_of_ready hready, Step.runModel, hload, hcheck]
  | rejected hready hload hcheck hinvalid =>
      simp [Step.attempt_of_ready hready, Step.runModel, hload, hcheck, hinvalid]
  | execution hready hmodel houtcome =>
      simp only [Step.attempt_of_ready hready, Step.runModel_of_admits hmodel, houtcome]

theorem Step.isDue_of_skipped (hskipped : (step.attempt services env).1 = .skipped) :
    step.isDue env = .ok false := by
  rcases Step.attempt_cases services env step with
    ⟨hdue, -⟩ | ⟨inputs, e, -, hattempt⟩ | ⟨inputs, model, v, -, -, -, hattempt⟩
  · exact hdue
  · simp [hattempt] at hskipped
  · simp [hattempt] at hskipped

theorem Step.fails_of_failed {inputs : Entries} {e : Error}
    (hfailed : (step.attempt services env).1 = .failed inputs e) :
    step.Fails services env inputs e := by
  rcases Step.attempt_cases services env step with
    ⟨-, hattempt⟩ | ⟨inputs', e', hfails, hattempt⟩ | ⟨inputs', model, v, -, -, -, hattempt⟩
  · simp [hattempt] at hfailed
  · rw [hattempt] at hfailed
    cases hfailed
    exact hfails
  · simp [hattempt] at hfailed

theorem Step.executed_of_done {inputs : Entries} {version : String} {v : Value}
    (hdone : (step.attempt services env).1 = .done inputs version v) :
    ∃ model, step.Ready env inputs ∧ step.Admits services inputs model ∧
      (services.execute model.logic inputs).outcome = .ok v ∧ version = model.manifest.version := by
  rcases Step.attempt_cases services env step with
    ⟨-, hattempt⟩ | ⟨inputs', e', -, hattempt⟩ |
      ⟨inputs', model, v', hready, hmodel, houtcome, hattempt⟩
  · simp [hattempt] at hdone
  · simp [hattempt] at hdone
  · rw [hattempt] at hdone
    cases hdone
    exact ⟨model, hready, hmodel, houtcome, rfl⟩

theorem Step.Fails.unique {inputs inputs' : Entries} {e e' : Error}
    (hfails : step.Fails services env inputs e) (hfails' : step.Fails services env inputs' e') :
    inputs = inputs' ∧ e = e' := by
  have hsame := (Step.attempt_of_fails hfails).symm.trans (Step.attempt_of_fails hfails')
  simpa using hsame

theorem FailurePolicy.ne_abort_iff {policy : FailurePolicy} :
    policy ≠ .abort ↔ policy = .warnAndContinue := by
  cases policy <;> simp

/-- A step ends with a result exactly when its attempt is concluded with it. -/
theorem Step.records_iff (playbookId : String) {result : StepResult} :
    step.Records services env result ↔
      step.conclude playbookId (step.attempt services env).1 = .ok result := by
  constructor
  · intro hrecords
    cases hrecords with
    | skipped hdue => simp only [Step.attempt, hdue, Step.conclude]
    | failed hfails hcontract hpolicy =>
        simp [Step.attempt_of_fails hfails, Step.conclude, hcontract, hpolicy]
    | succeeded hready hmodel houtcome houtputs =>
        simp only [Step.attempt_of_ready hready, Step.runModel_of_admits hmodel, houtcome,
          Step.conclude, houtputs]
  · intro hresult
    -- The ending of a result tells what its attempt came to, and this tells what led there.
    obtain ⟨inputs, ending, rfl, hending⟩ := Step.conclude_eq_ok hresult
    cases ending with
    | skipped reason =>
        obtain ⟨hskipped, rfl⟩ := hending
        rw [hskipped] at hresult
        cases hresult
        exact .skipped (Step.isDue_of_skipped hskipped)
    | failed message code =>
        obtain ⟨e, hfailed, hcontract, hpolicy, rfl, rfl⟩ := hending
        exact .failed (Step.fails_of_failed hfailed) hcontract
          (FailurePolicy.ne_abort_iff.mp hpolicy)
    | succeeded outputs version =>
        obtain ⟨modelVersion, v, hdone, houtputs, rfl⟩ := hending
        obtain ⟨model, hready, hmodel, houtcome, rfl⟩ := Step.executed_of_done hdone
        exact .succeeded hready hmodel houtcome houtputs

theorem Step.Records.unique {result result' : StepResult}
    (hrecords : step.Records services env result) (hrecords' : step.Records services env result') :
    result = result' := by
  have hsame := ((Step.records_iff "").mp hrecords).symm.trans ((Step.records_iff "").mp hrecords')
  simpa using hsame

/-- The failure of a step that does not end with a result. -/
def Step.Stops (services : Services) (env : Environment) (step : Step) (e : Error) : Prop :=
  (∃ inputs, step.Fails services env inputs e) ∧ (e.isContract = true ∨ step.onError = .abort)

theorem Step.not_records_of_stops {e : Error} {result : StepResult}
    (hstops : step.Stops services env e) :
    ¬step.Records services env result := by
  obtain ⟨⟨inputs, hfails⟩, hstop⟩ := hstops
  intro hrecords
  cases hrecords with
  | skipped hdue =>
      have hattempt := Step.attempt_of_fails hfails
      simp [Step.attempt, hdue] at hattempt
  | failed hfails' hcontract hpolicy =>
      obtain ⟨-, rfl⟩ := hfails.unique hfails'
      simp [hcontract, hpolicy] at hstop
  | succeeded hready hmodel houtcome houtputs =>
      have hattempt := Step.attempt_of_fails hfails
      simp [Step.attempt_of_ready hready, Step.runModel_of_admits hmodel, houtcome] at hattempt

theorem Step.conclude_of_stops (playbookId : String) {e : Error}
    (hstops : step.Stops services env e) :
    step.conclude playbookId (step.attempt services env).1 =
      .error (if e.isContract then e else stoppedBy playbookId step e) := by
  obtain ⟨⟨inputs, hfails⟩, hstop⟩ := hstops
  rw [Step.attempt_of_fails hfails, Step.conclude]
  cases hcontract : e.isContract with
  | true => simp
  | false =>
      rw [hcontract] at hstop
      simp [hstop.resolve_left Bool.false_ne_true]

/-- A step whose model gives nothing but mappings ends with a result or stops the run. -/
theorem Step.records_or_stops (env : Environment) (step : Step)
    (hmapping : ∀ logic inputs v, (services.execute logic inputs).outcome = .ok v →
      ∃ outputs, v.entries? = some outputs) :
    (∃ result, step.Records services env result) ∨ ∃ e, step.Stops services env e := by
  rcases Step.attempt_cases services env step with
    ⟨hdue, -⟩ | ⟨inputs, e, hfails, -⟩ | ⟨inputs, model, v, hready, hmodel, houtcome, -⟩
  · exact .inl ⟨_, .skipped hdue⟩
  · by_cases hstop : e.isContract = true ∨ step.onError = .abort
    · exact .inr ⟨e, ⟨inputs, hfails⟩, hstop⟩
    · rw [not_or, Bool.not_eq_true] at hstop
      exact .inl ⟨_, .failed hfails hstop.1 (FailurePolicy.ne_abort_iff.mp hstop.2)⟩
  · obtain ⟨outputs, houtputs⟩ := hmapping _ _ _ houtcome
    exact .inl ⟨_, .succeeded hready hmodel houtcome houtputs⟩

end

/-! ## One step after the other -/

/-- Steps end with results, each in the environment that the results before it have made.  The
`n`-th step, counted from zero, meets the services as `services n`. -/
inductive Passes : (Nat → Services) → Environment → List Step → List StepResult → Prop where
  | nil {services : Nat → Services} {env : Environment} : Passes services env [] []
  | cons {services : Nat → Services} {env : Environment} {step : Step} {steps : List Step}
      {result : StepResult} {results : List StepResult}
      (hrecords : step.Records (services 0) env result)
      (hlater : Passes (fun n => services (n + 1)) (publish env result) steps results) :
      Passes services env (step :: steps) (result :: results)

/-- The `i`-th of some steps meets an environment: the steps before it end with results, and these
make the environment. -/
def Meets (services : Nat → Services) (env : Environment) (steps : List Step) (i : Nat)
    (step : Step) (met : Environment) : Prop :=
  steps[i]? = some step ∧
    ∃ before, Passes services env (steps.take i) before ∧ met = before.foldl publish env

section

variable {services : Nat → Services} {env met : Environment} {playbookId : String}
  {steps : List Step} {results : List StepResult} {step : Step} {i : Nat}

/-- Running steps gives results exactly when the steps pass with them. -/
theorem passes_iff (playbookId : String) :
    Passes services env steps results ↔
      (runSteps services playbookId env steps).result = .ok results := by
  constructor
  · intro hpasses
    induction hpasses with
    | nil => rfl
    | cons hrecords hlater ih =>
        exact runSteps_cons_eq_ok.mpr ⟨_, _, (Step.records_iff playbookId).mp hrecords, ih, rfl⟩
  · intro hresults
    induction steps generalizing services env results with
    | nil =>
        cases hresults
        exact .nil
    | cons step steps ih =>
        obtain ⟨result, later, hresult, hlater, rfl⟩ := runSteps_cons_eq_ok.mp hresults
        exact .cons ((Step.records_iff playbookId).mpr hresult) (ih hlater)

theorem Passes.unique {results' : List StepResult} (hpasses : Passes services env steps results)
    (hpasses' : Passes services env steps results') :
    results = results' := by
  have hsame := ((passes_iff "").mp hpasses).symm.trans ((passes_iff "").mp hpasses')
  simpa using hsame

theorem Meets.unique {step' : Step} {met' : Environment}
    (hmeets : Meets services env steps i step met)
    (hmeets' : Meets services env steps i step' met') :
    step = step' ∧ met = met' := by
  obtain ⟨hstep, before, hbefore, rfl⟩ := hmeets
  obtain ⟨hstep', before', hbefore', rfl⟩ := hmeets'
  rw [hbefore.unique hbefore']
  exact ⟨Option.some.inj (hstep.symm.trans hstep'), rfl⟩

theorem meets_zero :
    Meets services env steps 0 step met ↔ steps[0]? = some step ∧ met = env := by
  constructor
  · rintro ⟨hstep, before, hbefore, rfl⟩
    cases hbefore
    exact ⟨hstep, rfl⟩
  · rintro ⟨hstep, rfl⟩
    exact ⟨hstep, [], .nil, rfl⟩

theorem meets_succ {first : Step} :
    Meets services env (first :: steps) (i + 1) step met ↔
      ∃ result, first.Records (services 0) env result ∧
        Meets (fun n => services (n + 1)) (publish env result) steps i step met := by
  constructor
  · rintro ⟨hstep, before, hbefore, rfl⟩
    cases hbefore with
    | cons hrecords hlater => exact ⟨_, hrecords, hstep, _, hlater, rfl⟩
  · rintro ⟨result, hrecords, hstep, before, hbefore, rfl⟩
    exact ⟨hstep, _, .cons hrecords hbefore, rfl⟩

/-- A step among steps that pass ends with the result at its place. -/
theorem Passes.records (hpasses : Passes services env steps results)
    (hmeets : Meets services env steps i step met) :
    ∃ result, step.Records (services i) met result := by
  -- Behind the first step both sides go on in one environment: its result is the only one it has.
  induction hpasses generalizing i with
  | nil => simp [Meets] at hmeets
  | cons hrecords hlater ih =>
      cases i with
      | zero =>
          obtain ⟨hstep, rfl⟩ := meets_zero.mp hmeets
          cases hstep
          exact ⟨_, hrecords⟩
      | succ i =>
          obtain ⟨result, hrecords', hmeets⟩ := meets_succ.mp hmeets
          obtain rfl := hrecords'.unique hrecords
          exact ih hmeets

/-- Every step before one that a run gets to ends with a result. -/
theorem Meets.records_of_lt {j : Nat} {later : Step} {met' : Environment}
    (hmeets : Meets services env steps i step met) (hlater : Meets services env steps j later met')
    (hij : i < j) :
    ∃ result, step.Records (services i) met result := by
  obtain ⟨-, results, hpasses, -⟩ := hlater
  obtain ⟨hstep, before, hbefore, hmet⟩ := hmeets
  -- The step is one of those that have passed when the run gets to the later one.
  have hamong : Meets services env (steps.take j) i step met := by
    refine ⟨by rw [List.getElem?_take_of_lt hij, hstep], before, ?_, hmet⟩
    rwa [List.take_take, Nat.min_eq_left (Nat.le_of_lt hij)]
  exact hpasses.records hamong

/-- A run gets to no step behind one that stops it. -/
theorem Meets.le_of_stops {j : Nat} {later : Step} {met' : Environment} {e : Error}
    (hmeets : Meets services env steps i step met) (hstops : step.Stops (services i) met e)
    (hlater : Meets services env steps j later met') :
    j ≤ i := by
  refine Nat.not_lt.mp fun hlt => ?_
  obtain ⟨result, hrecords⟩ := hmeets.records_of_lt hlater hlt
  exact Step.not_records_of_stops hstops hrecords

/-- Only one step can stop a run, and with one error only. -/
theorem Meets.stops_unique {j : Nat} {step' : Step} {met' : Environment} {e e' : Error}
    (hmeets : Meets services env steps i step met) (hstops : step.Stops (services i) met e)
    (hmeets' : Meets services env steps j step' met') (hstops' : step'.Stops (services j) met' e') :
    i = j ∧ step = step' ∧ e = e' := by
  obtain rfl : i = j :=
    Nat.le_antisymm (hmeets'.le_of_stops hstops' hmeets) (hmeets.le_of_stops hstops hmeets')
  obtain ⟨rfl, rfl⟩ := hmeets.unique hmeets'
  obtain ⟨⟨inputs, hfails⟩, -⟩ := hstops
  obtain ⟨⟨inputs', hfails'⟩, -⟩ := hstops'
  exact ⟨rfl, rfl, (hfails.unique hfails').2⟩

/-- Steps all end with results, or there is one that stops the run. -/
theorem passes_or_stops (env : Environment) (steps : List Step)
    (hmapping : ∀ n logic inputs v, ((services n).execute logic inputs).outcome = .ok v →
      ∃ outputs, v.entries? = some outputs) :
    (∃ results, Passes services env steps results) ∨
      ∃ i step met e, Meets services env steps i step met ∧ step.Stops (services i) met e := by
  -- The first step decides: either it stops the run itself, or the others run where it leaves off.
  induction steps generalizing services env with
  | nil => exact .inl ⟨[], .nil⟩
  | cons first steps ih =>
      rcases Step.records_or_stops env first (hmapping 0) with
        ⟨result, hrecords⟩ | ⟨e, hstops⟩
      · rcases ih (publish env result) fun n => hmapping (n + 1) with
          ⟨results, hlater⟩ | ⟨i, step, met, e, hmeets, hstops⟩
        · exact .inl ⟨_, .cons hrecords hlater⟩
        · have hmeets' := meets_succ.mpr ⟨result, hrecords, hmeets⟩
          exact .inr ⟨i + 1, step, met, e, hmeets', hstops⟩
      · exact .inr ⟨0, first, env, e, meets_zero.mpr ⟨rfl, rfl⟩, hstops⟩

theorem result_of_stops (playbookId : String) {e : Error}
    (hmeets : Meets services env steps i step met) (hstops : step.Stops (services i) met e) :
    (runSteps services playbookId env steps).result =
      .error (if e.isContract then e else stoppedBy playbookId step e) := by
  induction steps generalizing services env i with
  | nil => simp [Meets] at hmeets
  | cons first steps ih =>
      cases i with
      | zero =>
          obtain ⟨hstep, rfl⟩ := meets_zero.mp hmeets
          cases hstep
          rw [runSteps_cons_of_error (Step.conclude_of_stops playbookId hstops)]
      | succ i =>
          obtain ⟨result, hrecords, hmeets⟩ := meets_succ.mp hmeets
          rw [runSteps_cons_of_ok ((Step.records_iff playbookId).mp hrecords)]
          simp only [ih hmeets hstops, Except.map]

end

/-! ## Playbooks -/

/-- The run of a playbook gets to its step at an index, and the step meets an environment. -/
def Reaches (services : Nat → Services) (p : Playbook) (intake : Value) (i : Nat) (step : Step)
    (met : Environment) : Prop :=
  intakeViolations p.intakeFields intake = [] ∧
    Meets services ⟨intake.entries?.getD [], []⟩ p.steps i step met

end ModelPlaybook.Playbook
