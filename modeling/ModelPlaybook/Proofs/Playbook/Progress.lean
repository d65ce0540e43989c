import ModelPlaybook.Proofs.Failing
import ModelPlaybook.Proofs.Playbook.Attempt

/-!
# How far a run has come

The run of a playbook goes through the runs of its beginnings.  When the first steps of a playbook
have given a report, that report alone decides what the next step can look at.
-/

namespace ModelPlaybook.Playbook

open ModelPlaybook.Expression

/-! ## Running lists of steps -/

section

variable {services : Nat → Services} {playbookId : String} {env : Environment}

theorem runSteps_cons_of_error {step : Step} {e : Error}
    (hstop : step.conclude playbookId (step.attempt (services 0) env).1 = .error e)
    (rest : List Step) :
    runSteps services playbookId env (step :: rest) =
      ⟨.error e, (step.attempt (services 0) env).2⟩ := by
  simp only [runSteps, hstop]

theorem runSteps_cons_of_ok {step : Step} {result : StepResult}
    (hresult : step.conclude playbookId (step.attempt (services 0) env).1 = .ok result)
    (rest : List Step) :
    runSteps services playbookId env (step :: rest) =
      let later := runSteps (fun n => services (n + 1)) playbookId (publish env result) rest
      ⟨later.result.map (result :: ·), (step.attempt (services 0) env).2 ++ later.events⟩ := by
  simp only [runSteps, hresult]

/-- Steps that all end go on with the steps after them. -/
theorem runSteps_append_of_ok {before : List Step} {results : List StepResult}
    (hbefore : (runSteps services playbookId env before).result = .ok results)
    (after : List Step) :
    runSteps services playbookId env (before ++ after) =
      let later := runSteps (fun n => services (n + before.length)) playbookId
        (results.foldl publish env) after
      ⟨later.result.map (results ++ ·),
        (runSteps services playbookId env before).events ++ later.events⟩ := by
  induction before generalizing services env results with
  | nil =>
      cases hbefore
      simp [runSteps, map_id]
  | cons step before ih =>
      cases hresult : step.conclude playbookId (step.attempt (services 0) env).1 with
      | error e =>
          rw [runSteps_cons_of_error hresult] at hbefore
          cases hbefore
      | ok result =>
          rw [runSteps_cons_of_ok hresult] at hbefore
          obtain ⟨later, hlater, rfl⟩ := map_eq_ok.mp hbefore
          rw [List.cons_append, runSteps_cons_of_ok hresult, runSteps_cons_of_ok hresult]
          simp [ih hlater, map_map, Nat.add_assoc]

/-- Steps of which one stops the run hide the steps after them. -/
theorem runSteps_append_of_error {before : List Step} {e : Error}
    (hbefore : (runSteps services playbookId env before).result = .error e)
    (after : List Step) :
    runSteps services playbookId env (before ++ after) =
      runSteps services playbookId env before := by
  induction before generalizing services env with
  | nil => cases hbefore
  | cons step before ih =>
      cases hresult : step.conclude playbookId (step.attempt (services 0) env).1 with
      | error e' =>
          rw [List.cons_append, runSteps_cons_of_error hresult, runSteps_cons_of_error hresult]
      | ok result =>
          rw [runSteps_cons_of_ok hresult] at hbefore
          rw [List.cons_append, runSteps_cons_of_ok hresult, runSteps_cons_of_ok hresult,
            ih (map_eq_error.mp hbefore)]

theorem runSteps_append_eq_ok {before after : List Step} {results : List StepResult} :
    (runSteps services playbookId env (before ++ after)).result = .ok results ↔
      ∃ first later,
        (runSteps services playbookId env before).result = .ok first ∧
        (runSteps (fun n => services (n + before.length)) playbookId (first.foldl publish env)
          after).result = .ok later ∧
        results = first ++ later := by
  constructor
  · intro hresults
    cases hbefore : (runSteps services playbookId env before).result with
    | error e =>
        rw [runSteps_append_of_error hbefore, hbefore] at hresults
        cases hresults
    | ok first =>
        rw [runSteps_append_of_ok hbefore] at hresults
        obtain ⟨later, hlater, rfl⟩ := map_eq_ok.mp hresults
        exact ⟨first, later, rfl, hlater, rfl⟩
  · rintro ⟨first, later, hbefore, hlater, rfl⟩
    rw [runSteps_append_of_ok hbefore]
    exact map_eq_ok.mpr ⟨later, hlater, rfl⟩

theorem runSteps_cons_eq_ok {step : Step} {rest : List Step} {results : List StepResult} :
    (runSteps services playbookId env (step :: rest)).result = .ok results ↔
      ∃ result later,
        step.conclude playbookId (step.attempt (services 0) env).1 = .ok result ∧
        (runSteps (fun n => services (n + 1)) playbookId (publish env result) rest).result =
          .ok later ∧
        results = result :: later := by
  cases hresult : step.conclude playbookId (step.attempt (services 0) env).1 with
  | error e =>
      rw [runSteps_cons_of_error hresult]
      simp
  | ok result =>
      rw [runSteps_cons_of_ok hresult]
      simp [map_eq_ok]

theorem result_runSteps_singleton (step : Step) :
    (runSteps services playbookId env [step]).result =
      (step.conclude playbookId (step.attempt (services 0) env).1).map fun result => [result] := by
  cases hresult : step.conclude playbookId (step.attempt (services 0) env).1 with
  | error e =>
      rw [runSteps_cons_of_error hresult]
      rfl
  | ok result =>
      rw [runSteps_cons_of_ok hresult]
      rfl

/-- The results of a run belong to its steps, one by one. -/
theorem stepIds_of_runSteps {steps : List Step} {results : List StepResult}
    (hresults : (runSteps services playbookId env steps).result = .ok results) :
    results.map (·.stepId) = steps.map (·.id) := by
  induction steps generalizing services env results with
  | nil =>
      cases hresults
      rfl
  | cons step steps ih =>
      obtain ⟨result, later, hresult, hlater, rfl⟩ := runSteps_cons_eq_ok.mp hresults
      simp only [List.map_cons, Step.stepId_of_conclude hresult, ih hlater]

theorem length_of_runSteps {steps : List Step} {results : List StepResult}
    (hresults : (runSteps services playbookId env steps).result = .ok results) :
    results.length = steps.length := by
  have hlengths := congrArg List.length (stepIds_of_runSteps hresults)
  simpa using hlengths

theorem exists_result_of_runSteps {steps : List Step} {results : List StepResult} {i : Nat}
    {step : Step} (hresults : (runSteps services playbookId env steps).result = .ok results)
    (hstep : steps[i]? = some step) :
    ∃ result, results[i]? = some result ∧ result.stepId = step.id := by
  have hids := congrArg (·[i]?) (stepIds_of_runSteps hresults)
  simpa [hstep] using hids

theorem exists_step_of_runSteps {steps : List Step} {results : List StepResult} {i : Nat}
    {result : StepResult} (hresults : (runSteps services playbookId env steps).result = .ok results)
    (hresult : results[i]? = some result) :
    ∃ step, steps[i]? = some step ∧ result.stepId = step.id := by
  have hids := congrArg (·[i]?) (stepIds_of_runSteps hresults)
  simp only [List.getElem?_map, hresult, Option.map_some] at hids
  obtain ⟨step, hstep, hid⟩ := Option.map_eq_some_iff.mp hids.symm
  exact ⟨step, hstep, hid.symm⟩

/-- Each result of a run concludes an attempt in the environment that the results before it have
made. -/
theorem conclude_of_runSteps {steps : List Step} {results : List StepResult} {i : Nat}
    {step : Step} {result : StepResult}
    (hresults : (runSteps services playbookId env steps).result = .ok results)
    (hstep : steps[i]? = some step) (hresult : results[i]? = some result) :
    step.conclude playbookId
      (step.attempt (services i) ((results.take i).foldl publish env)).1 = .ok result := by
  induction steps generalizing services env results i with
  | nil => simp at hstep
  | cons first steps ih =>
      obtain ⟨result', later, hfirst, hlater, rfl⟩ := runSteps_cons_eq_ok.mp hresults
      cases i with
      | zero =>
          simp only [List.getElem?_cons_zero, Option.some.injEq] at hstep hresult
          subst hstep hresult
          exact hfirst
      | succ i =>
          simp only [List.getElem?_cons_succ] at hstep hresult
          have hconclude := ih hlater hstep hresult
          exact hconclude

end

/-! ## Beginnings of playbooks -/

/-- Services whose models give back their inputs. -/
def echoing : Services where
  load modelId := .ok ⟨⟨modelId, modelId, "1.0", "", [], [], []⟩, modelId⟩
  check _ _ := .ok (.ok [])
  execute _ inputs := ⟨.ok (.map inputs), []⟩

/-- A rate that one step takes from the intake and another one from the first, with a step between
them that never runs. -/
def relay : Playbook where
  id := "relay"
  version := "1"
  name := "Relay"
  description := ""
  intakeFields := [⟨"rate", "number", "Rate", []⟩]
  steps := [⟨"base", "copy", none, [("x", .text "intake.rate")], .abort, "", []⟩,
    ⟨"idle", "copy", some (.fixed false), [], .abort, "", []⟩,
    ⟨"net", "copy", none, [("y", .text "steps.base.x")], .warnAndContinue, "", []⟩]
  extra := []

/-- The playbook that ends after the first `n` steps. -/
def upTo (p : Playbook) (n : Nat) : Playbook :=
  { p with steps := p.steps.take n }

theorem upTo_length (p : Playbook) : p.upTo p.steps.length = p := by
  simp [upTo]

/-- What references can look at after the steps of a report. -/
def Report.environment (r : Report) : Environment :=
  r.steps.foldl publish ⟨r.intake, []⟩

section

variable {services : Nat → Services} {p : Playbook} {intake : Value}

theorem runWith_of_refused (hviolations : intakeViolations p.intakeFields intake ≠ []) :
    p.runWith services intake =
      ⟨.error (.invalidIntake (intakeViolations p.intakeFields intake)), []⟩ := by
  unfold Playbook.runWith
  cases hrefused : intakeViolations p.intakeFields intake with
  | nil => exact absurd hrefused hviolations
  | cons violation violations => rfl

theorem runWith_of_accepted (haccepted : intakeViolations p.intakeFields intake = []) :
    p.runWith services intake =
      let run := runSteps services p.id ⟨intake.entries?.getD [], []⟩ p.steps
      ⟨run.result.map fun steps => ⟨p.id, p.version, intake.entries?.getD [], steps⟩,
        run.events⟩ := by
  simp only [Playbook.runWith, haccepted]

theorem runWith_eq_ok {report : Report} :
    (p.runWith services intake).result = .ok report ↔
      intakeViolations p.intakeFields intake = [] ∧ ∃ results,
        (runSteps services p.id ⟨intake.entries?.getD [], []⟩ p.steps).result = .ok results ∧
        report = ⟨p.id, p.version, intake.entries?.getD [], results⟩ := by
  cases hviolations : intakeViolations p.intakeFields intake with
  | nil =>
      rw [runWith_of_accepted hviolations]
      simp [map_eq_ok]
  | cons violation violations =>
      simp [Playbook.runWith, hviolations]

theorem runWith_upTo_eq_ok {n : Nat} {report : Report} :
    ((p.upTo n).runWith services intake).result = .ok report ↔
      intakeViolations p.intakeFields intake = [] ∧ ∃ results,
        (runSteps services p.id ⟨intake.entries?.getD [], []⟩ (p.steps.take n)).result =
          .ok results ∧
        report = ⟨p.id, p.version, intake.entries?.getD [], results⟩ :=
  runWith_eq_ok

/-- The next step meets the environment of the report that the steps before it have given. -/
theorem runWith_upTo_succ {i : Nat} {step : Step} {report : Report}
    (hstep : p.steps[i]? = some step)
    (hreport : ((p.upTo i).runWith services intake).result = .ok report) :
    ((p.upTo (i + 1)).runWith services intake).result =
      (step.conclude p.id (step.attempt (services i) report.environment).1).map fun result =>
        { report with steps := report.steps ++ [result] } := by
  obtain ⟨haccepted, results, hresults, rfl⟩ := runWith_upTo_eq_ok.mp hreport
  have hlength : (p.steps.take i).length = i := by
    have hi := (List.getElem?_eq_some_iff.mp hstep).1
    simp only [List.length_take]
    omega
  have hsteps : p.steps.take (i + 1) = p.steps.take i ++ [step] := by
    simp [List.take_add_one, hstep]
  rw [runWith_of_accepted (p := p.upTo (i + 1)) haccepted]
  simp only [upTo, hsteps, runSteps_append_of_ok hresults, result_runSteps_singleton, map_map,
    hlength, Nat.zero_add, Report.environment]

end

end ModelPlaybook.Playbook
