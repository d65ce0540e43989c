import Mathlib
import ModelPlaybook.Proofs.Playbook.Course

/-!
# What a report says of its playbook

A run that ends with a report lists one result for each step, in the order of the steps and under
the names that the step has.  Ids are unique in a playbook, so a result is found again by the id of
its step.  Each result counts as one of executed, skipped and failed, and its record shows just one
of an output, an error and a mark that the step was skipped.  A failed step shows all of its inputs
or none.
-/

namespace ModelPlaybook

/-- Whether an entry of a record has a value other than nothing. -/
def Entries.isGiven (entries : Entries) (name : String) : Bool :=
  (entries.get? name).any (· ≠ .none)

namespace Playbook

open ModelPlaybook.Expression

/-! ## One result -/

section

variable {services : Services} {env : Environment} {step : Step} {result : StepResult}

theorem Step.Records.heading (hrecords : step.Records services env result) :
    result.stepId = step.id ∧ result.modelId = step.modelId ∧ result.sectionLabel = step.label := by
  cases hrecords with
  | skipped hdue => exact ⟨rfl, rfl, rfl⟩
  | failed hfails hcontract hpolicy => exact ⟨rfl, rfl, rfl⟩
  | succeeded hready hmodel houtcome houtputs => exact ⟨rfl, rfl, rfl⟩

/-- A step has its inputs as soon as all of them have values, and none before. -/
theorem Step.Fails.inputs_none_or_all {inputs : Entries} {e : Error}
    (hfails : step.Fails services env inputs e) :
    inputs = [] ∨ step.resolve env = .ok inputs := by
  cases hfails with
  | condition hdue => exact .inl rfl
  | inputs hdue hinputs => exact .inl rfl
  | load hready hload => exact .inr hready.2
  | check hready hload hcheck => exact .inr hready.2
  | rejected hready hload hcheck hinvalid => exact .inr hready.2
  | execution hready hmodel houtcome => exact .inr hready.2

theorem Step.Records.inputs_of_isFailed (hrecords : step.Records services env result)
    (hfailed : result.ending.isFailed = true) :
    result.inputs = [] ∨ step.resolve env = .ok result.inputs := by
  cases hrecords with
  | skipped hdue => cases hfailed
  | failed hfails hcontract hpolicy => exact hfails.inputs_none_or_all
  | succeeded hready hmodel houtcome houtputs => cases hfailed

end

theorem keys_of_resolveEntries {env : Environment} {inputs values : Entries}
    (hvalues : resolveEntries env inputs = .ok values) :
    values.map (·.1) = inputs.map (·.1) := by
  induction inputs generalizing values with
  | nil =>
      cases hvalues
      rfl
  | cons input inputs ih =>
      simp only [resolveEntries, List.mapM_cons] at hvalues
      obtain ⟨first, hfirst, hvalues⟩ := bind_eq_ok.mp hvalues
      obtain ⟨rest, hrest, hvalues⟩ := bind_eq_ok.mp hvalues
      obtain ⟨value, -, hfirst⟩ := bind_eq_ok.mp hfirst
      cases hfirst
      cases hvalues
      simp only [List.map_cons, ih hrest]

/-- No input is left out of those that a step resolves. -/
theorem Step.keys_of_resolve {env : Environment} {step : Step} {inputs : Entries}
    (hinputs : step.resolve env = .ok inputs) :
    inputs.map (·.1) = step.inputs.map fun input => .text input.1 := by
  unfold Step.resolve at hinputs
  split at hinputs
  next values hvalues =>
    cases hinputs
    rw [keys_of_resolveEntries hvalues, List.map_map]
    rfl
  next => cases hinputs

/-! ## All results -/

/-- The result at a place is that of the step at this place, in the environment that the results
before it have made. -/
theorem Passes.records_at {services : Nat → Services} {env : Environment} {steps : List Step}
    {results : List StepResult} {i : Nat} {step : Step} {result : StepResult}
    (hpasses : Passes services env steps results) (hstep : steps[i]? = some step)
    (hresult : results[i]? = some result) :
    ∃ met, Meets services env steps i step met ∧ step.Records (services i) met result := by
  induction hpasses generalizing i with
  | nil => simp at hstep
  | cons hrecords hlater ih =>
      cases i with
      | zero =>
          simp only [List.getElem?_cons_zero, Option.some.injEq] at hstep hresult
          subst hstep hresult
          exact ⟨_, meets_zero.mpr ⟨rfl, rfl⟩, hrecords⟩
      | succ i =>
          simp only [List.getElem?_cons_succ] at hstep hresult
          obtain ⟨met, hmeets, hrecords'⟩ := ih hstep hresult
          exact ⟨met, meets_succ.mpr ⟨_, hrecords, hmeets⟩, hrecords'⟩

/-- Where ids are unique, the first result with an id is the only one. -/
theorem Report.step?_eq_of_nodup {report : Report} {i : Nat} {result : StepResult}
    (hids : (report.steps.map (·.stepId)).Nodup) (hresult : report.steps[i]? = some result) :
    report.step? result.stepId = some result := by
  have hmem : result ∈ report.steps := List.mem_of_getElem? hresult
  have hsome : (report.step? result.stepId).isSome := by
    rw [Report.step?, List.find?_isSome]
    exact ⟨result, hmem, by simp⟩
  obtain ⟨found, hfound⟩ := Option.isSome_iff_exists.mp hsome
  have hmem' : found ∈ report.steps := List.mem_of_find?_eq_some hfound
  have hid : found.stepId = result.stepId := by
    have htest := List.find?_some hfound
    simpa using htest
  rw [hfound, List.inj_on_of_nodup_map hids hmem' hmem hid]

/-! ## Counts -/

theorem Summary.ofSteps_cons (result : StepResult) (results : List StepResult) :
    Summary.ofSteps (result :: results) =
      let rest := Summary.ofSteps results
      { total := rest.total + 1
        executed := rest.executed + result.ending.outputs?.isSome.toNat
        skipped := rest.skipped + result.ending.isSkipped.toNat
        failed := rest.failed + result.ending.isFailed.toNat
        success := !result.ending.isFailed && rest.success } := by
  cases hending : result.ending with
  | succeeded outputs version =>
      simp [Summary.ofSteps, hending, Ending.outputs?, Ending.isSkipped, Ending.isFailed]
  | failed error code =>
      simp [Summary.ofSteps, hending, Ending.outputs?, Ending.isSkipped, Ending.isFailed]
  | skipped reason =>
      simp [Summary.ofSteps, hending, Ending.outputs?, Ending.isSkipped, Ending.isFailed]

/-- Every result is counted once: as executed, as skipped or as failed. -/
theorem Summary.counts_add_up (results : List StepResult) :
    let summary := Summary.ofSteps results
    summary.executed + summary.skipped + summary.failed = summary.total := by
  induction results with
  | nil => rfl
  | cons result results ih =>
      rw [Summary.ofSteps_cons]
      cases result.ending with
      | succeeded outputs version =>
          simp only [Ending.outputs?, Ending.isSkipped, Ending.isFailed, Option.isSome_some,
            Bool.toNat_true, Bool.toNat_false]
          omega
      | failed error code =>
          simp only [Ending.outputs?, Ending.isSkipped, Ending.isFailed, Option.isSome_none,
            Bool.toNat_true, Bool.toNat_false]
          omega
      | skipped reason =>
          simp only [Ending.outputs?, Ending.isSkipped, Ending.isFailed, Option.isSome_none,
            Bool.toNat_true, Bool.toNat_false]
          omega

theorem Summary.success_iff (results : List StepResult) :
    (Summary.ofSteps results).success = true ↔
      ∀ result ∈ results, result.ending.isFailed = false := by
  simp [Summary.ofSteps, List.countP_eq_zero]

/-! ## Records -/

/-- The three things of which the record of a step has to show one: an output, an error, and that
the step was skipped. -/
def endingMarks (record : Entries) : List Bool :=
  [record.isGiven "outputs", record.isGiven "error",
    decide (record.get? "skipped" = some (.bool true))]

theorem StepResult.count_endingMarks (result : StepResult) :
    (endingMarks result.toEntries).count true = 1 := by
  obtain ⟨stepId, modelId, sectionLabel, inputs, ending⟩ := result
  cases ending with
  | succeeded outputs version => rfl
  | failed error code => rfl
  | skipped reason => rfl

/-! ## Reports -/

/-- A report says the right things of the playbook whose run it is about. -/
structure Report.Mirrors (services : Nat → Services) (p : Playbook) (intake : Value)
    (report : Report) : Prop where
  length_eq : report.steps.length = p.steps.length
  /-- The result at the place of a step bears its names, and is found under its id. -/
  heading : ∀ (i : Nat) (step : Step), p.steps[i]? = some step →
    ∃ result : StepResult, report.steps[i]? = some result ∧ report.step? step.id = some result ∧
      result.stepId = step.id ∧ result.modelId = step.modelId ∧ result.sectionLabel = step.label
  /-- A failed step shows no inputs, or else all of them as they have been resolved. -/
  inputs_of_failed : ∀ (i : Nat) (step : Step) (result : StepResult), p.steps[i]? = some step →
    report.steps[i]? = some result → result.ending.isFailed = true →
      result.inputs = [] ∨
        result.inputs.map (·.1) = (step.inputs.map fun input => .text input.1) ∧
          ∃ met, p.Reaches services intake i step met ∧ step.resolve met = .ok result.inputs
  total_eq : report.summary.total =
    report.summary.executed + report.summary.skipped + report.summary.failed
  total_eq_length : report.summary.total = p.steps.length
  success_iff : report.summary.success = true ↔
    ∀ result ∈ report.steps, result.ending.isFailed = false
  /-- The record of the report has one record for each step, and each of these shows just one of
  an output, an error and that the step was skipped. -/
  records : ∃ records : List Entries,
    report.toEntries.get? "steps" = some (.list (records.map .map)) ∧
      records.length = p.steps.length ∧ ∀ record ∈ records, (endingMarks record).count true = 1

/-- The report of a run mirrors its playbook. -/
theorem report_mirrors_playbook {services : Nat → Services} {p : Playbook} {intake : Value}
    {report : Report} (hids : (p.steps.map (·.id)).Nodup)
    (hreport : (p.runWith services intake).result = .ok report) :
    report.Mirrors services p intake := by
  obtain ⟨haccepted, results, hresults, rfl⟩ := runWith_eq_ok.mp hreport
  have hpasses : Passes services ⟨intake.entries?.getD [], []⟩ p.steps results :=
    (passes_iff p.id).mpr hresults
  have hlength : results.length = p.steps.length := length_of_runSteps hresults
  let report : Report := ⟨p.id, p.version, intake.entries?.getD [], results⟩
  have hids' : (report.steps.map (·.stepId)).Nodup := by
    rw [stepIds_of_runSteps hresults]
    exact hids
  constructor
  case length_eq => exact hlength
  case heading =>
    intro i step hstep
    obtain ⟨result, hresult, hid⟩ := exists_result_of_runSteps hresults hstep
    obtain ⟨met, -, hrecords⟩ := hpasses.records_at hstep hresult
    obtain ⟨-, hmodel, hlabel⟩ := hrecords.heading
    have hfound := Report.step?_eq_of_nodup hids' hresult
    rw [hid] at hfound
    exact ⟨result, hresult, hfound, hid, hmodel, hlabel⟩
  case inputs_of_failed =>
    intro i step result hstep hresult hfailed
    obtain ⟨met, hmeets, hrecords⟩ := hpasses.records_at hstep hresult
    rcases hrecords.inputs_of_isFailed hfailed with hnone | hall
    · exact .inl hnone
    · exact .inr ⟨Step.keys_of_resolve hall, met, ⟨haccepted, hmeets⟩, hall⟩
  case total_eq =>
    have hcounts := Summary.counts_add_up results
    exact hcounts.symm
  case total_eq_length => exact hlength
  case success_iff => exact Summary.success_iff results
  case records =>
    refine ⟨results.map (·.toEntries), ?_, ?_, ?_⟩
    · rw [List.map_map]
      rfl
    · rw [List.length_map, hlength]
    · intro record hrecord
      obtain ⟨result, -, rfl⟩ := List.mem_map.mp hrecord
      exact result.count_endingMarks

/-- Services of which one model fails. -/
def faltering : Services where
  load := echoing.load
  check := echoing.check
  execute logic inputs :=
    if logic = "broken" then ⟨.error (.execution "no rate"), []⟩ else echoing.execute logic inputs

/-- A step that is skipped, one that fails before it has its inputs, one that fails with them. -/
def patchwork : Playbook where
  id := "patchwork"
  version := "1"
  name := "Patchwork"
  description := ""
  intakeFields := []
  steps := [⟨"idle", "copy", some (.fixed false), [("x", .int 3)], .warnAndContinue, "Idle", []⟩,
    ⟨"early", "copy", none, [("x", .int 3), ("y", .text "steps.idle.x")], .warnAndContinue, "", []⟩,
    ⟨"late", "broken", none, [("x", .int 3), ("y", .int 4)], .warnAndContinue, "", []⟩]
  extra := []

def patchworkReport : Report :=
  ⟨"patchwork", "1", [],
    [⟨"idle", "copy", "Idle", [], .skipped "Condition not met: False"⟩,
      ⟨"early", "copy", "copy", [],
        .failed "Expression references unknown field: \"steps.idle.x\""
          (some "EXPRESSION_UNKNOWN_FIELD")⟩,
      ⟨"late", "broken", "broken", [(.text "x", .int 3), (.text "y", .int 4)],
        .failed "no rate" (some "SANDBOX_EXECUTION_ERROR")⟩]⟩

theorem patchwork_mirrored :
    (patchwork.steps.map (·.id)).Nodup ∧
    (patchwork.runWith (fun _ => faltering) (.map [])).result = .ok patchworkReport ∧
    patchworkReport.Mirrors (fun _ => faltering) patchwork (.map []) := by
  have hids : (patchwork.steps.map (·.id)).Nodup := by decide
  have hmissing : Step.resolve ⟨[], []⟩ ⟨"early", "copy", none,
      [("x", .int 3), ("y", .text "steps.idle.x")], .warnAndContinue, "", []⟩ =
        .error (.unknownField "steps.idle.x" (some 0)) := by
    cbv
  have hlate : Step.Fails faltering ⟨[], []⟩ ⟨"late", "broken", none,
      [("x", .int 3), ("y", .int 4)], .warnAndContinue, "", []⟩
        [(.text "x", .int 3), (.text "y", .int 4)] (.execution "no rate") :=
    .execution ⟨rfl, rfl⟩ ⟨rfl, .ok [], rfl, rfl⟩ rfl
  have hpasses : Passes (fun _ => faltering) ⟨[], []⟩ patchwork.steps patchworkReport.steps :=
    .cons (.skipped rfl) (.cons (.failed (.inputs rfl hmissing) rfl rfl)
      (.cons (.failed hlate rfl rfl) .nil))
  have hreport : (patchwork.runWith (fun _ => faltering) (.map [])).result =
      .ok patchworkReport :=
    runWith_eq_ok.mpr ⟨rfl, _, (passes_iff _).mp hpasses, rfl⟩
  exact ⟨hids, hreport, report_mirrors_playbook hids hreport⟩

end Playbook

end ModelPlaybook
