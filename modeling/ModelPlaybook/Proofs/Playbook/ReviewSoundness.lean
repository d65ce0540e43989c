import Mathlib
import ModelPlaybook.Proofs.Playbook.Progress
import ModelPlaybook.Proofs.Playbook.Publication
import ModelPlaybook.Proofs.Playbook.ReviewFindings

/-!
# What a review says about runs

A playbook that a review finds no error in never meets a malformed text, and it misses outputs only
of earlier steps that did not give them.  A step that a review finds an error in never succeeds.
-/

namespace ModelPlaybook.Playbook

open ModelPlaybook.Expression

/-! ## Places -/

theorem bracket_not_mem_toDigits (n : Nat) : ']' ∉ Nat.toDigits 10 n := by
  intro hmem
  have hdigit : (']' : Char).isDigit := Nat.isDigit_of_mem_toDigits (by decide) (by decide) hmem
  exact absurd hdigit (by decide)

/-- A text tells by its first words which step it is about. -/
theorem Step.index_eq_of_place {i j : Nat} {step step' : Step} {rest rest' : String}
    (hplace : step.place i ++ rest = step'.place j ++ rest') :
    i = j := by
  have hchars : Nat.toDigits 10 i ++ ']' :: (" (".toList ++ step.id.toList ++ ")".toList ++
        rest.toList) =
      Nat.toDigits 10 j ++ ']' :: (" (".toList ++ step'.id.toList ++ ")".toList ++
        rest'.toList) := by
    have hlists := congrArg String.toList hplace
    simpa [Step.place, Nat.toString_eq_repr, Nat.toList_repr] using hlists
  have hdigits : Nat.toDigits 10 i = Nat.toDigits 10 j := by
    have hbefore := congrArg (List.takeWhile (· ≠ ']')) hchars
    rwa [takeWhile_ne_append _ (bracket_not_mem_toDigits i),
      takeWhile_ne_append _ (bracket_not_mem_toDigits j)] at hbefore
  have hvalues := congrArg (fun digits => Nat.ofDigitChars 10 digits 0) hdigits
  simpa using hvalues

/-! ## Steps without findings -/

section

variable {p : Playbook} {i : Nat} {step : Step}

theorem errors_findingsAt_eq_nil (hclean : (review p).errors = [])
    (hstep : p.steps[i]? = some step) :
    (p.findingsAt i step).errors = [] := by
  rw [List.eq_nil_iff_forall_not_mem] at hclean ⊢
  exact fun text htext => hclean text (mem_errors_review.mpr ⟨i, step, hstep, htext⟩)

theorem warnings_findingsAt_eq_nil (hclean : (review p).warnings = [])
    (hstep : p.steps[i]? = some step) :
    (p.findingsAt i step).warnings = [] := by
  rw [List.eq_nil_iff_forall_not_mem] at hclean ⊢
  exact fun text htext => hclean text (mem_warnings_review.mpr ⟨i, step, hstep, htext⟩)

theorem errors_findingsAt_eq_nil_iff :
    (p.findingsAt i step).errors = [] ↔
      step.faults = [] ∧ ∀ r ∈ step.references, r.scope = .steps →
        ∃ earlier ∈ p.steps.take i, earlier.id = (splitAtPoint r.name).1 := by
  simp only [findingsAt, errors_reviewStep_eq_nil_iff, List.mem_map, List.mem_reverse]

/-- A reference to the intake that a review does not warn of names a declared field. -/
theorem exists_field_of_warnings (hwarnings : (p.findingsAt i step).warnings = [])
    (hfields : p.intakeFields ≠ []) {r : Reference} (hr : r ∈ step.references)
    (hscope : r.scope ≠ .steps) :
    ∃ field ∈ p.intakeFields, field.id = r.name := by
  rw [findingsAt, reviewStep_eq] at hwarnings
  have hnone := List.flatMap_eq_nil_iff.mp hwarnings r hr
  rcases warnings_reviewReference_eq_nil hnone hscope with hempty | hdeclared
  · exact absurd (List.map_eq_nil_iff.mp hempty) hfields
  · exact List.mem_map.mp hdeclared

end

/-- An accepted intake has a value for each declared field. -/
theorem get?_ne_none_of_accepted {fields : List IntakeField} {intake : Value} {field : IntakeField}
    (haccepted : intakeViolations fields intake = []) (hfield : field ∈ fields) :
    (intake.entries?.getD []).get? field.id ≠ none := by
  unfold intakeViolations at haccepted
  split at haccepted
  next => cases haccepted
  next entries hentries =>
    have hviolation := List.filterMap_eq_nil_iff.mp haccepted field hfield
    intro hmissing
    rw [hentries, Option.getD_some] at hmissing
    simp [IntakeField.violationIn?, hmissing] at hviolation

/-- An output that is missing although a step of its id has ended is one that such a step did not
give. -/
theorem exists_result_without_output {results : List StepResult} {values : Entries}
    {id output : String} (hended : ∃ result ∈ results, result.stepId = id)
    (hmissing : ((results.foldl publish ⟨values, []⟩).stepOutputs? id).bind
      (Entries.get? · output) = none) :
    ∃ result ∈ results, result.stepId = id ∧
      (result.ending.isSkipped = true ∨ result.ending.isFailed = true ∨
        ∃ outputs, result.ending.outputs? = some outputs ∧ outputs.get? output = none) := by
  cases houtputs : (results.foldl publish ⟨values, []⟩).stepOutputs? id with
  | none =>
      obtain ⟨result, hresult, hid⟩ := hended
      obtain ⟨-, hnothing⟩ := stepOutputs?_foldl_publish_eq_none houtputs
      have hending := Ending.outputs?_eq_none_iff.mp (hnothing result hresult hid)
      exact ⟨result, hresult, hid, hending.imp_right .inl⟩
  | some outputs =>
      rw [houtputs, Option.bind_some] at hmissing
      rcases stepOutputs?_foldl_publish houtputs with hbefore | ⟨result, hresult, hid, hending⟩
      · cases hbefore
      · exact ⟨result, hresult, hid, .inr (.inr ⟨outputs, hending, hmissing⟩)⟩

/-- An output that later steps miss, of a step that comes earlier, was not given by a step of this
id. -/
theorem exists_step_without_output {services : Nat → Services} {playbookId : String}
    {steps : List Step} {results : List StepResult} {values : Entries} {i : Nat} {earlier : Step}
    {id output : String}
    (hresults : (runSteps services playbookId ⟨values, []⟩ (steps.take i)).result = .ok results)
    (hearlier : earlier ∈ steps.take i) (hid : earlier.id = id)
    (hmissing : ((results.foldl publish ⟨values, []⟩).stepOutputs? id).bind
      (Entries.get? · output) = none) :
    ∃ j < i, ∃ step result, steps[j]? = some step ∧ results[j]? = some result ∧ step.id = id ∧
      (result.ending.isSkipped = true ∨ result.ending.isFailed = true ∨
        ∃ outputs, result.ending.outputs? = some outputs ∧ outputs.get? output = none) := by
  have hended : ∃ result ∈ results, result.stepId = id := by
    obtain ⟨k, hk⟩ := List.mem_iff_getElem?.mp hearlier
    obtain ⟨result, hresult, hstepId⟩ := exists_result_of_runSteps hresults hk
    exact ⟨result, List.mem_of_getElem? hresult, hstepId.trans hid⟩
  obtain ⟨result, hresult, hstepId, hending⟩ := exists_result_without_output hended hmissing
  obtain ⟨j, hj⟩ := List.mem_iff_getElem?.mp hresult
  obtain ⟨step, hstep, hstepId'⟩ := exists_step_of_runSteps hresults hj
  rw [List.getElem?_take, Option.ite_none_right_eq_some] at hstep
  obtain ⟨hji, hstep⟩ := hstep
  exact ⟨j, hji, step, result, hstep, hj, hstepId'.symm.trans hstepId, hending⟩

/-- In a playbook without errors, what keeps a step from its model is no malformed text, and a
missing output of another step belongs to an earlier one that was skipped, failed or succeeded
without it.  Without warnings, no declared field of the intake is missing either. -/
theorem error_of_reviewed {services : Nat → Services} {p : Playbook} {intake : Value} {i : Nat}
    {step : Step} {report : Report} {e : Error} (hclean : (review p).errors = [])
    (hstep : p.steps[i]? = some step)
    (hreport : ((p.upTo i).runWith services intake).result = .ok report)
    (herror : step.isDue report.environment = .error e ∨
      step.resolve report.environment = .error e) :
    (∀ message position, e ≠ .malformedExpression message position) ∧
      (∀ id output position, e = .unknownField ("steps." ++ id ++ "." ++ output) position →
        ∃ j < i, ∃ earlier result, p.steps[j]? = some earlier ∧ report.steps[j]? = some result ∧
          earlier.id = id ∧ (result.ending.isSkipped = true ∨ result.ending.isFailed = true ∨
            ∃ outputs, result.ending.outputs? = some outputs ∧ outputs.get? output = none)) ∧
      (p.intakeFields ≠ [] → (review p).warnings = [] →
        ∀ field position, e ≠ .unknownField ("intake." ++ field) position) := by
  obtain ⟨haccepted, results, hresults, rfl⟩ := runWith_upTo_eq_ok.mp hreport
  obtain ⟨failure, rfl, harises⟩ := Step.exists_failure herror
  obtain ⟨hfaults, hearlier⟩ :=
    errors_findingsAt_eq_nil_iff.mp (errors_findingsAt_eq_nil hclean hstep)
  cases failure with
  | malformed cause =>
      have hcause : cause ∈ step.faults := harises
      rw [hfaults] at hcause
      cases hcause
  | unknownField path position =>
      obtain ⟨r, hr, hmissing, rfl, rfl⟩ := harises
      refine ⟨by rintro _ _ ⟨⟩, ?_, ?_⟩
      · intro id output position hpath
        injection hpath with hpath
        obtain ⟨hscope, hsplit⟩ := (Step.writable hr).path_eq_steps_iff.mp hpath
        obtain ⟨earlier, hmem, hid⟩ := hearlier r hr hscope
        rw [hsplit] at hid
        refine exists_step_without_output hresults hmem hid ?_
        simpa [Environment.lookup?, hscope, hsplit, Report.environment] using hmissing
      · intro hfields hwarnings field position hpath
        injection hpath with hpath
        obtain ⟨hscope, hname⟩ := (Step.writable hr).path_eq_intake_iff.mp hpath
        obtain ⟨declared, hdeclared, hid⟩ := exists_field_of_warnings
          (warnings_findingsAt_eq_nil hwarnings hstep) hfields hr (by simp [hscope])
        have hvalue := get?_ne_none_of_accepted haccepted hdeclared
        rw [hid] at hvalue
        exact hvalue (by simpa [Environment.lookup?, hscope, Report.environment] using hmissing)
  | evaluation cause | contract message | fault f =>
      exact ⟨by rintro _ _ ⟨⟩, by rintro _ _ _ ⟨⟩, by rintro _ _ _ _ ⟨⟩⟩

/-- The relay with a last step that asks the idle one for a value. -/
def relayOfIdle : Playbook :=
  { relay with
    steps := [⟨"idle", "copy", some (.fixed false), [], .abort, "", []⟩,
      ⟨"net", "copy", none, [("y", .text "steps.idle.x")], .abort, "", []⟩] }

/-- The idle step is to blame for what it does not give. -/
theorem relayOfIdle_blames :
    ∃ j < 1, ∃ earlier result, relayOfIdle.steps[j]? = some earlier ∧
      [(⟨"idle", "copy", "copy", [], .skipped "Condition not met: False"⟩ : StepResult)][j]? =
        some result ∧
      earlier.id = "idle" ∧ (result.ending.isSkipped = true ∨ result.ending.isFailed = true ∨
        ∃ outputs, result.ending.outputs? = some outputs ∧ outputs.get? "x" = none) := by
  have hclean : (review relayOfIdle).errors = [] := by cbv
  have hreport : ((relayOfIdle.upTo 1).runWith (fun _ => echoing)
      (.map [(.text "rate", .int 3)])).result =
      .ok ⟨"relay", "1", [(.text "rate", .int 3)],
        [⟨"idle", "copy", "copy", [], .skipped "Condition not met: False"⟩]⟩ := by
    cbv
  have hmissing : Step.resolve ⟨[(.text "rate", .int 3)], []⟩
      ⟨"net", "copy", none, [("y", .text "steps.idle.x")], .abort, "", []⟩ =
      .error (.unknownField "steps.idle.x" (some 0)) := by
    cbv
  exact (error_of_reviewed (i := 1) hclean rfl hreport (.inr hmissing)).2.1 "idle" "x" _ rfl

/-! ## Steps with errors -/

/-- What later steps can find under an id has been published by a step of this id. -/
theorem exists_step_of_stepOutputs? {services : Nat → Services} {playbookId id : String}
    {steps : List Step} {results : List StepResult} {values outputs : Entries} {n : Nat}
    (hresults : (runSteps services playbookId ⟨values, []⟩ steps).result = .ok results)
    (hfound : ((results.take n).foldl publish ⟨values, []⟩).stepOutputs? id = some outputs) :
    ∃ step ∈ steps.take n, step.id = id := by
  rcases stepOutputs?_foldl_publish hfound with hbefore | ⟨result, hresult, hid, -⟩
  · cases hbefore
  · have hids : result.stepId ∈ (steps.take n).map (·.id) := by
      rw [List.map_take, ← stepIds_of_runSteps hresults, ← List.map_take]
      exact List.mem_map_of_mem hresult
    rw [hid] at hids
    exact List.mem_map.mp hids

/-- A step that succeeds has nothing that a review could find. -/
theorem errors_eq_nil_of_outputs {services : Nat → Services} {p : Playbook} {values : Entries}
    {n i : Nat} {step : Step} {results : List StepResult} {result : StepResult} {outputs : Entries}
    (hresults : (runSteps services p.id ⟨values, []⟩ (p.steps.take n)).result = .ok results)
    (hstep : p.steps[i]? = some step) (hresult : results[i]? = some result)
    (houtputs : result.ending.outputs? = some outputs) :
    (p.findingsAt i step).errors = [] := by
  obtain ⟨step', hstep', -⟩ := exists_step_of_runSteps hresults hresult
  have hin : i < n ∧ p.steps[i]? = some step' := by
    rwa [List.getElem?_take, Option.ite_none_right_eq_some] at hstep'
  obtain rfl : step = step' := Option.some.inj (hstep.symm.trans hin.2)
  have hconclude := conclude_of_runSteps hresults hstep' hresult
  obtain ⟨inputs, version, v, hdone⟩ := Step.done_of_outputs hconclude houtputs
  obtain ⟨hdue, inputs', hinputs⟩ := Step.ready_of_done hdone
  obtain ⟨hfaults, hvalues⟩ := Step.readable_of_resolve hdue hinputs
  refine errors_findingsAt_eq_nil_iff.mpr ⟨hfaults, fun r hr hscope => ?_⟩
  obtain ⟨v, hv⟩ := hvalues r hr
  simp only [Environment.lookup?, hscope] at hv
  obtain ⟨published, hpublished, -⟩ := Option.bind_eq_some_iff.mp hv
  obtain ⟨earlier, hearlier, hid⟩ := exists_step_of_stepOutputs? hresults hpublished
  rw [List.take_take, Nat.min_eq_left hin.1.le] at hearlier
  exact ⟨earlier, hearlier, hid⟩

/-- A step that a review finds an error in is skipped or fails whenever it ends at all, in the
whole run and in every beginning of a run. -/
theorem ending_of_flagged {services : Nat → Services} {p : Playbook} {intake : Value} {i : Nat}
    {step : Step} {result : StepResult} {report : Report} (hstep : p.steps[i]? = some step)
    (hflagged : ∃ rest, step.place i ++ rest ∈ (review p).errors)
    (hreport : (p.runWith services intake).result = .ok report ∨
      ∃ n, ((p.upTo n).runWith services intake).result = .ok report)
    (hresult : report.steps[i]? = some result) :
    result.ending.isSkipped = true ∨ result.ending.isFailed = true := by
  obtain ⟨n, hreport⟩ : ∃ n, ((p.upTo n).runWith services intake).result = .ok report := by
    rcases hreport with hwhole | hstart
    · exact ⟨p.steps.length, by rwa [upTo_length]⟩
    · exact hstart
  obtain ⟨-, results, hresults, rfl⟩ := runWith_upTo_eq_ok.mp hreport
  obtain ⟨rest, htext⟩ := hflagged
  obtain ⟨j, step', hstep', hfound⟩ := mem_errors_review.mp htext
  obtain ⟨rest', hplace⟩ := exists_place_of_mem_errors hfound
  obtain rfl := Step.index_eq_of_place hplace
  obtain rfl : step = step' := Option.some.inj (hstep.symm.trans hstep')
  apply Ending.outputs?_eq_none_iff.mp
  cases houtputs : result.ending.outputs? with
  | none => rfl
  | some outputs =>
      rw [errors_eq_nil_of_outputs hresults hstep hresult houtputs] at hfound
      cases hfound

/-- The relay with a first step that asks for a value of the step after it. -/
def relayOfLater : Playbook :=
  { relay with
    steps := [⟨"net", "copy", none, [("y", .text "steps.base.x")], .warnAndContinue, "", []⟩,
      ⟨"base", "copy", none, [("x", .text "intake.rate")], .abort, "", []⟩] }

/-- The first step fails for want of the value. -/
theorem relayOfLater_fails :
    ∃ report result, ((relayOfLater.upTo 1).runWith (fun _ => echoing)
        (.map [(.text "rate", .int 3)])).result = .ok report ∧
      report.steps[0]? = some result ∧
      (result.ending.isSkipped = true ∨ result.ending.isFailed = true) := by
  have herrors : (review relayOfLater).errors =
      ["steps[0] (net): reference to 'steps.base.x' does not name an earlier step"] := by
    cbv
  have hattempt : Step.attempt echoing ⟨[(.text "rate", .int 3)], []⟩
      ⟨"net", "copy", none, [("y", .text "steps.base.x")], .warnAndContinue, "", []⟩ =
      (.failed [] (.unknownField "steps.base.x" (some 0)), []) := by
    cbv
  have hreport : ((relayOfLater.upTo 1).runWith (fun _ => echoing)
      (.map [(.text "rate", .int 3)])).result =
      .ok ⟨"relay", "1", [(.text "rate", .int 3)],
        [⟨"net", "copy", "copy", [],
          .failed "Expression references unknown field: \"steps.base.x\""
            (some "EXPRESSION_UNKNOWN_FIELD")⟩]⟩ := by
    have hstart : ((relayOfLater.upTo 0).runWith (fun _ => echoing)
        (.map [(.text "rate", .int 3)])).result =
        .ok ⟨"relay", "1", [(.text "rate", .int 3)], []⟩ := by
      rfl
    rw [runWith_upTo_succ rfl hstart]
    simp only [Report.environment, List.foldl_nil, hattempt]
    rfl
  refine ⟨_, _, hreport, rfl, ?_⟩
  refine ending_of_flagged (p := relayOfLater) (i := 0) rfl
    ⟨": reference to 'steps.base.x' does not name an earlier step", ?_⟩ (.inr ⟨1, hreport⟩) rfl
  rw [herrors]
  exact List.mem_singleton.mpr rfl

end ModelPlaybook.Playbook
