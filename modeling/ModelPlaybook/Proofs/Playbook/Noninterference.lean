import Mathlib
import ModelPlaybook.Proofs.Playbook.Progress
import ModelPlaybook.Proofs.Playbook.Publication
import ModelPlaybook.Proofs.Playbook.StepReferences

/-!
# What a run does not depend on

Two environments that give every reference of some steps the same value are the same to these
steps.  So a run does not notice intake values that no step refers to, and it does not miss a step
whose outputs no later step refers to.
-/

namespace ModelPlaybook.Playbook

open ModelPlaybook.Expression

/-! ## Equal environments -/

/-- Steps that find the same behind all their references run the same. -/
theorem runSteps_congr (services : Nat → Services) (playbookId : String) {env env' : Environment}
    {steps : List Step}
    (hlookup : ∀ step ∈ steps, ∀ r ∈ step.references, env.lookup? r = env'.lookup? r) :
    runSteps services playbookId env steps = runSteps services playbookId env' steps := by
  induction steps generalizing services env env' with
  | nil => rfl
  | cons step steps ih =>
      have hattempt : step.attempt (services 0) env = step.attempt (services 0) env' :=
        Step.attempt_congr (services 0) (hlookup step List.mem_cons_self)
      cases hresult : step.conclude playbookId (step.attempt (services 0) env).1 with
      | error e =>
          have hresult' := hresult
          rw [hattempt] at hresult'
          rw [runSteps_cons_of_error hresult, runSteps_cons_of_error hresult', hattempt]
      | ok result =>
          have hresult' := hresult
          rw [hattempt] at hresult'
          have hlater : ∀ later ∈ steps, ∀ r ∈ later.references,
              (publish env result).lookup? r = (publish env' result).lookup? r :=
            fun later hlater r hr =>
              lookup?_publish_congr (hlookup later (List.mem_cons_of_mem _ hlater) r hr) result
          rw [runSteps_cons_of_ok hresult, runSteps_cons_of_ok hresult', hattempt, ih _ hlater]

/-! ## Intake values that no step refers to -/

/-- Whether a step refers to a field of the intake. -/
def Step.RefersToField (step : Step) (field : String) : Prop :=
  ∃ r ∈ step.references, r.path = "intake." ++ field

/-- Whether a step refers to an output of another step. -/
def Step.RefersToStep (step : Step) (id : String) : Prop :=
  ∃ r ∈ step.references, ∃ output, r.path = "steps." ++ id ++ "." ++ output

/-- The value of a field in an intake. -/
def fieldValue? (intake : Value) (field : String) : Option Value :=
  (intake.entries?.getD []).get? field

theorem lookup?_congr_of_fieldValue? {intake intake' : Value} {step : Step} {r : Reference}
    (hagree : ∀ field, step.RefersToField field →
      fieldValue? intake field = fieldValue? intake' field)
    (hr : r ∈ step.references) :
    Environment.lookup? ⟨intake.entries?.getD [], []⟩ r =
      Environment.lookup? ⟨intake'.entries?.getD [], []⟩ r := by
  cases hscope : r.scope with
  | intake =>
      have hpath : r.path = "intake." ++ r.name :=
        (Step.writable hr).path_eq_intake_iff.mpr ⟨hscope, rfl⟩
      have hvalue := hagree r.name ⟨r, hr, hpath⟩
      simpa only [Environment.lookup?, hscope, fieldValue?] using hvalue
  | steps => simp [Environment.lookup?, hscope, Environment.stepOutputs?]
  | other name => simp [Environment.lookup?, hscope]

/-- Two intakes that are the same to the steps of a playbook lead to the same steps. -/
theorem run_steps_congr {services : Services} {p : Playbook} {intake intake' : Value}
    (haccepted : intakeViolations p.intakeFields intake = [])
    (haccepted' : intakeViolations p.intakeFields intake' = [])
    (hagree : ∀ step ∈ p.steps, ∀ field, step.RefersToField field →
      fieldValue? intake field = fieldValue? intake' field) :
    (p.run services intake).result.map (·.steps) = (p.run services intake').result.map (·.steps) ∧
      (p.run services intake).events = (p.run services intake').events := by
  have hruns := runSteps_congr (fun _ => services) p.id
    fun step hstep r hr => lookup?_congr_of_fieldValue? (hagree step hstep) hr
  unfold Playbook.run
  rw [runWith_of_accepted haccepted, runWith_of_accepted haccepted']
  simp only [hruns, map_map, and_self]

/-- Intakes that agree on all fields that the steps refer to have the same outcome: the same results
of steps or the same error, after the same beginnings and the same calls. -/
theorem run_eq_of_intakes_agree {services : Services} {p : Playbook} {intake intake' : Value}
    (haccepted : intakeViolations p.intakeFields intake = [])
    (haccepted' : intakeViolations p.intakeFields intake' = [])
    (hagree : ∀ field, (∃ step ∈ p.steps, step.RefersToField field) →
      fieldValue? intake field = fieldValue? intake' field) :
    (p.run services intake).result.map (·.steps) = (p.run services intake').result.map (·.steps) ∧
      (p.run services intake).events = (p.run services intake').events ∧
      ∀ n, ((p.upTo n).run services intake).result.map (·.steps) =
        ((p.upTo n).run services intake').result.map (·.steps) := by
  obtain ⟨hresult, hevents⟩ := run_steps_congr (p := p) haccepted haccepted'
    fun step hstep field hrefers => hagree field ⟨step, hstep, hrefers⟩
  refine ⟨hresult, hevents, fun n => ?_⟩
  obtain ⟨hstart, -⟩ := run_steps_congr (p := p.upTo n) haccepted haccepted'
    fun step hstep field hrefers => hagree field ⟨step, List.mem_of_mem_take hstep, hrefers⟩
  exact hstart

theorem relay_references :
    relay.steps.flatMap Step.references =
      [⟨.intake, "rate", some 0⟩, ⟨.steps, "base.x", some 0⟩] := by
  cbv

/-- The relay does not read a note. -/
theorem relay_note :
    (relay.run echoing (.map [(.text "rate", .int 3)])).result.map (·.steps) =
      (relay.run echoing (.map [(.text "rate", .int 3), (.text "note", .text "new")])).result.map
        (·.steps) := by
  refine (run_eq_of_intakes_agree rfl rfl ?_).1
  rintro field ⟨step, hstep, r, hr, hpath⟩
  have hmem : r ∈ relay.steps.flatMap Step.references := List.mem_flatMap.mpr ⟨step, hstep, hr⟩
  rw [relay_references] at hmem
  simp only [List.mem_cons, List.not_mem_nil, or_false] at hmem
  rcases hmem with rfl | rfl
  · obtain rfl : "rate" = field := (String.append_right_inj "intake.").mp hpath
    rfl
  · simp [Reference.path, Scope.text, ← String.toList_inj] at hpath

/-! ## Steps whose outputs no later step refers to -/

theorem lookup?_publish_of_not_refersToStep {step : Step} {result : StepResult} {r : Reference}
    (env : Environment) (hunused : ¬step.RefersToStep result.stepId) (hr : r ∈ step.references) :
    (publish env result).lookup? r = env.lookup? r := by
  apply lookup?_publish_of_ne
  intro hscope hid
  have hpath : r.path = "steps." ++ result.stepId ++ "." ++ (splitAtPoint r.name).2 :=
    (Step.writable hr).path_eq_steps_iff.mpr ⟨hscope, by rw [hid]⟩
  exact hunused ⟨r, hr, _, hpath⟩

/-- A step that published nothing, or nothing that is used, does not matter to the steps after
it. -/
theorem runSteps_publish_of_unused (services : Nat → Services) (playbookId : String)
    (env : Environment) {result : StepResult} {later : List Step}
    (hunused : (result.ending.isSkipped = true ∨ result.ending.isFailed = true) ∨
      ∀ step ∈ later, ¬step.RefersToStep result.stepId) :
    runSteps services playbookId (publish env result) later =
      runSteps services playbookId env later := by
  rcases hunused with hending | hunused
  · rw [publish_of_outputs?_eq_none (Ending.outputs?_eq_none_iff.mpr hending)]
  · exact runSteps_congr services playbookId fun step hstep r hr =>
      lookup?_publish_of_not_refersToStep env (hunused step hstep) hr

/-- The playbook without its step at an index. -/
def without (p : Playbook) (i : Nat) : Playbook :=
  { p with steps := p.steps.eraseIdx i }

/-- A step that published nothing, or nothing that a later step refers to, can be left out: the
other results stay as they are. -/
theorem run_without {services : Services} {p : Playbook} {intake : Value} {i : Nat} {step : Step}
    {report : Report} (hstep : p.steps[i]? = some step)
    (hreport : (p.run services intake).result = .ok report)
    (hunused : (∃ result, report.steps[i]? = some result ∧
        (result.ending.isSkipped = true ∨ result.ending.isFailed = true)) ∨
      ∀ later ∈ p.steps.drop (i + 1), ¬later.RefersToStep step.id) :
    ((p.without i).run services intake).result =
      .ok { report with steps := report.steps.eraseIdx i } := by
  obtain ⟨haccepted, results, hresults, rfl⟩ := runWith_eq_ok.mp hreport
  have hsplit : p.steps = p.steps.take i ++ step :: p.steps.drop (i + 1) := by
    obtain ⟨hi, rfl⟩ := List.getElem?_eq_some_iff.mp hstep
    rw [List.getElem_cons_drop, List.take_append_drop]
  rw [hsplit] at hresults
  obtain ⟨first, others, hfirst, hothers, rfl⟩ := runSteps_append_eq_ok.mp hresults
  obtain ⟨result, later, hresult, hlater, rfl⟩ := runSteps_cons_eq_ok.mp hothers
  have hlength : first.length = i := by
    have hi := (List.getElem?_eq_some_iff.mp hstep).1
    rw [length_of_runSteps hfirst, List.length_take]
    omega
  have hsteps : (first ++ result :: later).eraseIdx i = first ++ later := by
    simp [← hlength, List.eraseIdx_append_of_length_le]
  have hquiet : (result.ending.isSkipped = true ∨ result.ending.isFailed = true) ∨
      ∀ step ∈ p.steps.drop (i + 1), ¬step.RefersToStep result.stepId := by
    rcases hunused with ⟨result', hresult', hending⟩ | hunused
    · have heq : result' = result := by
        simpa [← hlength, List.getElem?_append_right] using hresult'.symm
      exact .inl (heq ▸ hending)
    · rw [Step.stepId_of_conclude hresult]
      exact .inr hunused
  have hsame := runSteps_publish_of_unused (fun _ => services) p.id
    (first.foldl publish ⟨intake.entries?.getD [], []⟩) hquiet
  refine runWith_eq_ok.mpr ⟨haccepted, first ++ later, ?_, by rw [hsteps]; rfl⟩
  rw [without, List.eraseIdx_eq_take_drop_succ]
  refine runSteps_append_eq_ok.mpr ⟨first, later, hfirst, ?_, rfl⟩
  rw [← hsame]
  exact hlater

/-- The idle step of the relay can be left out. -/
theorem relay_without_idle :
    ((relay.without 1).run echoing (.map [(.text "rate", .int 3)])).result =
      .ok ⟨"relay", "1", [(.text "rate", .int 3)],
        [⟨"base", "copy", "copy", [(.text "x", .int 3)],
            .succeeded [(.text "x", .int 3)] (some "1.0")⟩,
          ⟨"net", "copy", "copy", [(.text "y", .int 3)],
            .succeeded [(.text "y", .int 3)] (some "1.0")⟩]⟩ := by
  have hreport : (relay.run echoing (.map [(.text "rate", .int 3)])).result =
      .ok ⟨"relay", "1", [(.text "rate", .int 3)],
        [⟨"base", "copy", "copy", [(.text "x", .int 3)],
            .succeeded [(.text "x", .int 3)] (some "1.0")⟩,
          ⟨"idle", "copy", "copy", [], .skipped "Condition not met: False"⟩,
          ⟨"net", "copy", "copy", [(.text "y", .int 3)],
            .succeeded [(.text "y", .int 3)] (some "1.0")⟩]⟩ := by
    cbv
  exact run_without (i := 1) rfl hreport (.inl ⟨_, rfl, .inl rfl⟩)

end ModelPlaybook.Playbook
