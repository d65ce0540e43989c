import ModelPlaybook.Proofs.Playbook.Documents
import ModelPlaybook.Proofs.Playbook.Noninterference

/-!
# Exchanging steps

The steps of a playbook have different ids, so two steps publish under different names and it does
not matter which one publishes first.  Two neighbours of which none refers to the other can change
places: both end as they did, and so does every other step.
-/

namespace ModelPlaybook.Playbook

open ModelPlaybook.Expression

/-! ## Lists -/

/-- A list whose entries at `i` and `i + 1` have changed places. -/
def exchange {α : Type} : Nat → List α → List α
  | 0, a :: b :: rest => b :: a :: rest
  | i + 1, a :: rest => a :: exchange i rest
  | _, entries => entries

section

variable {α : Type}

theorem exchange_append (before : List α) (a b : α) (rest : List α) :
    exchange before.length (before ++ a :: b :: rest) = before ++ b :: a :: rest := by
  induction before with
  | nil => rfl
  | cons first before ih => simp [exchange, ih]

theorem exchange_perm (i : Nat) (entries : List α) : (exchange i entries).Perm entries := by
  induction i generalizing entries with
  | zero =>
      cases entries with
      | nil => exact .refl _
      | cons a rest =>
          cases rest with
          | nil => exact .refl _
          | cons b rest => exact .swap a b rest
  | succ i ih =>
      cases entries with
      | nil => exact .refl _
      | cons a rest => exact (ih rest).cons a

theorem eq_append_of_getElem? {entries : List α} {i : Nat} {a b : α} (ha : entries[i]? = some a)
    (hb : entries[i + 1]? = some b) :
    ∃ before rest, before.length = i ∧ entries = before ++ a :: b :: rest := by
  obtain ⟨hi, rfl⟩ := List.getElem?_eq_some_iff.mp ha
  obtain ⟨hi', rfl⟩ := List.getElem?_eq_some_iff.mp hb
  refine ⟨entries.take i, entries.drop (i + 2), by simp; omega, ?_⟩
  rw [List.getElem_cons_drop, List.getElem_cons_drop, List.take_append_drop]

end

/-! ## Publishing in another order -/

/-- Results with different ids can be published in any order. -/
theorem lookup?_publish_comm {a b : StepResult} (hids : a.stepId ≠ b.stepId) (env : Environment)
    (r : Reference) :
    (publish (publish env a) b).lookup? r = (publish (publish env b) a).lookup? r := by
  have houtputs : ∀ id, (publish (publish env a) b).stepOutputs? id =
      (publish (publish env b) a).stepOutputs? id := by
    intro id
    by_cases ha : a.stepId = id
    · subst ha
      rw [stepOutputs?_publish_of_ne hids.symm, stepOutputs?_publish_self,
        stepOutputs?_publish_self, stepOutputs?_publish_of_ne hids.symm]
    · rw [stepOutputs?_publish_of_ne ha]
      by_cases hb : b.stepId = id
      · subst hb
        rw [stepOutputs?_publish_self, stepOutputs?_publish_self, stepOutputs?_publish_of_ne ha]
      · rw [stepOutputs?_publish_of_ne hb, stepOutputs?_publish_of_ne hb,
          stepOutputs?_publish_of_ne ha]
  simp only [Environment.lookup?, intake_publish, houtputs]

/-! ## Runs -/

/-- An attempt does not depend on what a step published that it does not refer to. -/
theorem Step.attempt_publish {step : Step} {result : StepResult} (services : Services)
    (env : Environment) (hfree : ¬step.RefersToStep result.stepId) :
    step.attempt services (publish env result) = step.attempt services env :=
  Step.attempt_congr services fun _ hr => lookup?_publish_of_not_refersToStep env hfree hr

theorem runSteps_exchanged {services : Services} {playbookId : String} {env : Environment}
    {first second : Step} {rest : List Step} {results : List StepResult}
    (hids : first.id ≠ second.id) (hfirst : ¬first.RefersToStep second.id)
    (hsecond : ¬second.RefersToStep first.id)
    (hresults : (runSteps (fun _ => services) playbookId env (first :: second :: rest)).result =
      .ok results) :
    ∃ a b later, results = a :: b :: later ∧
      (runSteps (fun _ => services) playbookId env (second :: first :: rest)).result =
        .ok (b :: a :: later) := by
  obtain ⟨a, others, ha, hothers, rfl⟩ := runSteps_cons_eq_ok.mp hresults
  obtain ⟨b, later, hb, hlater, rfl⟩ := runSteps_cons_eq_ok.mp hothers
  have hida : a.stepId = first.id := Step.stepId_of_conclude ha
  have hidb : b.stepId = second.id := Step.stepId_of_conclude hb
  have hb' : second.conclude playbookId (second.attempt services env).1 = .ok b := by
    rwa [Step.attempt_publish services env (hida ▸ hsecond)] at hb
  have ha' : first.conclude playbookId (first.attempt services (publish env b)).1 = .ok a := by
    rwa [Step.attempt_publish services env (hidb ▸ hfirst)]
  -- As lists of outputs the two environments differ; only what a reference finds is the same.
  have hsame : runSteps (fun _ => services) playbookId (publish (publish env a) b) rest =
      runSteps (fun _ => services) playbookId (publish (publish env b) a) rest :=
    runSteps_congr _ playbookId fun _ _ r _ =>
      lookup?_publish_comm (by rwa [hida, hidb]) env r
  refine ⟨a, b, later, rfl, ?_⟩
  refine runSteps_cons_eq_ok.mpr ⟨b, a :: later, hb', ?_, rfl⟩
  refine runSteps_cons_eq_ok.mpr ⟨a, later, ha', ?_, rfl⟩
  rw [← hsame]
  exact hlater

/-! ## Playbooks -/

theorem Summary.ofSteps_perm {results results' : List StepResult} (hperm : results.Perm results') :
    Summary.ofSteps results = Summary.ofSteps results' := by
  simp only [Summary.ofSteps, hperm.length_eq, hperm.countP_eq]

/-- The playbook whose steps at `i` and `i + 1` have changed places. -/
def exchanged (p : Playbook) (i : Nat) : Playbook :=
  { p with steps := exchange i p.steps }

/-- Two neighbours that do not refer to each other can change places: their results change places,
the other ones stay as they are, and so does the summary. -/
theorem run_exchanged {services : Services} {p : Playbook} {intake : Value} {i : Nat}
    {first second : Step} {report : Report} (hids : (p.steps.map (·.id)).Nodup)
    (hfirst : p.steps[i]? = some first) (hsecond : p.steps[i + 1]? = some second)
    (hfree : ¬first.RefersToStep second.id) (hfree' : ¬second.RefersToStep first.id)
    (hreport : (p.run services intake).result = .ok report) :
    ((p.exchanged i).run services intake).result =
        .ok { report with steps := exchange i report.steps } ∧
      Report.summary { report with steps := exchange i report.steps } = report.summary := by
  obtain ⟨haccepted, results, hresults, rfl⟩ := runWith_eq_ok.mp hreport
  obtain ⟨before, rest, rfl, hsteps⟩ := eq_append_of_getElem? hfirst hsecond
  rw [hsteps] at hresults hids
  have hne : first.id ≠ second.id := by
    intro heq
    have hpair := (List.nodup_append.mp (List.map_append ▸ hids)).2.1
    simp [heq] at hpair
  obtain ⟨passed, others, hpassed, hothers, rfl⟩ := runSteps_append_eq_ok.mp hresults
  obtain ⟨a, b, later, rfl, hexchanged⟩ := runSteps_exchanged hne hfree hfree' hothers
  have hplaces : exchange before.length (passed ++ a :: b :: later) =
      passed ++ b :: a :: later := by
    rw [← length_of_runSteps hpassed, exchange_append]
  refine ⟨?_, Summary.ofSteps_perm (exchange_perm _ _)⟩
  refine runWith_eq_ok.mpr ⟨haccepted, passed ++ b :: a :: later, ?_, by rw [hplaces]; rfl⟩
  rw [exchanged, hsteps, exchange_append]
  exact runSteps_append_eq_ok.mpr ⟨passed, _, hpassed, hexchanged, rfl⟩

/-- The idle step of the relay can go first. -/
theorem relay_exchanged :
    ((relay.exchanged 0).run echoing (.map [(.text "rate", .int 3)])).result =
      .ok ⟨"relay", "1", [(.text "rate", .int 3)],
        [⟨"idle", "copy", "copy", [], .skipped "Condition not met: False"⟩,
          ⟨"base", "copy", "copy", [(.text "x", .int 3)],
            .succeeded [(.text "x", .int 3)] (some "1.0")⟩,
          ⟨"net", "copy", "copy", [(.text "y", .int 3)],
            .succeeded [(.text "y", .int 3)] (some "1.0")⟩]⟩ := by
  have hids : (relay.steps.map (·.id)).Nodup := by decide
  have hreport : (relay.run echoing (.map [(.text "rate", .int 3)])).result =
      .ok ⟨"relay", "1", [(.text "rate", .int 3)],
        [⟨"base", "copy", "copy", [(.text "x", .int 3)],
            .succeeded [(.text "x", .int 3)] (some "1.0")⟩,
          ⟨"idle", "copy", "copy", [], .skipped "Condition not met: False"⟩,
          ⟨"net", "copy", "copy", [(.text "y", .int 3)],
            .succeeded [(.text "y", .int 3)] (some "1.0")⟩]⟩ := by
    cbv
  have hbase : ¬Step.RefersToStep ⟨"base", "copy", none, [("x", .text "intake.rate")], .abort, "",
      []⟩ "idle" := by
    rintro ⟨r, hr, output, hpath⟩
    have hscope := ((Step.writable hr).path_eq_steps_iff.mp hpath).1
    have hreferences : Step.references ⟨"base", "copy", none, [("x", .text "intake.rate")], .abort,
        "", []⟩ = [⟨.intake, "rate", some 0⟩] := by cbv
    rw [hreferences, List.mem_singleton] at hr
    rw [hr] at hscope
    cases hscope
  have hidle : ¬Step.RefersToStep ⟨"idle", "copy", some (.fixed false), [], .abort, "", []⟩
      "base" := by
    rintro ⟨r, hr, -⟩
    have hreferences : Step.references ⟨"idle", "copy", some (.fixed false), [], .abort, "", []⟩ =
        [] := by cbv
    rw [hreferences] at hr
    cases hr
  have hexchanged := run_exchanged (i := 0) hids rfl rfl hbase hidle hreport
  exact hexchanged.1

end ModelPlaybook.Playbook
