import Mathlib
import ModelPlaybook.Proofs.Playbook.Course

/-!
# How a run ends

A run ends in exactly one of four ways: its intake is refused, a step breaks a contract, a step that
is allowed to stop the run fails in any other way, or every step has a result.  Of several steps
that could stop the run the first one does.
-/

namespace ModelPlaybook.Playbook

open ModelPlaybook.Expression

/-- The ways in which a run can end. -/
inductive Finish where
  | refused (violations : List String)
  /-- The step at an index breaks a contract. -/
  | broken (index : Nat) (e : Error)
  /-- The step at an index fails, and its policy is to stop the run. -/
  | aborted (index : Nat) (step : Step) (cause : Error)
  | complete (results : List StepResult)

/-- What a run gives that ends in a given way. -/
def Finish.result (p : Playbook) (intake : Value) : Finish → Except Error Report
  | refused violations => .error (.invalidIntake violations)
  | broken _ e => .error e
  | aborted _ step cause => .error (stoppedBy p.id step cause)
  | complete results => .ok ⟨p.id, p.version, intake.entries?.getD [], results⟩

/-- What leads to each way of ending. -/
def EndsAs (services : Nat → Services) (p : Playbook) (intake : Value) : Finish → Prop
  | .refused violations =>
    violations = intakeViolations p.intakeFields intake ∧ violations ≠ []
  | .broken i e =>
    ∃ step met, p.Reaches services intake i step met ∧
      (∃ inputs, step.Fails (services i) met inputs e) ∧ e.isContract = true
  | .aborted i step cause =>
    ∃ met, p.Reaches services intake i step met ∧
      (∃ inputs, step.Fails (services i) met inputs cause) ∧ cause.isContract = false ∧
      step.onError = .abort
  | .complete results =>
    intakeViolations p.intakeFields intake = [] ∧
      Passes services ⟨intake.entries?.getD [], []⟩ p.steps results

/-- The end of a run that a step stops. -/
def Finish.ofStop (i : Nat) (step : Step) (e : Error) : Finish :=
  if e.isContract then broken i e else aborted i step e

section

variable {services : Nat → Services} {p : Playbook} {intake : Value} {finish : Finish}

theorem endsAs_iff :
    p.EndsAs services intake finish ↔
      (intakeViolations p.intakeFields intake ≠ [] ∧
        finish = .refused (intakeViolations p.intakeFields intake)) ∨
      (∃ i step met e, p.Reaches services intake i step met ∧ step.Stops (services i) met e ∧
        finish = .ofStop i step e) ∨
      ∃ results, intakeViolations p.intakeFields intake = [] ∧
        Passes services ⟨intake.entries?.getD [], []⟩ p.steps results ∧
        finish = .complete results := by
  constructor
  · intro hends
    cases finish with
    | refused violations =>
        obtain ⟨rfl, hviolations⟩ := hends
        exact .inl ⟨hviolations, rfl⟩
    | broken i e =>
        obtain ⟨step, met, hreaches, hfails, hcontract⟩ := hends
        exact .inr (.inl ⟨i, step, met, e, hreaches, ⟨hfails, .inl hcontract⟩,
          by simp [Finish.ofStop, hcontract]⟩)
    | aborted i step cause =>
        obtain ⟨met, hreaches, hfails, hcontract, hpolicy⟩ := hends
        exact .inr (.inl ⟨i, step, met, cause, hreaches, ⟨hfails, .inr hpolicy⟩,
          by simp [Finish.ofStop, hcontract]⟩)
    | complete results => exact .inr (.inr ⟨results, hends.1, hends.2, rfl⟩)
  · rintro (⟨hviolations, rfl⟩ | ⟨i, step, met, e, hreaches, ⟨hfails, hstop⟩, rfl⟩ |
      ⟨results, haccepted, hpasses, rfl⟩)
    · exact ⟨rfl, hviolations⟩
    · cases hcontract : e.isContract with
      | true =>
          simp only [Finish.ofStop, hcontract, if_true]
          exact ⟨step, met, hreaches, hfails, hcontract⟩
      | false =>
          rw [hcontract] at hstop
          simp only [Finish.ofStop, hcontract, Bool.false_eq_true, if_false]
          exact ⟨met, hreaches, hfails, hcontract, hstop.resolve_left Bool.false_ne_true⟩
    · exact ⟨haccepted, hpasses⟩

theorem EndsAs.unique {finish' : Finish} (hends : p.EndsAs services intake finish)
    (hends' : p.EndsAs services intake finish') :
    finish = finish' := by
  rcases endsAs_iff.mp hends with ⟨hviolations, rfl⟩ | ⟨i, step, met, e, hreaches, hstops, rfl⟩ |
    ⟨results, haccepted, hpasses, rfl⟩
  · rcases endsAs_iff.mp hends' with ⟨-, rfl⟩ | ⟨i, step, met, e, hreaches, -, -⟩ |
      ⟨results, haccepted, -, -⟩
    · rfl
    · exact absurd hreaches.1 hviolations
    · exact absurd haccepted hviolations
  · rcases endsAs_iff.mp hends' with ⟨hviolations, -⟩ |
      ⟨j, step', met', e', hreaches', hstops', rfl⟩ | ⟨results, -, hpasses, -⟩
    · exact absurd hreaches.1 hviolations
    · -- Neither stop is behind the other, so they are one.
      obtain ⟨rfl, rfl, rfl⟩ := hreaches.2.stops_unique hstops hreaches'.2 hstops'
      rfl
    · obtain ⟨result, hrecords⟩ := hpasses.records hreaches.2
      exact absurd hrecords (Step.not_records_of_stops hstops)
  · rcases endsAs_iff.mp hends' with ⟨hviolations, -⟩ |
      ⟨i, step, met, e, hreaches, hstops, -⟩ | ⟨results', -, hpasses', rfl⟩
    · exact absurd haccepted hviolations
    · obtain ⟨result, hrecords⟩ := hpasses.records hreaches.2
      exact absurd hrecords (Step.not_records_of_stops hstops)
    · rw [hpasses.unique hpasses']

/-- A run whose models give nothing but mappings ends in one of the four ways. -/
theorem exists_endsAs (p : Playbook) (intake : Value)
    (hmapping : ∀ n logic inputs v, ((services n).execute logic inputs).outcome = .ok v →
      ∃ outputs, v.entries? = some outputs) :
    ∃ finish, p.EndsAs services intake finish := by
  by_cases haccepted : intakeViolations p.intakeFields intake = []
  · rcases passes_or_stops ⟨intake.entries?.getD [], []⟩ p.steps hmapping with
      ⟨results, hpasses⟩ | ⟨i, step, met, e, hmeets, hstops⟩
    · exact ⟨_, endsAs_iff.mpr (.inr (.inr ⟨results, haccepted, hpasses, rfl⟩))⟩
    · exact ⟨_, endsAs_iff.mpr (.inr (.inl ⟨i, step, met, e, ⟨haccepted, hmeets⟩, hstops, rfl⟩))⟩
  · exact ⟨_, endsAs_iff.mpr (.inl ⟨haccepted, rfl⟩)⟩

/-- The way in which a run ends decides what it gives. -/
theorem EndsAs.result_eq (hends : p.EndsAs services intake finish) :
    (p.runWith services intake).result = finish.result p intake := by
  rcases endsAs_iff.mp hends with ⟨hviolations, rfl⟩ |
    ⟨i, step, met, e, ⟨haccepted, hmeets⟩, hstops, rfl⟩ | ⟨results, haccepted, hpasses, rfl⟩
  · rw [runWith_of_refused hviolations]
    rfl
  · rw [runWith_of_accepted haccepted]
    simp only [result_of_stops p.id hmeets hstops, Except.map, Finish.ofStop]
    split <;> rfl
  · rw [runWith_of_accepted haccepted]
    simp only [(passes_iff p.id).mp hpasses, Except.map, Finish.result]

/-- A run ends in exactly one of the four ways, and this way decides what it gives: the violations
of an intake before anything is asked for, the contract that the first stopping step breaks, that
step with its failure, or one result for every step. -/
theorem runWith_endsAs
    (hmapping : ∀ n logic inputs v, ((services n).execute logic inputs).outcome = .ok v →
      ∃ outputs, v.entries? = some outputs) :
    (∃! finish, p.EndsAs services intake finish) ∧
      ∀ finish, p.EndsAs services intake finish →
        (p.runWith services intake).result = finish.result p intake ∧
          (∀ violations, finish = .refused violations →
            (p.runWith services intake).events = []) ∧
          ∀ results, finish = .complete results →
            results.map (·.stepId) = p.steps.map (·.id) := by
  constructor
  · obtain ⟨finish, hends⟩ := exists_endsAs p intake hmapping
    exact ⟨finish, hends, fun finish' hends' => hends'.unique hends⟩
  · intro finish hends
    refine ⟨hends.result_eq, ?_, ?_⟩
    · rintro violations rfl
      obtain ⟨rfl, hviolations⟩ := hends
      rw [runWith_of_refused hviolations]
    · rintro results rfl
      exact stepIds_of_runSteps ((passes_iff p.id).mp hends.2)

end

/-- Two steps that miss a value of the intake; the second one may stop the run. -/
def wanting : Playbook where
  id := "wanting"
  version := "1"
  name := "Wanting"
  description := ""
  intakeFields := []
  steps := [⟨"try", "copy", none, [("x", .text "intake.rate")], .warnAndContinue, "", []⟩,
    ⟨"insist", "copy", none, [("x", .text "intake.rate")], .abort, "", []⟩]
  extra := []

theorem wanting_aborts :
    (wanting.runWith (fun _ => echoing) (.map [])).result =
      .error (.aborted ("Playbook wanting aborted at step insist: " ++
          "Expression references unknown field: \"intake.rate\"") "wanting" "insist" (some "copy")
        (some (.unknownField "intake.rate" (some 0)))) := by
  have hmapping : ∀ logic inputs v, (echoing.execute logic inputs).outcome = .ok v →
      ∃ outputs, v.entries? = some outputs := by
    rintro logic inputs v ⟨⟩
    exact ⟨inputs, rfl⟩
  have hmissing : Step.resolve ⟨[], []⟩
      ⟨"try", "copy", none, [("x", .text "intake.rate")], .warnAndContinue, "", []⟩ =
        .error (.unknownField "intake.rate" (some 0)) := by
    cbv
  have hfails : ∀ step ∈ wanting.steps,
      step.Fails echoing ⟨[], []⟩ [] (.unknownField "intake.rate" (some 0)) := by
    intro step hstep
    simp only [wanting, List.mem_cons, List.not_mem_nil, or_false] at hstep
    rcases hstep with rfl | rfl <;> exact .inputs rfl hmissing
  have htried : Passes (fun _ => echoing) ⟨[], []⟩ (wanting.steps.take 1)
      [⟨"try", "copy", "copy", [], .failed _ _⟩] :=
    .cons (.failed (hfails _ List.mem_cons_self) rfl rfl) .nil
  have hends : wanting.EndsAs (fun _ => echoing) (.map [])
      (.aborted 1 ⟨"insist", "copy", none, [("x", .text "intake.rate")], .abort, "", []⟩
        (.unknownField "intake.rate" (some 0))) :=
    ⟨_, ⟨rfl, rfl, _, htried, rfl⟩, ⟨[], hfails _ (List.mem_of_getElem? (i := 1) rfl)⟩, rfl, rfl⟩
  have hresult := ((runWith_endsAs fun _ => hmapping).2 _ hends).1
  rw [hresult]
  rfl

end ModelPlaybook.Playbook
