import ModelPlaybook.Proofs.Playbook.Course

/-!
# What a run asks for

A run loads the model of every step that it gets to and that is ready, and it executes the model of
every such step whose manifest admits the inputs.  It does so once for each step, in the order of
the steps, and asks for nothing behind a step that stops it.
-/

namespace ModelPlaybook.Playbook

open ModelPlaybook.Expression

/-! ## What happens in order -/

/-- What is found at place zero, followed by what is found at the places behind it. -/
def foundFrom {α : Type} (first : Option α) (later : Nat → Option α) : Nat → Option α
  | 0 => first
  | i + 1 => later i

/-- What happens at places below `n`, at most once at each place, in the order of the places. -/
def ListsInOrder {α : Type} (n : Nat) (happens : Nat → α → Prop) (entries : List α) : Prop :=
  ∃ found? : Nat → Option α, (∀ i a, found? i = some a ↔ happens i a) ∧
    entries = (List.range n).filterMap found?

section

variable {α : Type} {n : Nat} {happens : Nat → α → Prop} {entries : List α}

theorem listsInOrder_nil (hnever : ∀ i a, ¬happens i a) :
    ListsInOrder n happens [] := by
  refine ⟨fun _ => none, fun i a => ?_, by simp⟩
  simp [hnever i a]

theorem ListsInOrder.cons {first : Option α} (hfirst : ∀ a, first = some a ↔ happens 0 a)
    (hlater : ListsInOrder n (fun i => happens (i + 1)) entries) :
    ListsInOrder (n + 1) happens (first.toList ++ entries) := by
  obtain ⟨found?, hfound, rfl⟩ := hlater
  refine ⟨foundFrom first found?, fun i a => ?_, ?_⟩
  · cases i with
    | zero => exact hfirst a
    | succ i => exact hfound i a
  · have htail : (List.range n).filterMap (foundFrom first found? ∘ Nat.succ) =
        (List.range n).filterMap found? :=
      rfl
    rw [List.range_succ_eq_map, List.filterMap_cons, List.filterMap_map, htail]
    cases hzero : first <;> simp [foundFrom]

theorem ListsInOrder.congr {happens' : Nat → α → Prop} (hsame : ∀ i a, happens i a ↔ happens' i a)
    (hentries : ListsInOrder n happens entries) :
    ListsInOrder n happens' entries := by
  obtain ⟨found?, hfound, rfl⟩ := hentries
  exact ⟨found?, fun i a => (hfound i a).trans (hsame i a), rfl⟩

end

/-! ## One step -/

/-- The model that an event asks for. -/
def Event.loaded? : Event → Option String
  | .load modelId => some modelId
  | .execute .. => none

/-- The logic and the inputs that an event executes. -/
def Event.executed? : Event → Option (String × Entries)
  | .load _ => none
  | .execute logic inputs _ => some (logic, inputs)

/-- The step asks for its model. -/
def Step.Loads (env : Environment) (step : Step) (modelId : String) : Prop :=
  ∃ inputs, step.Ready env inputs ∧ modelId = step.modelId

/-- The step has its model executed. -/
def Step.Executes (services : Services) (env : Environment) (step : Step)
    (call : String × Entries) : Prop :=
  ∃ model, step.Ready env call.2 ∧ step.Admits services call.2 model ∧ call.1 = model.logic

/-- The events of an attempt show what its step does, which is one thing at most. -/
def Shows {α : Type} (seen? : Event → Option α)
    (does : Services → Environment → Step → α → Prop) : Prop :=
  ∀ services env step, ∃ found? : Option α,
    (∀ a, found? = some a ↔ does services env step a) ∧
      (step.attempt services env).2.filterMap seen? = found?.toList

section

variable {services : Services} {env : Environment} {step : Step} {inputs inputs' : Entries}

theorem Step.Ready.unique (hready : step.Ready env inputs) (hready' : step.Ready env inputs') :
    inputs = inputs' := by
  have hsame := hready.2.symm.trans hready'.2
  simpa using hsame

theorem Step.Admits.unique {model model' : Model} (hmodel : step.Admits services inputs model)
    (hmodel' : step.Admits services inputs model') :
    model = model' := by
  have hsame := hmodel.1.symm.trans hmodel'.1
  simpa using hsame

theorem Step.events_runModel_of_not_admits
    (hnone : ∀ model, ¬step.Admits services inputs model) :
    (step.runModel services inputs).2 = [.load step.modelId] := by
  cases hload : services.load step.modelId with
  | error e => simp only [Step.runModel, hload]
  | ok model =>
      cases hcheck : services.check model.manifest inputs with
      | error e => simp only [Step.runModel, hload, hcheck]
      | ok verdict =>
          have hinvalid : ¬verdict.valid = true :=
            fun hvalid => hnone model ⟨hload, verdict, hcheck, hvalid⟩
          simp [Step.runModel, hload, hcheck, hinvalid]

/-- All that a step can ask for. -/
theorem Step.events_attempt (services : Services) (env : Environment) (step : Step) :
    ((∀ inputs, ¬step.Ready env inputs) ∧ (step.attempt services env).2 = []) ∨
      (∃ inputs, step.Ready env inputs ∧ (∀ model, ¬step.Admits services inputs model) ∧
        (step.attempt services env).2 = [.load step.modelId]) ∨
      ∃ inputs model, step.Ready env inputs ∧ step.Admits services inputs model ∧
        (step.attempt services env).2 = [.load step.modelId,
          .execute model.logic inputs (services.execute model.logic inputs).log] := by
  cases hdue : step.isDue env with
  | error e => exact .inl ⟨by simp [Step.Ready, hdue], by simp only [Step.attempt, hdue]⟩
  | ok due =>
      cases due with
      | false => exact .inl ⟨by simp [Step.Ready, hdue], by simp only [Step.attempt, hdue]⟩
      | true =>
          cases hinputs : step.resolve env with
          | error e =>
              exact .inl ⟨by simp [Step.Ready, hinputs], by simp only [Step.attempt, hdue, hinputs]⟩
          | ok inputs =>
              have hready : step.Ready env inputs := ⟨hdue, hinputs⟩
              rw [Step.attempt_of_ready hready]
              by_cases hadmits : ∃ model, step.Admits services inputs model
              · obtain ⟨model, hmodel⟩ := hadmits
                have hevents := congrArg Prod.snd (Step.runModel_of_admits hmodel)
                exact .inr (.inr ⟨inputs, model, hready, hmodel, hevents⟩)
              · have hnone := not_exists.mp hadmits
                exact .inr (.inl ⟨inputs, hready, hnone, Step.events_runModel_of_not_admits hnone⟩)

theorem shows_loads : Shows Event.loaded? fun _ => Step.Loads := by
  intro services env step
  rcases Step.events_attempt services env step with
    ⟨hnot, hevents⟩ | ⟨inputs, hready, -, hevents⟩ | ⟨inputs, model, hready, -, hevents⟩
  · refine ⟨none, fun modelId => ?_, by simp [hevents]⟩
    simp [Step.Loads, hnot]
  · refine ⟨some step.modelId, fun modelId => ?_, by simp [hevents, Event.loaded?]⟩
    simp [Step.Loads, exists_and_right, Exists.intro _ hready, eq_comm]
  · refine ⟨some step.modelId, fun modelId => ?_, by simp [hevents, Event.loaded?]⟩
    simp [Step.Loads, exists_and_right, Exists.intro _ hready, eq_comm]

theorem shows_executions : Shows Event.executed? Step.Executes := by
  intro services env step
  rcases Step.events_attempt services env step with
    ⟨hnot, hevents⟩ | ⟨inputs, hready, hnone, hevents⟩ | ⟨inputs, model, hready, hmodel, hevents⟩
  · refine ⟨none, fun call => ?_, by simp [hevents]⟩
    simp [Step.Executes, hnot]
  · refine ⟨none, fun call => ?_, by simp [hevents, Event.executed?]⟩
    have hnever : ¬step.Executes services env call := by
      rintro ⟨model, hready', hmodel, -⟩
      exact hnone model (hready.unique hready' ▸ hmodel)
    simp [hnever]
  · refine ⟨some (model.logic, inputs), fun call => ?_, by rw [hevents]; rfl⟩
    constructor
    · rintro ⟨⟩
      exact ⟨model, hready, hmodel, rfl⟩
    · rintro ⟨model', hready', hmodel', hlogic⟩
      obtain rfl := hready.unique hready'
      rw [hmodel.unique hmodel', ← hlogic]

end

/-! ## Runs -/

/-- What attempts show, a run shows in the order of the steps that it gets to. -/
theorem listsInOrder_runSteps {α : Type} {seen? : Event → Option α}
    {does : Services → Environment → Step → α → Prop} (hshows : Shows seen? does)
    (services : Nat → Services) (playbookId : String) (env : Environment) (steps : List Step) :
    ListsInOrder steps.length
      (fun i a => ∃ step met, Meets services env steps i step met ∧ does (services i) met step a)
      ((runSteps services playbookId env steps).events.filterMap seen?) := by
  induction steps generalizing services env with
  | nil =>
      refine listsInOrder_nil ?_
      rintro i a ⟨step, met, hmeets, -⟩
      simp [Meets] at hmeets
  | cons first steps ih =>
      obtain ⟨found?, hfound, hevents⟩ := hshows (services 0) env first
      have hfirst : ∀ a, found? = some a ↔
          ∃ step met, Meets services env (first :: steps) 0 step met ∧
            does (services 0) met step a := by
        intro a
        rw [hfound a]
        constructor
        · exact fun hdoes => ⟨first, env, meets_zero.mpr ⟨rfl, rfl⟩, hdoes⟩
        · rintro ⟨step, met, hmeets, hdoes⟩
          obtain ⟨hstep, rfl⟩ := meets_zero.mp hmeets
          cases hstep
          exact hdoes
      cases hresult : first.conclude playbookId (first.attempt (services 0) env).1 with
      | error e =>
          have hstops : ∀ result, ¬first.Records (services 0) env result := by
            intro result hrecords
            rw [Step.records_iff playbookId, hresult] at hrecords
            cases hrecords
          -- The run is over, and no index behind the first one is met.
          rw [runSteps_cons_of_error hresult, hevents, ← List.append_nil found?.toList]
          refine ListsInOrder.cons hfirst (listsInOrder_nil ?_)
          rintro i a ⟨step, met, hmeets, -⟩
          obtain ⟨result, hrecords, -⟩ := meets_succ.mp hmeets
          exact hstops result hrecords
      | ok result =>
          have hrecords : first.Records (services 0) env result :=
            (Step.records_iff playbookId).mpr hresult
          -- Index `i` behind the first step is index `i + 1`, in the same environment.
          rw [runSteps_cons_of_ok hresult, List.filterMap_append, hevents]
          refine ListsInOrder.cons hfirst ((ih _ (publish env result)).congr fun i a => ?_)
          constructor
          · rintro ⟨step, met, hmeets, hdoes⟩
            exact ⟨step, met, meets_succ.mpr ⟨result, hrecords, hmeets⟩, hdoes⟩
          · rintro ⟨step, met, hmeets, hdoes⟩
            obtain ⟨result', hrecords', hlater⟩ := meets_succ.mp hmeets
            obtain rfl := hrecords.unique hrecords'
            exact ⟨step, met, hlater, hdoes⟩

theorem listsInOrder_runWith {α : Type} {seen? : Event → Option α}
    {does : Services → Environment → Step → α → Prop} (hshows : Shows seen? does)
    (services : Nat → Services) (p : Playbook) (intake : Value) :
    ListsInOrder p.steps.length
      (fun i a => ∃ step met, p.Reaches services intake i step met ∧ does (services i) met step a)
      ((p.runWith services intake).events.filterMap seen?) := by
  by_cases haccepted : intakeViolations p.intakeFields intake = []
  · rw [runWith_of_accepted haccepted]
    refine (listsInOrder_runSteps hshows services p.id _ p.steps).congr fun i a => ?_
    simp only [Reaches, haccepted, true_and]
  · rw [runWith_of_refused haccepted]
    refine listsInOrder_nil ?_
    rintro i a ⟨step, met, hreaches, -⟩
    exact haccepted hreaches.1

/-- The run loads a model for its step at an index. -/
def LoadsAt (services : Nat → Services) (p : Playbook) (intake : Value) (i : Nat)
    (modelId : String) : Prop :=
  ∃ step met, p.Reaches services intake i step met ∧ step.Loads met modelId

/-- The run executes logic on inputs for its step at an index. -/
def ExecutesAt (services : Nat → Services) (p : Playbook) (intake : Value) (i : Nat)
    (call : String × Entries) : Prop :=
  ∃ step met, p.Reaches services intake i step met ∧ step.Executes (services i) met call

/-- A run, whether it completes or not, loads the models of the ready steps that it gets to and
executes those whose manifests admit the inputs, in the order of the steps, each of them once; and
it asks for nothing behind a step without a result. -/
theorem runWith_calls (services : Nat → Services) (p : Playbook) (intake : Value) :
    ListsInOrder p.steps.length (p.LoadsAt services intake)
        ((p.runWith services intake).events.filterMap Event.loaded?) ∧
      ListsInOrder p.steps.length (p.ExecutesAt services intake)
        ((p.runWith services intake).events.filterMap Event.executed?) ∧
      ∀ i step met, p.Reaches services intake i step met →
        (∀ result, ¬step.Records (services i) met result) →
          ∀ j, (∃ modelId, p.LoadsAt services intake j modelId) ∨
            (∃ call, p.ExecutesAt services intake j call) → j ≤ i := by
  refine ⟨?_, ?_, ?_⟩
  · exact listsInOrder_runWith shows_loads services p intake
  · exact listsInOrder_runWith shows_executions services p intake
  · intro i step met hreaches hnone j hasks
    have hlater : ∃ later met', p.Reaches services intake j later met' := by
      rcases hasks with ⟨modelId, later, met', hlater, -⟩ | ⟨call, later, met', hlater, -⟩
      · exact ⟨later, met', hlater⟩
      · exact ⟨later, met', hlater⟩
    obtain ⟨later, met', hlater⟩ := hlater
    refine Nat.not_lt.mp fun hlt => ?_
    obtain ⟨result, hrecords⟩ := hreaches.2.records_of_lt hlater.2 hlt
    exact hnone result hrecords

end ModelPlaybook.Playbook
