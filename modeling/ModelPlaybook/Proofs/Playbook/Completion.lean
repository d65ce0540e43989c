import ModelPlaybook.Proofs.Playbook.Course
import ModelPlaybook.Proofs.Playbook.PlainInputs
import ModelPlaybook.Proofs.Sandbox.Supervision
import ModelPlaybook.Workspace

/-!
# Runs that always complete

Steps that may all fail stop a run only if one of them breaks a contract.  With plain values in the
intake and plain outputs of all models, everything that a reference can find is plain.  So the
inputs of every step are plain, a sandbox takes them, and no contract is ever broken.
-/

namespace ModelPlaybook

/-! ## Loading and checking -/

namespace Model

theorem Manifest.keepsContract_ofEntries (entries : Entries) :
    Error.KeepsContract (Manifest.ofEntries entries) := by
  unfold Manifest.ofEntries
  split
  · split
    · exact .ok _
    · exact .error rfl
  · exact .error rfl

section

variable {refuse : String → List Schema.Issue → Error}

theorem Manifest.keepsContract_ofDocument
    (hrefuse : ∀ message issues, (refuse message issues).isContract = false) (document : Value) :
    Error.KeepsContract (Manifest.ofDocument refuse document) := by
  unfold Manifest.ofDocument
  split
  · split
    · split
      · exact .error (hrefuse _ _)
      · exact Manifest.keepsContract_ofEntries _
    · exact .error (hrefuse _ _)
    · exact .error (hrefuse _ _)
  · exact .error (hrefuse _ _)

theorem Manifest.keepsContract_ofFile
    (hrefuse : ∀ message issues, (refuse message issues).isContract = false)
    (content : List UInt8) :
    Error.KeepsContract (Manifest.ofFile refuse content) := by
  unfold Manifest.ofFile
  split
  · exact .error (hrefuse _ _)
  · exact .error rfl
  · exact Manifest.keepsContract_ofDocument hrefuse _

end

theorem keepsContract_ofDirectory (files : FileTree) (place id : String) :
    Error.KeepsContract (ofDirectory files place id) := by
  have hlook : ∀ {α : Type} (r : Except Fault α),
      Error.KeepsContract (r.mapError Error.fault) :=
    fun r => FailsOnly.mapError fun f _ => rfl
  unfold ofDirectory
  refine (hlook _).bind fun present => ?_
  split
  · exact .error rfl
  · refine (hlook _).bind fun manifest? => ?_
    split
    · refine (Manifest.keepsContract_ofFile (fun _ _ => rfl) _).bind fun manifest => ?_
      refine (hlook _).bind fun logic? => ?_
      split
      · exact .error rfl
      · split
        · exact .ok _
        · exact .error rfl
    · exact .error rfl

theorem keepsContract_load (files : FileTree) (directory : String) (id : Value) :
    Error.KeepsContract (load files directory id) := by
  unfold load
  split
  · exact keepsContract_ofDirectory files _ _
  · split
    · exact .error rfl
    · exact .error rfl

end Model

namespace Playbook

open ModelPlaybook.Expression

theorem keepsContract_checkByManifest (manifest : Model.Manifest) (inputs : Entries) :
    Error.KeepsContract (checkByManifest manifest inputs) := by
  unfold checkByManifest
  split
  · exact .ok _
  · exact .error rfl

/-! ## Services -/

/-- Services that do not break a contract on their own account, and that execute models in a sandbox
whose workers report plain outputs. -/
structure Services.Supervised (services : Services) : Prop where
  load : ∀ modelId e, services.load modelId = .error e → e.isContract = false
  check : ∀ manifest inputs e, services.check manifest inputs = .error e → e.isContract = false
  execute : ∃ limits worker, (∀ text plain, (worker text plain).ReportsPlain) ∧
    ∀ logic inputs, (services.execute logic inputs).outcome =
      (Sandbox.execute limits worker (.text logic) (.map inputs)).result.map .map

/-- A workspace executes a model as a sandbox does, in a worker that runs its logic. -/
theorem outcome_services (w : Workspace) (logic : String) (inputs : Entries) :
    (w.services.execute logic inputs).outcome =
      (Sandbox.execute (.ofConfig w.config.sandbox)
        (fun text plain => (Script.tryOn text plain).behaviour.worker) (.text logic)
        (.map inputs)).result.map .map := by
  simp only [Workspace.services, Workspace.execute, Sandbox.executeScript, Sandbox.execute]
  cases haccepted : Sandbox.accept (.text logic) (.map inputs) with
  | error e => rfl
  | ok arguments => rfl

/-- The services of a workspace are supervised. -/
theorem supervised_services (w : Workspace) : w.services.Supervised where
  load modelId := Model.keepsContract_load w.files w.config.modelsDir (.text modelId)
  check := keepsContract_checkByManifest
  execute := ⟨_, _, fun _ _ => Sandbox.Behaviour.reportsPlain_worker _, outcome_services w⟩

section

variable {services : Services} {env : Environment} {step : Step}

/-- A supervised step that meets plain values does not break a contract. -/
theorem Step.Fails.isContract (hservices : services.Supervised) (henv : FindsPlain env)
    {inputs : Entries} {e : Error} (hfails : step.Fails services env inputs e) :
    e.isContract = false := by
  cases hfails with
  | condition hdue => exact step.keepsContract_isDue env e hdue
  | inputs hdue hinputs => exact step.keepsContract_resolve env e hinputs
  | load hready hload => exact hservices.load _ _ hload
  | check hready hload hcheck => exact hservices.check _ _ _ hcheck
  | rejected hready hload hcheck hinvalid => rfl
  | @execution _ model _ hready hmodel houtcome =>
      obtain ⟨limits, worker, -, hexecute⟩ := hservices.execute
      rw [hexecute] at houtcome
      obtain ⟨plain, haccepted⟩ :=
        Sandbox.accept_of_plain (Step.isPlain_of_resolve henv hready.2) model.logic
      exact Sandbox.isContract_of_execute haccepted (map_eq_error.mp houtcome)

/-- A supervised step publishes plain outputs. -/
theorem Step.Records.isPlain (hservices : services.Supervised) {result : StepResult}
    (hrecords : step.Records services env result) {outputs : Entries}
    (houtputs : result.ending.outputs? = some outputs) :
    outputs.IsPlain := by
  cases hrecords with
  | skipped hdue => cases houtputs
  | failed hfails hcontract hpolicy => cases houtputs
  | succeeded hready hmodel houtcome hentries =>
      obtain ⟨limits, worker, hworker, hexecute⟩ := hservices.execute
      rw [hexecute] at houtcome
      obtain ⟨given, hgiven, rfl⟩ := map_eq_ok.mp houtcome
      cases hentries
      cases houtputs
      exact Sandbox.isPlain_of_execute hworker hgiven

end

/-! ## Runs -/

section

variable {services : Nat → Services} {p : Playbook} {intake : Value}

theorem Passes.findsPlain {env : Environment} {steps : List Step} {results : List StepResult}
    (hservices : ∀ n, (services n).Supervised) (henv : FindsPlain env)
    (hpasses : Passes services env steps results) :
    FindsPlain (results.foldl publish env) := by
  induction hpasses with
  | nil => exact henv
  | cons hrecords hlater ih =>
      have hpublished := findsPlain_publish henv fun outputs houtputs =>
        hrecords.isPlain (hservices 0) houtputs
      exact ih (fun n => hservices (n + 1)) hpublished

theorem Reaches.findsPlain {i : Nat} {step : Step} {met : Environment}
    (hservices : ∀ n, (services n).Supervised)
    (hintake : ∀ entry ∈ intake.entries?.getD [], ∃ path plain, entry.2.toPlain path = .ok plain)
    (hreaches : p.Reaches services intake i step met) :
    FindsPlain met := by
  obtain ⟨-, -, before, hbefore, rfl⟩ := hreaches
  refine hbefore.findsPlain hservices (findsPlain_intake fun entry hentry => ?_)
  obtain ⟨path, plain, hplain⟩ := hintake entry hentry
  exact (Value.isPlain_of_toPlain hplain).1

/-- Steps that go on after a failure always give a report with one result each, if the intake is
accepted and plain and the services are supervised.  No step that such a run gets to breaks a
contract, and a sandbox takes the inputs of every one of them. -/
theorem runWith_completes (hpolicy : ∀ step ∈ p.steps, step.onError = .warnAndContinue)
    (haccepted : intakeViolations p.intakeFields intake = [])
    (hintake : ∀ entry ∈ intake.entries?.getD [], ∃ path plain, entry.2.toPlain path = .ok plain)
    (hservices : ∀ n, (services n).Supervised) :
    (∃ report, (p.runWith services intake).result = .ok report ∧
        report.steps.map (·.stepId) = p.steps.map (·.id)) ∧
      ∀ i step met, p.Reaches services intake i step met →
        (∀ inputs e, step.Fails (services i) met inputs e → e.isContract = false) ∧
        ∀ inputs logic, step.resolve met = .ok inputs →
          ∃ plain, Sandbox.accept (.text logic) (.map inputs) = .ok (logic, plain) := by
  have hkeeps : ∀ i step met, p.Reaches services intake i step met →
      ∀ inputs e, step.Fails (services i) met inputs e → e.isContract = false :=
    fun i step met hreaches inputs e hfails =>
      hfails.isContract (hservices i) (hreaches.findsPlain hservices hintake)
  have hmapping : ∀ n logic inputs v, ((services n).execute logic inputs).outcome = .ok v →
      ∃ outputs, v.entries? = some outputs := by
    intro n logic inputs v houtcome
    obtain ⟨limits, worker, -, hexecute⟩ := (hservices n).execute
    rw [hexecute] at houtcome
    obtain ⟨outputs, -, rfl⟩ := map_eq_ok.mp houtcome
    exact ⟨outputs, rfl⟩
  constructor
  · rcases passes_or_stops ⟨intake.entries?.getD [], []⟩ p.steps hmapping with
      ⟨results, hpasses⟩ | ⟨i, step, met, e, hmeets, ⟨inputs, hfails⟩, hstop⟩
    · have hresults := (passes_iff p.id).mp hpasses
      exact ⟨_, runWith_eq_ok.mpr ⟨haccepted, results, hresults, rfl⟩, stepIds_of_runSteps hresults⟩
    · -- No contract is broken on the way, and no step's policy is to stop the run.
      have hcontract := hkeeps i step met ⟨haccepted, hmeets⟩ inputs e hfails
      have hwarns := hpolicy step (List.mem_of_getElem? hmeets.1)
      simp [hcontract, hwarns] at hstop
  · intro i step met hreaches
    have hplain := hreaches.findsPlain hservices hintake
    exact ⟨hkeeps i step met hreaches, fun inputs logic hinputs =>
      Sandbox.accept_of_plain (Step.isPlain_of_resolve hplain hinputs) logic⟩

end

/-- Services that know every model but one and execute it in a worker that gives back its inputs. -/
def reflecting : Services where
  load modelId :=
    if modelId = "lost" then .error (.modelLoad "Model not found: lost" (some modelId) [])
    else .ok ⟨⟨modelId, modelId, "1.0", "", [], [], []⟩, modelId⟩
  check := checkByManifest
  execute logic inputs :=
    let worker (_ : String) (plain : Value) : Sandbox.Worker :=
      Sandbox.Behaviour.worker ⟨.registers, .gives (.ofValue plain)⟩
    ⟨(Sandbox.execute {} worker (.text logic) (.map inputs)).result.map .map, []⟩

/-- Four steps that go on after a failure, of which the second and the third one fail. -/
def forgiving : Playbook where
  id := "forgiving"
  version := "1"
  name := "Forgiving"
  description := ""
  intakeFields := [⟨"rate", "number", "Rate", []⟩]
  steps := [⟨"base", "copy", none, [("x", .text "intake.rate")], .warnAndContinue, "", []⟩,
    ⟨"ratio", "copy", none, [("x", .derived "steps.base.x / 0")], .warnAndContinue, "", []⟩,
    ⟨"gone", "lost", none, [("x", .int 1)], .warnAndContinue, "", []⟩,
    ⟨"net", "copy", none, [("y", .text "steps.base.x")], .warnAndContinue, "", []⟩]
  extra := []

theorem forgiving_completes :
    ∃ report, (forgiving.runWith (fun _ => reflecting) (.map [(.text "rate", .int 3)])).result =
        .ok report ∧
      report.steps.map (·.stepId) = ["base", "ratio", "gone", "net"] := by
  have hpolicy : ∀ step ∈ forgiving.steps, step.onError = .warnAndContinue := by
    simp [forgiving]
  have hintake : ∀ entry ∈ (Value.map [(.text "rate", .int 3)]).entries?.getD [],
      ∃ path plain, entry.2.toPlain path = .ok plain := by
    intro entry hentry
    obtain rfl := List.mem_singleton.mp hentry
    exact ⟨"", .int 3, rfl⟩
  have hsupervised : reflecting.Supervised := by
    refine ⟨fun modelId e hload => ?_, keepsContract_checkByManifest, ?_⟩
    · simp only [reflecting] at hload
      split at hload
      · cases hload
        rfl
      · cases hload
    · exact ⟨{}, fun _ plain => Sandbox.Behaviour.worker ⟨.registers, .gives (.ofValue plain)⟩,
        fun _ _ => Sandbox.Behaviour.reportsPlain_worker _, fun _ _ => rfl⟩
  exact (runWith_completes hpolicy rfl hintake fun _ => hsupervised).1

end Playbook

end ModelPlaybook
