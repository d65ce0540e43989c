import Mathlib
import ModelPlaybook.Model.InputCheck
import ModelPlaybook.Playbook.Intake
import ModelPlaybook.Proofs.Expression.Overflow

/-!
# The checks of numbers agree

Numbers are checked in three places: in the intake of a run, where an expression refers to a value,
and in the inputs of a model.  What the intake takes for a number has itself as its value in an
expression; an expression can refer to just the values that a model takes for numbers; and so is
every result of an expression one of these.
-/

namespace ModelPlaybook

/-! ## Inputs of models -/

namespace Model

def Manifest.Accepts (m : Manifest) (inputs : Entries) : Prop :=
  ∃ verdict, m.checkInputs (.map inputs) = .ok verdict ∧ verdict.valid = true

theorem violations_cons (spec : InputSpec) (specs : List InputSpec) (inputs : Entries) :
    violations (spec :: specs) inputs = (do
      let first ← spec.violationIn? inputs
      let rest ← violations specs inputs
      pure (first.toList ++ rest)) := by
  simp only [violations, List.mapM_cons, bind_assoc, pure_bind]
  congr 1
  funext first
  cases first <;> rfl

theorem violations_eq_ok_nil_iff {specs : List InputSpec} {inputs : Entries} :
    violations specs inputs = .ok [] ↔ ∀ spec ∈ specs, spec.violationIn? inputs = .ok none := by
  induction specs with
  | nil =>
      simp only [List.not_mem_nil, false_implies, implies_true, iff_true]
      rfl
  | cons spec specs ih =>
      rw [violations_cons, List.forall_mem_cons, ← ih]
      constructor
      · intro h
        obtain ⟨first, hfirst, h⟩ := bind_eq_ok.mp h
        obtain ⟨rest, hrest, h⟩ := bind_eq_ok.mp h
        cases first with
        | none =>
            cases h
            exact ⟨hfirst, hrest⟩
        | some violation => cases h
      · rintro ⟨hfirst, hrest⟩
        rw [hfirst, hrest]
        rfl

/-- A manifest accepts inputs that hold a value of the right type for each input it declares. -/
theorem Manifest.accepts_iff {m : Manifest} {inputs : Entries} :
    m.Accepts inputs ↔ ∀ spec ∈ m.inputs, spec.violationIn? inputs = .ok none := by
  rw [← violations_eq_ok_nil_iff]
  constructor
  · rintro ⟨verdict, hverdict, hvalid⟩
    obtain ⟨errors, herrors, hverdict⟩ := bind_eq_ok.mp hverdict
    cases errors with
    | nil => exact herrors
    | cons e es =>
        cases hverdict
        cases hvalid
  · intro hnone
    refine ⟨.ok [], bind_eq_ok.mpr ⟨[], hnone, rfl⟩, rfl⟩

/-- A model with one input takes a value for it. -/
def InputSpec.Accepts (spec : InputSpec) (v : Value) : Prop :=
  Manifest.Accepts ⟨"", "", "", "", [spec], [], []⟩ [(.text spec.id, v)]

theorem InputSpec.accepts_iff_of_number {spec : InputSpec} {v : Value}
    (hnumber : spec.type = "number") :
    spec.Accepts v ↔ isFiniteNumber v = true := by
  have hfound : Entries.get? [(.text spec.id, v)] spec.id = some v := by
    simp [Entries.get?, Value.text?]
  have htype : InputType.ofName? spec.type = some .number := by
    rw [hnumber]
    rfl
  rw [InputSpec.Accepts, Manifest.accepts_iff, List.forall_mem_singleton]
  simp only [InputSpec.violationIn?, hfound, InputSpec.violation?, htype]
  cases hfinite : isFiniteNumber v with
  | true => simp
  | false =>
      simp only [Bool.false_eq_true, if_false, iff_false]
      intro h
      obtain ⟨text, -, hnone⟩ := map_eq_ok.mp h
      cases hnone

end Model

/-! ## Intake -/

namespace Playbook

/-- The intake of a playbook with one field takes a value for it. -/
def IntakeField.Accepts (field : IntakeField) (v : Value) : Prop :=
  intakeViolations [field] (.map [(.text field.id, v)]) = []

theorem IntakeField.accepts_iff_of_number {field : IntakeField} {v : Value}
    (hnumber : field.type = "number") :
    field.Accepts v ↔ IntakeType.number.admits v = true := by
  have hfound : Entries.get? [(.text field.id, v)] field.id = some v := by
    simp [Entries.get?, Value.text?]
  have htype : IntakeType.ofName? field.type = some .number := by
    rw [hnumber]
    rfl
  simp only [IntakeField.Accepts, intakeViolations, Value.entries?, List.filterMap_cons,
    IntakeField.violationIn?, hfound, IntakeField.violation?, htype]
  cases IntakeType.number.admits v <;> simp

end Playbook

/-! ## References -/

namespace Expression

open Model Playbook

theorem isFiniteNumber_iff {v : Value} :
    isFiniteNumber v = true ↔ ∃ x : Number, x.isFinite = true ∧ v = x.toValue := by
  constructor
  · intro hfinite
    unfold isFiniteNumber at hfinite
    split at hfinite
    next n => exact ⟨.int n, rfl, rfl⟩
    next x => exact ⟨.float x, hfinite, rfl⟩
    next d => exact ⟨.decimal d, hfinite, rfl⟩
    next => cases hfinite
  · rintro ⟨x, hfinite, rfl⟩
    cases x with
    | int n => rfl
    | float x => exact hfinite
    | decimal d => exact hfinite

theorem isFiniteNumber_of_admits {v : Value} (hadmits : IntakeType.number.admits v = true) :
    isFiniteNumber v = true := by
  unfold IntakeType.admits at hadmits
  split at hadmits
  next => rfl
  next => exact hadmits
  all_goals simp_all

/-- The checks of numbers agree.  A reference to what the intake takes for a number has this as its
value; a reference has a value just if a model takes what it points at for a number; and a model
takes every value of an expression for a number. -/
theorem number_checks_agree {field : IntakeField} {spec : InputSpec}
    (hfield : field.type = "number") (hspec : spec.type = "number") (env : Environment) :
    (∀ target v, env.lookup? target = some v →
      (field.Accepts v → ∃ x, (Tree.reference target).evaluate env = .ok x ∧ x.toValue = v) ∧
      ((∃ x, (Tree.reference target).evaluate env = .ok x) ↔ spec.Accepts v)) ∧
    ∀ text x, evaluate env (.text text) = .ok x → spec.Accepts x.toValue := by
  constructor
  · intro target v hlookup
    constructor
    · intro haccepts
      have hadmits := (IntakeField.accepts_iff_of_number hfield).mp haccepts
      obtain ⟨x, hfinite, hv⟩ := isFiniteNumber_iff.mp (isFiniteNumber_of_admits hadmits)
      exact ⟨x, (evaluate_reference_eq_ok hlookup).mpr ⟨hfinite, hv⟩, hv.symm⟩
    · rw [InputSpec.accepts_iff_of_number hspec, isFiniteNumber_iff]
      exact exists_congr fun x => evaluate_reference_eq_ok hlookup
  · intro text x hx
    rw [evaluate_text] at hx
    cases hread : Tree.ofText text with
    | error fault =>
        rw [hread] at hx
        cases hx
    | ok tree =>
        rw [hread] at hx
        have hfinite := (Tree.finite_of_evaluate (Tree.proper_of_ofText hread) hx).1
        exact (InputSpec.accepts_iff_of_number hspec).mpr (isFiniteNumber_iff.mpr ⟨x, hfinite, rfl⟩)

/-- Five passes all checks, and so does a difference. -/
theorem five_checked :
    IntakeField.Accepts ⟨"rate", "number", "", []⟩ (.int 5) ∧
    (∃ x, (Tree.reference ⟨.intake, "rate", some 0⟩).evaluate ⟨[(.text "rate", .int 5)], []⟩ =
      .ok x ∧ x.toValue = .int 5) ∧
    InputSpec.Accepts ⟨"x", "number", "", none, []⟩ (.int 5) ∧
    evaluate ⟨[(.text "rate", .int 5)], []⟩ (.text "7 - 10") = .ok (.int (-3)) ∧
    InputSpec.Accepts ⟨"x", "number", "", none, []⟩ (.int (-3)) := by
  have hfield : (⟨"rate", "number", "", []⟩ : IntakeField).type = "number" := rfl
  have hspec : (⟨"x", "number", "", none, []⟩ : InputSpec).type = "number" := rfl
  have hdifference :
      evaluate ⟨[(.text "rate", .int 5)], []⟩ (.text "7 - 10") = .ok (.int (-3)) := by
    cbv
  have haccepts : IntakeField.Accepts ⟨"rate", "number", "", []⟩ (.int 5) := rfl
  obtain ⟨hreferences, hvalues⟩ :=
    number_checks_agree hfield hspec ⟨[(.text "rate", .int 5)], []⟩
  obtain ⟨hvalue, hinput⟩ := hreferences ⟨.intake, "rate", some 0⟩ (.int 5) rfl
  obtain ⟨x, hx, hfive⟩ := hvalue haccepts
  exact ⟨haccepts, ⟨x, hx, hfive⟩, hinput.mp ⟨x, hx⟩, hdifference, hvalues _ _ hdifference⟩

end Expression

end ModelPlaybook
