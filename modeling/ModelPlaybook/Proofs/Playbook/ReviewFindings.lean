import ModelPlaybook.Proofs.Playbook.StepReferences

/-!
# What a review reports

A review gives no error for a step exactly when all parts of the step can be read and all its
references to steps name earlier ones, and no warning exactly when all other references name
declared fields.  Every error tells by its first words which step it is about.
-/

namespace ModelPlaybook.Playbook

open ModelPlaybook.Expression

/-! ## Collecting findings -/

@[simp] theorem errors_append (a b : Findings) : (a ++ b).errors = a.errors ++ b.errors := rfl

@[simp] theorem warnings_append (a b : Findings) :
    (a ++ b).warnings = a.warnings ++ b.warnings := rfl

theorem foldl_append_findings {α : Type} (f : α → Findings) (items : List α) (start : Findings) :
    items.foldl (fun found a => found ++ f a) start =
      ⟨start.errors ++ items.flatMap fun a => (f a).errors,
        start.warnings ++ items.flatMap fun a => (f a).warnings⟩ := by
  induction items generalizing start with
  | nil => simp
  | cons a items ih => simp [ih]

/-! ## One step -/

/-- The parts of a step, each after the words that introduce its fault. -/
def Step.parts (index : Nat) (step : Step) :
    List (String × Except SyntaxFault (List Reference)) :=
  step.condition.toList.map
      (fun c => (step.place index ++ ": invalid condition: ", c.references)) ++
    step.inputs.map
      fun (key, input) => (step.place index ++ ": input '" ++ key ++ "': ", input.references)

theorem Step.readings_eq_parts (index : Nat) (step : Step) :
    step.readings = (step.parts index).map (·.2) := by
  simp [Step.readings, Step.parts, Function.comp_def]

theorem readReferences_eq (complaint : String) (reading : Except SyntaxFault (List Reference)) :
    readReferences complaint reading =
      (⟨(faultsRead reading).map fun fault => complaint ++ fault.message, []⟩,
        referencesRead reading) := by
  cases reading <;> rfl

theorem reviewStep_eq_foldl (declared earlier : List String) (index : Nat) (step : Step) :
    reviewStep declared earlier index step =
      let parts := (step.parts index).map fun part => readReferences part.1 part.2
      (parts.flatMap (·.2)).foldl
        (fun found r => found ++ reviewReference (step.place index) declared earlier r)
        (parts.foldl (fun found part => found ++ part.1) .none) := by
  unfold reviewStep
  cases hcondition : step.condition <;> simp [Step.parts, hcondition, Function.comp_def]

theorem reviewStep_eq (declared earlier : List String) (index : Nat) (step : Step) :
    reviewStep declared earlier index step =
      ⟨(step.parts index).flatMap (fun part =>
            (faultsRead part.2).map fun fault => part.1 ++ fault.message) ++
          step.references.flatMap fun r =>
            (reviewReference (step.place index) declared earlier r).errors,
        step.references.flatMap fun r =>
          (reviewReference (step.place index) declared earlier r).warnings⟩ := by
  have hreferences : ((step.parts index).map fun part =>
      readReferences part.1 part.2).flatMap (·.2) = step.references := by
    rw [Step.references, step.readings_eq_parts index, List.flatMap_map, List.flatMap_map]
    simp only [readReferences_eq]
  rw [reviewStep_eq_foldl]
  simp only [hreferences, foldl_append_findings]
  simp [readReferences_eq, Findings.none, List.flatMap_map]

theorem errors_reviewReference (place : String) (declared earlier : List String) (r : Reference) :
    (reviewReference place declared earlier r).errors =
      if r.scope = .steps ∧ (splitAtPoint r.name).1 ∉ earlier then
        [place ++ ": reference to '" ++ r.path ++ "' does not name an earlier step"]
      else [] := by
  unfold reviewReference
  by_cases hscope : r.scope = .steps
  · by_cases hearlier : (splitAtPoint r.name).1 ∈ earlier
    · simp [hscope, hearlier, Findings.none]
    · simp [hscope, hearlier, Findings.error]
  · simp only [hscope, if_false, false_and]
    split <;> rfl

theorem warnings_reviewReference_eq_nil {place : String} {declared earlier : List String}
    {r : Reference} (hwarnings : (reviewReference place declared earlier r).warnings = [])
    (hscope : r.scope ≠ .steps) :
    declared = [] ∨ r.name ∈ declared := by
  unfold reviewReference at hwarnings
  rw [if_neg hscope] at hwarnings
  split at hwarnings
  next hknown => simpa using hknown
  next => cases hwarnings

theorem errors_reviewStep_eq_nil_iff {declared earlier : List String} {index : Nat} {step : Step} :
    (reviewStep declared earlier index step).errors = [] ↔
      step.faults = [] ∧
        ∀ r ∈ step.references, r.scope = .steps → (splitAtPoint r.name).1 ∈ earlier := by
  have hfaults : step.faults = [] ↔
      ∀ part ∈ step.parts index, faultsRead part.2 = [] := by
    rw [Step.faults, step.readings_eq_parts index]
    simp only [List.flatMap_map, List.flatMap_eq_nil_iff]
  rw [hfaults, reviewStep_eq]
  simp only [errors_reviewReference, List.append_eq_nil_iff, List.flatMap_eq_nil_iff,
    List.map_eq_nil_iff]
  refine and_congr_right fun _ => forall_congr' fun r => forall_congr' fun _ => ?_
  by_cases hscope : r.scope = .steps <;> by_cases hearlier : (splitAtPoint r.name).1 ∈ earlier <;>
    simp [hscope, hearlier]

/-- Errors about a step begin with its place. -/
theorem exists_place_of_mem_errors {declared earlier : List String} {index : Nat} {step : Step}
    {text : String} (htext : text ∈ (reviewStep declared earlier index step).errors) :
    ∃ rest, text = step.place index ++ rest := by
  rw [reviewStep_eq] at htext
  rcases List.mem_append.mp htext with htext | htext
  · obtain ⟨part, hpart, htext⟩ := List.mem_flatMap.mp htext
    obtain ⟨fault, -, rfl⟩ := List.mem_map.mp htext
    rcases List.mem_append.mp hpart with hpart | hpart
    · obtain ⟨c, -, rfl⟩ := List.mem_map.mp hpart
      exact ⟨_, String.append_assoc⟩
    · obtain ⟨entry, -, rfl⟩ := List.mem_map.mp hpart
      simp only [String.append_assoc]
      exact ⟨_, rfl⟩
  · obtain ⟨r, -, htext⟩ := List.mem_flatMap.mp htext
    rw [errors_reviewReference] at htext
    split at htext
    · rw [List.mem_singleton.mp htext]
      simp only [String.append_assoc]
      exact ⟨_, rfl⟩
    · cases htext

/-! ## All steps -/

/-- The findings on the step at an index of a playbook. -/
def findingsAt (p : Playbook) (i : Nat) (step : Step) : Findings :=
  reviewStep (p.intakeFields.map (·.id)) ((p.steps.take i).reverse.map (·.id)) i step

/-- A review of steps collects the findings on each of them. -/
theorem mem_reviewSteps (select : Findings → List String) (hnone : select .none = [])
    (happend : ∀ a b, select (a ++ b) = select a ++ select b) (declared earlier : List String)
    (index : Nat) (steps : List Step) (text : String) :
    text ∈ select (reviewSteps declared earlier index steps) ↔
      ∃ i step, steps[i]? = some step ∧
        text ∈ select (reviewStep declared ((steps.take i).reverse.map (·.id) ++ earlier)
          (index + i) step) := by
  induction steps generalizing earlier index with
  | nil => simp [reviewSteps, hnone]
  | cons first steps ih =>
      rw [reviewSteps, happend, List.mem_append, ih]
      constructor
      · rintro (hfirst | ⟨i, step, hstep, htext⟩)
        · exact ⟨0, first, rfl, hfirst⟩
        · exact ⟨i + 1, step, hstep, by simpa [Nat.add_assoc, Nat.add_comm 1] using htext⟩
      · rintro ⟨i, step, hstep, htext⟩
        cases i with
        | zero =>
            cases hstep
            exact .inl htext
        | succ i =>
            exact .inr ⟨i, step, hstep, by simpa [Nat.add_assoc, Nat.add_comm 1] using htext⟩

theorem mem_errors_review {p : Playbook} {text : String} :
    text ∈ (review p).errors ↔
      ∃ i step, p.steps[i]? = some step ∧ text ∈ (p.findingsAt i step).errors := by
  have hmem := mem_reviewSteps Findings.errors rfl errors_append
    (p.intakeFields.map (·.id)) [] 0 p.steps text
  simpa [review, findingsAt] using hmem

theorem mem_warnings_review {p : Playbook} {text : String} :
    text ∈ (review p).warnings ↔
      ∃ i step, p.steps[i]? = some step ∧ text ∈ (p.findingsAt i step).warnings := by
  have hmem := mem_reviewSteps Findings.warnings rfl warnings_append
    (p.intakeFields.map (·.id)) [] 0 p.steps text
  simpa [review, findingsAt] using hmem

end ModelPlaybook.Playbook
