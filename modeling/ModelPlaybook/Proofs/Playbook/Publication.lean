import ModelPlaybook.Playbook.Run

/-!
# Published outputs

What steps publish is found again under their ids, and a step that ends without outputs changes
nothing.  Publishing the same result keeps two environments equal wherever they were.
-/

namespace ModelPlaybook.Playbook

open ModelPlaybook.Expression

/-! ## One result -/

@[simp] theorem intake_publish (env : Environment) (result : StepResult) :
    (publish env result).intake = env.intake := by
  unfold publish
  cases result.ending <;> rfl

theorem publish_of_outputs?_eq_none {result : StepResult} (hnone : result.ending.outputs? = none)
    (env : Environment) :
    publish env result = env := by
  unfold publish
  cases hending : result.ending with
  | succeeded outputs version => simp [hending, Ending.outputs?] at hnone
  | failed error code => rfl
  | skipped reason => rfl

theorem stepOutputs?_publish_of_ne {result : StepResult} {id : String} (hne : result.stepId ≠ id)
    (env : Environment) :
    (publish env result).stepOutputs? id = env.stepOutputs? id := by
  unfold publish
  cases result.ending with
  | succeeded outputs version =>
      have hothers : (env.outputs.filter (·.1 != result.stepId)).find? (·.1 == id) =
          env.outputs.find? (·.1 == id) := by
        rw [List.find?_filter]
        congr 1
        funext entry
        by_cases hentry : entry.1 = id
        · simp [hentry, hne.symm]
        · simp [hentry]
      simp only [Environment.stepOutputs?, List.find?_cons_of_neg, beq_iff_eq, hne,
        not_false_eq_true, hothers]
  | failed error code => rfl
  | skipped reason => rfl

theorem stepOutputs?_publish_self (result : StepResult) (env : Environment) :
    (publish env result).stepOutputs? result.stepId =
      result.ending.outputs?.or (env.stepOutputs? result.stepId) := by
  cases hending : result.ending with
  | succeeded outputs version =>
      simp [publish, hending, Environment.stepOutputs?, Ending.outputs?]
  | failed error code => simp [publish, hending, Ending.outputs?]
  | skipped reason => simp [publish, hending, Ending.outputs?]

/-- A reference to no output of a step sees the same after the step. -/
theorem lookup?_publish_of_ne {result : StepResult} {r : Reference} (env : Environment)
    (hne : r.scope = .steps → result.stepId ≠ (splitAtPoint r.name).1) :
    (publish env result).lookup? r = env.lookup? r := by
  unfold Environment.lookup?
  cases hscope : r.scope with
  | intake => simp
  | steps => simp [stepOutputs?_publish_of_ne (hne hscope)]
  | other name => rfl

/-- A reference that sees the same in two environments does so after the same step. -/
theorem lookup?_publish_congr {env env' : Environment} {r : Reference}
    (hlookup : env.lookup? r = env'.lookup? r) (result : StepResult) :
    (publish env result).lookup? r = (publish env' result).lookup? r := by
  cases houtputs : result.ending.outputs? with
  | none =>
      rw [publish_of_outputs?_eq_none houtputs, publish_of_outputs?_eq_none houtputs, hlookup]
  | some outputs =>
      by_cases hpoints : r.scope = .steps ∧ result.stepId = (splitAtPoint r.name).1
      · obtain ⟨hscope, hid⟩ := hpoints
        simp [Environment.lookup?, hscope, ← hid, stepOutputs?_publish_self, houtputs]
      · have hne : r.scope = .steps → result.stepId ≠ (splitAtPoint r.name).1 :=
          fun hscope hid => hpoints ⟨hscope, hid⟩
        rw [lookup?_publish_of_ne env hne, lookup?_publish_of_ne env' hne, hlookup]

/-! ## Several results -/

@[simp] theorem intake_foldl_publish (results : List StepResult) (env : Environment) :
    (results.foldl publish env).intake = env.intake := by
  induction results generalizing env with
  | nil => rfl
  | cons result results ih => simp [ih]

/-- What is found under an id has been there or was published by a result with this id. -/
theorem stepOutputs?_foldl_publish {results : List StepResult} {env : Environment} {id : String}
    {outputs : Entries} (hfound : (results.foldl publish env).stepOutputs? id = some outputs) :
    env.stepOutputs? id = some outputs ∨
      ∃ result ∈ results, result.stepId = id ∧ result.ending.outputs? = some outputs := by
  induction results generalizing env with
  | nil => exact .inl hfound
  | cons result results ih =>
      rcases ih hfound with hfound | ⟨later, hlater, hid, houtputs⟩
      · by_cases hid : result.stepId = id
        · subst hid
          rw [stepOutputs?_publish_self, Option.or_eq_some_iff] at hfound
          rcases hfound with houtputs | ⟨-, hfound⟩
          · exact .inr ⟨result, List.mem_cons_self, rfl, houtputs⟩
          · exact .inl hfound
        · rw [stepOutputs?_publish_of_ne hid] at hfound
          exact .inl hfound
      · exact .inr ⟨later, List.mem_cons_of_mem _ hlater, hid, houtputs⟩

/-- Results with other ids leave alone what is found under an id. -/
theorem stepOutputs?_foldl_publish_of_ne {results : List StepResult} {id : String}
    (hne : ∀ result ∈ results, result.stepId ≠ id) (env : Environment) :
    (results.foldl publish env).stepOutputs? id = env.stepOutputs? id := by
  induction results generalizing env with
  | nil => rfl
  | cons result results ih =>
      obtain ⟨hfirst, hrest⟩ := List.forall_mem_cons.mp hne
      rw [List.foldl_cons, ih hrest, stepOutputs?_publish_of_ne hfirst]

/-- Where nothing is found under an id, nothing has been published under it. -/
theorem stepOutputs?_foldl_publish_eq_none {results : List StepResult} {env : Environment}
    {id : String} (hnone : (results.foldl publish env).stepOutputs? id = none) :
    env.stepOutputs? id = none ∧
      ∀ result ∈ results, result.stepId = id → result.ending.outputs? = none := by
  induction results generalizing env with
  | nil => exact ⟨hnone, by simp⟩
  | cons result results ih =>
      obtain ⟨hpublished, hlater⟩ := ih hnone
      by_cases hid : result.stepId = id
      · subst hid
        rw [stepOutputs?_publish_self, Option.or_eq_none_iff] at hpublished
        refine ⟨hpublished.2, fun other hother => ?_⟩
        rcases List.mem_cons.mp hother with rfl | hother
        · exact fun _ => hpublished.1
        · exact hlater other hother
      · rw [stepOutputs?_publish_of_ne hid] at hpublished
        refine ⟨hpublished, fun other hother => ?_⟩
        rcases List.mem_cons.mp hother with rfl | hother
        · exact fun hid' => absurd hid' hid
        · exact hlater other hother

end ModelPlaybook.Playbook
