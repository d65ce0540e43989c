import ModelPlaybook.Proofs.Playbook.Course
import ModelPlaybook.Proofs.Playbook.Publication
import ModelPlaybook.Proofs.Playbook.StepReferences

/-!
# What later steps find

Steps have different ids, so the outputs that a step publishes are found under its id by every step
that the run gets to after it, and no other outputs are.
-/

namespace ModelPlaybook.Playbook

open ModelPlaybook.Expression

/-- The step ends with outputs, which it publishes. -/
def Step.Succeeds (services : Services) (env : Environment) (step : Step) (outputs : Entries) :
    Prop :=
  ∃ result, step.Records services env result ∧ result.ending.outputs? = some outputs

section

variable {services : Nat → Services} {env met met' : Environment} {steps before after : List Step}
  {results : List StepResult} {i j : Nat} {step later : Step} {outputs : Entries}

theorem passes_append_iff :
    Passes services env (before ++ after) results ↔
      ∃ first others, Passes services env before first ∧
        Passes (fun n => services (n + before.length)) (first.foldl publish env) after others ∧
        results = first ++ others := by
  simp only [passes_iff "", runSteps_append_eq_ok]

theorem Passes.stepIds (hpasses : Passes services env steps results) :
    results.map (·.stepId) = steps.map (·.id) :=
  stepIds_of_runSteps ((passes_iff "").mp hpasses)

theorem Step.Records.stepId {services : Services} {result : StepResult}
    (hrecords : step.Records services env result) :
    result.stepId = step.id :=
  Step.stepId_of_conclude ((Step.records_iff "").mp hrecords)

/-- Among steps that pass, one that ends with outputs is the only one to publish under its id. -/
theorem Passes.stepOutputs?_eq {first : List StepResult}
    (hids : ((before ++ step :: after).map (·.id)).Nodup)
    (hpasses : Passes services env (before ++ step :: after) results)
    (hbefore : Passes services env before first)
    (hsucceeds : step.Succeeds (services before.length) (first.foldl publish env) outputs) :
    (results.foldl publish env).stepOutputs? step.id = some outputs := by
  obtain ⟨result, hrecords, houtputs⟩ := hsucceeds
  obtain ⟨first', others, hfirst, hothers, rfl⟩ := passes_append_iff.mp hpasses
  obtain rfl := hbefore.unique hfirst
  cases hothers with
  | @cons _ _ _ _ result' behind hrecords' hbehind =>
      simp only [Nat.zero_add] at hrecords'
      obtain rfl := hrecords.unique hrecords'
      -- What comes behind are results of steps with other ids.
      have hne : ∀ other ∈ behind, other.stepId ≠ step.id := by
        intro other hother hsame
        have hmem : step.id ∈ after.map (·.id) := by
          rw [← hbehind.stepIds, ← hsame]
          exact List.mem_map_of_mem hother
        rw [List.map_append, List.map_cons] at hids
        have hnodup := (List.nodup_append.mp hids).2.1
        exact (List.nodup_cons.mp hnodup).1 hmem
      rw [List.foldl_append, List.foldl_cons, stepOutputs?_foldl_publish_of_ne hne,
        ← hrecords.stepId, stepOutputs?_publish_self, houtputs, Option.some_or]

theorem take_eq_append_of_lt (hstep : steps[i]? = some step) (hij : i < j) :
    ∃ after, steps.take j = steps.take i ++ step :: after := by
  obtain ⟨hi, rfl⟩ := List.getElem?_eq_some_iff.mp hstep
  have hi' : i < (steps.take j).length := by
    rw [List.length_take]
    omega
  have hhere : (steps.take j)[i] = steps[i] := List.getElem_take
  have hbefore : (steps.take j).take i = steps.take i := by
    rw [List.take_take, Nat.min_eq_left (Nat.le_of_lt hij)]
  refine ⟨(steps.take j).drop (i + 1), ?_⟩
  rw [← hbefore, ← hhere, List.getElem_cons_drop, List.take_append_drop]

/-- The outputs that a step publishes are found under its id by every step after it. -/
theorem Meets.stepOutputs?_eq (hids : (steps.map (·.id)).Nodup)
    (hmeets : Meets services env steps i step met)
    (hsucceeds : step.Succeeds (services i) met outputs)
    (hlater : Meets services env steps j later met') (hij : i < j) :
    met'.stepOutputs? step.id = some outputs := by
  obtain ⟨hstep, first, hfirst, rfl⟩ := hmeets
  obtain ⟨-, results, hresults, rfl⟩ := hlater
  obtain ⟨after, htake⟩ := take_eq_append_of_lt hstep hij
  have hnodup : ((steps.take j).map (·.id)).Nodup :=
    hids.sublist ((List.take_sublist j steps).map _)
  have hlength : (steps.take i).length = i := by
    have hi := (List.getElem?_eq_some_iff.mp hstep).1
    rw [List.length_take]
    omega
  rw [htake] at hresults hnodup
  have hsucceeds' : step.Succeeds (services (steps.take i).length) (first.foldl publish env)
      outputs := by
    rw [hlength]
    exact hsucceeds
  exact hresults.stepOutputs?_eq hnodup hfirst hsucceeds'

end

theorem lookup_of_stepOutputs? {env : Environment} {r : Reference} {id output : String}
    {outputs : Entries} {v : Value} (hscope : r.scope = .steps)
    (hname : splitAtPoint r.name = (id, output)) (hstep : env.stepOutputs? id = some outputs)
    (hfound : outputs.get? output = some v) :
    env.lookup r = .ok v := by
  simp only [Environment.lookup, Environment.lookup?, hscope, hname, hstep, Option.bind_some,
    hfound]

/-! ## Playbooks -/

/-- A run gets to a step in an environment, and an earlier step of it has published outputs. -/
structure Published (services : Nat → Services) (p : Playbook) (intake : Value) (i : Nat)
    (earlier : Step) (outputs : Entries) (later : Step) (met : Environment) : Prop where
  earlier : ∃ met₀, p.Reaches services intake i earlier met₀ ∧
    earlier.Succeeds (services i) met₀ outputs
  later : ∃ j, i < j ∧ p.Reaches services intake j later met

section

variable {services : Nat → Services} {p : Playbook} {intake : Value} {i : Nat}
  {earlier later : Step} {outputs : Entries} {met : Environment}

theorem Published.stepOutputs?_eq
    (hpublished : p.Published services intake i earlier outputs later met)
    (hids : (p.steps.map (·.id)).Nodup) :
    met.stepOutputs? earlier.id = some outputs := by
  obtain ⟨met₀, hearlier, hsucceeds⟩ := hpublished.earlier
  obtain ⟨j, hij, hlater⟩ := hpublished.later
  exact hearlier.2.stepOutputs?_eq hids hsucceeds hlater.2 hij

/-- A text that refers to an output of an earlier step resolves to what this step has published. -/
theorem Published.resolveInput_eq
    (hpublished : p.Published services intake i earlier outputs later met)
    (hids : (p.steps.map (·.id)).Nodup) {output s : String} {v : Value} {r : Reference}
    (hfound : outputs.get? output = some v) (hopens : opensReference s = true)
    (hread : referenceOfText s = .ok r) (hpath : r.path = "steps." ++ earlier.id ++ "." ++ output) :
    resolveInput met (StepInput.text s).toValue = .ok v := by
  have hstep := hpublished.stepOutputs?_eq hids
  obtain ⟨hscope, hname⟩ := (writable_of_referenceOfText hread).path_eq_steps_iff.mp hpath
  simp only [StepInput.toValue, resolveInput, hopens, if_true, hread]
  exact lookup_of_stepOutputs? hscope hname hstep hfound

end

end ModelPlaybook.Playbook
