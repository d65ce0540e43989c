import ModelPlaybook.Proofs.Expression.Containment
import ModelPlaybook.Proofs.Playbook.Publication
import ModelPlaybook.Proofs.Playbook.StepReferences
import ModelPlaybook.Proofs.Sandbox.Plain

/-!
# The inputs of steps

Inputs are literals, computed numbers, and what references find.  So they are plain if everything
that a reference can find is plain, which publishing plain outputs does not change.  A step that is
read from a playbook can fail to get its inputs, but it breaks no contract.
-/

namespace ModelPlaybook.Playbook

open ModelPlaybook.Expression

/-! ## What references can find -/

/-- Everything that a reference can find is plain. -/
def FindsPlain (env : Environment) : Prop :=
  ∀ r v, env.lookup? r = some v → v.IsPlain

theorem findsPlain_intake {intake : Entries} (hintake : ∀ entry ∈ intake, entry.2.IsPlain) :
    FindsPlain ⟨intake, []⟩ := by
  intro r v hfound
  unfold Environment.lookup? at hfound
  split at hfound
  · obtain ⟨entry, hentry, rfl⟩ := Option.map_eq_some_iff.mp hfound
    exact hintake entry (List.mem_of_find?_eq_some hentry)
  · simp [Environment.stepOutputs?] at hfound
  · cases hfound

theorem findsPlain_publish {env : Environment} {result : StepResult} (henv : FindsPlain env)
    (houtputs : ∀ outputs, result.ending.outputs? = some outputs → outputs.IsPlain) :
    FindsPlain (publish env result) := by
  cases hending : result.ending.outputs? with
  | none =>
      rw [publish_of_outputs?_eq_none hending]
      exact henv
  | some outputs =>
      intro r v hfound
      -- A reference finds one of the new outputs, or what it has found before.
      by_cases hpoints : r.scope = .steps ∧ result.stepId = (splitAtPoint r.name).1
      · obtain ⟨hscope, hid⟩ := hpoints
        simp only [Environment.lookup?, hscope, ← hid, stepOutputs?_publish_self, hending]
          at hfound
        exact (houtputs outputs hending).get? hfound
      · rw [lookup?_publish_of_ne env fun hscope hid => hpoints ⟨hscope, hid⟩] at hfound
        exact henv r v hfound

/-! ## Single inputs -/

section

variable {env : Environment}

theorem StepInput.isPlain_of_resolveInput (henv : FindsPlain env) {input : StepInput} {v : Value}
    (hv : resolveInput env input.toValue = .ok v) :
    v.IsPlain := by
  cases input with
  | derived expression =>
      obtain ⟨x, -, hx⟩ := bind_eq_ok.mp hv
      cases hx
      cases x <;> exact .scalar _
  | text s =>
      simp only [StepInput.toValue, resolveInput] at hv
      split at hv
      · split at hv
        next target _ =>
          obtain ⟨-, hvalues⟩ := (Consults.lookup target).needs hv
          obtain ⟨w, hw⟩ := hvalues target (List.mem_singleton_self target)
          simp only [Environment.lookup, hw] at hv
          cases hv
          exact henv target v hw
        next => cases hv
      · cases hv
        exact .scalar _
  | none | bool b | int n | float x =>
      cases hv
      exact .scalar _

theorem StepInput.keepsContract (env : Environment) (input : StepInput) :
    KeepsContract (resolveInput env input.toValue) := by
  cases input with
  | derived expression =>
      exact (keepsContract_evaluate env expression).bind fun x => .ok _
  | text s =>
      simp only [StepInput.toValue, resolveInput]
      split
      · split
        · exact keepsContract_lookup env _
        · exact .error rfl
      · exact .ok _
  | none | bool b | int n | float x => exact .ok _

/-! ## Steps -/

theorem isPlain_of_resolveEntries (henv : FindsPlain env) {inputs : List (String × StepInput)}
    {resolved : Entries}
    (hresolved : resolveEntries env (inputs.map fun (key, input) => (.text key, input.toValue)) =
      .ok resolved) :
    resolved.IsPlain := by
  induction inputs generalizing resolved with
  | nil =>
      cases hresolved
      exact .nil
  | cons entry inputs ih =>
      obtain ⟨key, input⟩ := entry
      simp only [resolveEntries, List.map_cons, List.mapM_cons] at hresolved
      obtain ⟨first, hfirst, hresolved⟩ := bind_eq_ok.mp hresolved
      obtain ⟨v, hv, hfirst⟩ := bind_eq_ok.mp hfirst
      obtain ⟨rest, hrest, hresolved⟩ := bind_eq_ok.mp hresolved
      cases hfirst
      cases hresolved
      exact (ih hrest).cons (StepInput.isPlain_of_resolveInput henv hv)

theorem keepsContract_resolveEntries (env : Environment) (inputs : List (String × StepInput)) :
    KeepsContract
      (resolveEntries env (inputs.map fun (key, input) => (.text key, input.toValue))) := by
  induction inputs with
  | nil => exact .ok _
  | cons entry inputs ih =>
      obtain ⟨key, input⟩ := entry
      simp only [resolveEntries, List.map_cons, List.mapM_cons]
      have hentry : KeepsContract (do pure (Value.text key, ← resolveInput env input.toValue)) :=
        (input.keepsContract env).bind fun v => .ok _
      exact hentry.bind fun first => ih.bind fun rest => .ok _

theorem keepsContract_mapError {α : Type} {x : Except Failure α} (hx : KeepsContract x) :
    Error.KeepsContract (x.mapError Error.ofFailure) := by
  refine FailsOnly.mapError fun failure hfailure => ?_
  exact (Error.isContract_ofFailure failure).trans (hx failure hfailure)

theorem Step.keepsContract_isDue (env : Environment) (step : Step) :
    Error.KeepsContract (step.isDue env) := by
  rw [step.isDue_eq]
  refine keepsContract_mapError ?_
  unfold Step.due
  split
  · exact .ok _
  · exact keepsContract_holds env _

theorem Step.keepsContract_resolve (env : Environment) (step : Step) :
    Error.KeepsContract (step.resolve env) := by
  rw [step.resolve_eq]
  exact keepsContract_mapError (keepsContract_resolveEntries env step.inputs)

/-- A step gets plain inputs where references find plain values only. -/
theorem Step.isPlain_of_resolve (henv : FindsPlain env) {step : Step} {inputs : Entries}
    (hinputs : step.resolve env = .ok inputs) :
    inputs.IsPlain := by
  rw [step.resolve_eq] at hinputs
  exact isPlain_of_resolveEntries henv (mapError_eq_ok.mp hinputs)

end

end ModelPlaybook.Playbook
