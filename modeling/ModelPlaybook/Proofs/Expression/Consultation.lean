import ModelPlaybook.Expression.Condition
import ModelPlaybook.Proofs.Failing

/-!
# What a computation looks at

The value of an expression or a condition depends on an environment through its references alone.
All of them are looked up: none may be without a value when the computation succeeds, and a failure
that blames a field blames one of them.  Such computations are closed under sequencing, so that
every tree has this property by induction.
-/

namespace ModelPlaybook.Expression

/-- Where a failure can come from: texts with the given faults, a reference that has no value, or
the values themselves. -/
def Failure.ArisesFrom (env : Environment) (faults : List SyntaxFault)
    (references : List Reference) : Failure → Prop
  | malformed cause => cause ∈ faults
  | unknownField path position =>
    ∃ r ∈ references, env.lookup? r = none ∧ r.path = path ∧ r.position = position
  | evaluation _ => True
  | contract _ => True
  | fault _ => True

theorem Failure.ArisesFrom.mono {env : Environment} {faults faults' : List SyntaxFault}
    {references references' : List Reference} {failure : Failure}
    (hfaults : faults ⊆ faults') (hreferences : references ⊆ references')
    (hfailure : failure.ArisesFrom env faults references) :
    failure.ArisesFrom env faults' references' := by
  cases failure with
  | malformed cause =>
      exact hfaults hfailure
  | unknownField path position =>
      obtain ⟨r, hr, hlookup⟩ := hfailure
      exact ⟨r, hreferences hr, hlookup⟩
  | evaluation cause => trivial
  | contract message => trivial
  | fault f => trivial

/-- A computation over texts with the given faults looks at an environment through the given
references. -/
structure Consults {α : Type} (faults : List SyntaxFault) (references : List Reference)
    (compute : Environment → Except Failure α) : Prop where
  agrees : ∀ {env env' : Environment},
    (∀ r ∈ references, env.lookup? r = env'.lookup? r) → compute env = compute env'
  needs : ∀ {env : Environment} {a : α}, compute env = .ok a →
    faults = [] ∧ ∀ r ∈ references, ∃ v, env.lookup? r = some v
  fails : ∀ {env : Environment} {failure : Failure}, compute env = .error failure →
    failure.ArisesFrom env faults references

namespace Consults

variable {α β : Type}

theorem const {x : Except Failure α}
    (hfails : ∀ env failure, x = .error failure → failure.ArisesFrom env [] []) :
    Consults [] [] fun _ => x where
  agrees _ := rfl
  needs _ := ⟨rfl, by simp⟩
  fails h := hfails _ _ h

theorem ok (a : α) : Consults [] [] fun _ => (.ok a : Except Failure α) := by
  refine const ?_
  rintro env failure ⟨⟩

theorem malformed (fault : SyntaxFault) :
    Consults [fault] [] fun _ => (.error (.malformed fault) : Except Failure α) where
  agrees _ := rfl
  needs h := nomatch h
  fails h := by
    cases h
    exact List.mem_singleton_self fault

theorem lookup (r : Reference) : Consults [] [r] fun env => env.lookup r where
  agrees h := by
    simp only [Environment.lookup, h r (List.mem_singleton_self r)]
  needs := by
    intro env v h
    refine ⟨rfl, ?_⟩
    unfold Environment.lookup at h
    split at h
    next w hw =>
      simp [hw]
    next => cases h
  fails := by
    intro env failure h
    unfold Environment.lookup at h
    split at h
    next => cases h
    next hnone =>
      cases h
      exact ⟨r, List.mem_singleton_self r, hnone, rfl, rfl⟩

/-- A computation that goes on with the result of another one consults the references of both. -/
theorem bind {faults faults' : List SyntaxFault} {references references' : List Reference}
    {first : Environment → Except Failure α} {next : α → Environment → Except Failure β}
    (hfirst : Consults faults references first)
    (hnext : ∀ a, Consults faults' references' (next a)) :
    Consults (faults ++ faults') (references ++ references')
      fun env => first env >>= fun a => next a env where
  agrees := by
    intro env env' hlookup
    have hsame : first env = first env' :=
      hfirst.agrees fun r hr => hlookup r (List.mem_append_left _ hr)
    have hsameNext : ∀ a, next a env = next a env' := fun a =>
      (hnext a).agrees fun r hr => hlookup r (List.mem_append_right _ hr)
    simp only [hsame, hsameNext]
  needs := by
    intro env b hb
    obtain ⟨a, ha, hb⟩ := bind_eq_ok.mp hb
    obtain ⟨hnone, hvalues⟩ := hfirst.needs ha
    obtain ⟨hnone', hvalues'⟩ := (hnext a).needs hb
    refine ⟨by simp [hnone, hnone'], fun r hr => ?_⟩
    rcases List.mem_append.mp hr with hr | hr
    · exact hvalues r hr
    · exact hvalues' r hr
  fails := by
    intro env failure hfailure
    rcases bind_eq_error.mp hfailure with hfailure | ⟨a, ha, hfailure⟩
    · exact (hfirst.fails hfailure).mono (List.subset_append_left _ _)
        (List.subset_append_left _ _)
    · exact ((hnext a).fails hfailure).mono (List.subset_append_right _ _)
        (List.subset_append_right _ _)

/-- Working on with the value of a computation needs no further reference. -/
theorem andThen {faults : List SyntaxFault} {references : List Reference}
    {first : Environment → Except Failure α} {next : α → Except Failure β}
    (hfirst : Consults faults references first)
    (hnext : ∀ a env failure, next a = .error failure → failure.ArisesFrom env [] []) :
    Consults faults references fun env => first env >>= next := by
  simpa using hfirst.bind fun a => const (hnext a)

end Consults

/-! ## Trees -/

theorem computed_error {α : Type} {r : Except Fault α} {failure : Failure}
    (h : computed r = .error failure) : ∃ cause, failure = .evaluation cause := by
  cases r with
  | ok a => cases h
  | error fault =>
      cases h
      exact ⟨_, rfl⟩

theorem Operator.compute_error {operator : Operator} {x y : Number} {failure : Failure}
    (h : operator.compute x y = .error failure) : ∃ cause, failure = .evaluation cause := by
  cases operator with
  | plus => exact computed_error h
  | minus => exact computed_error h
  | times => exact computed_error h
  | divide =>
      rcases bind_eq_error.mp h with h | ⟨isZero, -, h⟩
      · exact computed_error h
      · split at h
        · cases h
          exact ⟨_, rfl⟩
        · exact computed_error h
  | other symbol =>
      cases h
      exact ⟨_, rfl⟩

theorem Operator.apply_error {operator : Operator} {x y : Number} {failure : Failure}
    (h : operator.apply x y = .error failure) : ∃ cause, failure = .evaluation cause := by
  rcases bind_eq_error.mp h with h | ⟨result, -, h⟩
  · exact Operator.compute_error h
  · split at h
    · cases h
    · cases h
      exact ⟨_, rfl⟩

theorem Tree.consults (tree : Tree) : Consults [] tree.references fun env => tree.evaluate env := by
  induction tree with
  | number value =>
      exact Consults.ok _
  | reference target =>
      refine (Consults.lookup target).andThen fun v env failure h => ?_
      split at h
      · cases h
      · cases h
        trivial
  | negate operand ih =>
      refine ih.andThen fun x env failure h => ?_
      split at h
      · cases h
      · cases h
        trivial
  | binary operator left right ihleft ihright =>
      refine ihleft.bind fun x => ihright.andThen fun y env failure h => ?_
      obtain ⟨cause, rfl⟩ := Operator.apply_error h
      trivial
  | misplaced typeName =>
      refine Consults.const fun env failure h => ?_
      cases h
      trivial

/-! ## Conditions -/

/-- The reference that an operand is. -/
def Operand.references : Operand → List Reference
  | number _ => []
  | reference target => [target]

theorem Condition.references_eq (c : Condition) :
    c.references = c.left.references ++ c.right.references := by
  obtain ⟨left, comparator, right⟩ := c
  cases left <;> cases right <;> rfl

theorem Operand.consults (operand : Operand) :
    Consults [] operand.references fun env => operand.value env := by
  cases operand with
  | number value => exact Consults.ok _
  | reference target => exact Consults.lookup target

theorem escaping_error {α : Type} {r : Except Fault α} {failure : Failure}
    (h : escaping r = .error failure) : ∃ f, failure = .fault f := by
  cases r with
  | ok a => cases h
  | error f =>
      cases h
      exact ⟨f, rfl⟩

theorem arisesFrom_of_compareStrictly {c : Comparator} {x y : Value} {failure : Failure}
    (h : compareStrictly c x y = .error failure) (env : Environment) :
    failure.ArisesFrom env [] [] := by
  unfold compareStrictly at h
  split at h
  · obtain ⟨f, rfl⟩ := escaping_error h
    trivial
  · split at h
    · simp only at h
      split at h
      · rcases bind_eq_error.mp h with h | ⟨same, -, h⟩
        · obtain ⟨f, rfl⟩ := escaping_error h
          trivial
        · cases h
      · cases h
    · cases h
      trivial

theorem Condition.consults (c : Condition) :
    Consults [] c.references fun env => c.evaluate env := by
  rw [c.references_eq]
  refine c.left.consults.bind fun x => c.right.consults.andThen fun y env failure h => ?_
  exact arisesFrom_of_compareStrictly h env

end ModelPlaybook.Expression
