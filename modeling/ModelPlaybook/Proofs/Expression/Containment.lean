import ModelPlaybook.Error
import ModelPlaybook.Proofs.Expression.Consultation
import ModelPlaybook.Proofs.Expression.Reader

/-!
# Evaluation keeps contracts

Only something that is no part of an expression breaks a contract when it is evaluated.  A text that
can be read writes no such thing, so the expressions and conditions that texts write fail in other
ways only.
-/

namespace ModelPlaybook

/-- Whether a failure is a broken contract. -/
def Expression.Failure.isContract : Expression.Failure → Bool
  | contract _ => true
  | _ => false

theorem Error.isContract_ofFailure (failure : Expression.Failure) :
    (Error.ofFailure failure).isContract = failure.isContract := by
  cases failure <;> rfl

/-- A computation that does not fail for a broken contract. -/
abbrev Error.KeepsContract {α : Type} (x : Except Error α) : Prop :=
  FailsOnly (fun e => e.isContract = false) x

namespace Expression

/-- An evaluation that does not fail for a broken contract. -/
abbrev KeepsContract {α : Type} (x : Except Failure α) : Prop :=
  FailsOnly (fun failure => failure.isContract = false) x

theorem keepsContract_lookup (env : Environment) (r : Reference) :
    KeepsContract (env.lookup r) := by
  unfold Environment.lookup
  split
  · exact .ok _
  · exact .error rfl

theorem keepsContract_escaping {α : Type} (r : Except Fault α) : KeepsContract (escaping r) := by
  intro failure h
  obtain ⟨f, rfl⟩ := escaping_error h
  rfl

theorem Operator.keepsContract (operator : Operator) (x y : Number) :
    KeepsContract (operator.apply x y) := by
  intro failure h
  obtain ⟨cause, rfl⟩ := Operator.apply_error h
  rfl

/-! ## Expressions -/

/-- A tree that tokens write keeps contracts when it is evaluated. -/
theorem Writes.keepsContract {level : Level} {ts : List Token} {tree : Tree}
    (hwrites : Writes level ts tree) (env : Environment) :
    KeepsContract (tree.evaluate env) := by
  -- A misplaced part is the one tree that breaks a contract, and no tokens write it.
  induction hwrites with
  | number ht => exact .ok _
  | reference ht =>
      refine (keepsContract_lookup env _).bind fun v => ?_
      split
      · exact .ok _
      · exact .error rfl
  | parens ht hu hinner ih => exact ih
  | negate ht hoperand ih =>
      refine ih.bind fun x => ?_
      split
      · exact .ok _
      · exact .error rfl
  | ofFactor hfactor ih => exact ih
  | ofProduct hproduct ih => exact ih
  | product ht hleft hright ihleft ihright | sum ht hleft hright ihleft ihright =>
      exact ihleft.bind fun x => ihright.bind fun y => Operator.keepsContract _ x y

theorem Tree.keepsContract_of_ofText {text : String} {tree : Tree} (hread : ofText text = .ok tree)
    (env : Environment) :
    KeepsContract (tree.evaluate env) := by
  unfold ofText at hread
  split at hread
  · cases hread
  · obtain ⟨ts, -, htree⟩ := bind_eq_ok.mp hread
    obtain ⟨used, t, rest, -, -, hwrites⟩ := writes_of_ofTokens htree
    exact hwrites.keepsContract env

theorem keepsContract_evaluate (env : Environment) (text : String) :
    KeepsContract (evaluate env (.text text)) := by
  unfold evaluate
  cases hread : Tree.ofText text with
  | error fault =>
      simp only [Tree.ofValue, Value.text?, hread]
      exact .error rfl
  | ok tree =>
      simp only [Tree.ofValue, Value.text?, hread]
      exact Tree.keepsContract_of_ofText hread env

/-! ## Conditions -/

theorem keepsContract_compareStrictly (c : Comparator) (x y : Value) :
    KeepsContract (compareStrictly c x y) := by
  unfold compareStrictly
  split
  · exact keepsContract_escaping _
  · split
    · simp only
      split
      · exact (keepsContract_escaping _).bind fun same => .ok _
      · exact .ok _
    · exact .error rfl

theorem Operand.keepsContract (operand : Operand) (env : Environment) :
    KeepsContract (operand.value env) := by
  cases operand with
  | number n => exact .ok _
  | reference target => exact keepsContract_lookup env target

theorem Condition.keepsContract (c : Condition) (env : Environment) :
    KeepsContract (c.evaluate env) :=
  (c.left.keepsContract env).bind fun x =>
    (c.right.keepsContract env).bind fun y => keepsContract_compareStrictly _ x y

theorem keepsContract_holds (env : Environment) (condition : Value) :
    KeepsContract (holds env condition) := by
  unfold holds
  split
  · exact .ok _
  · simp only
    split
    · exact .ok _
    · split
      · exact .ok _
      · split
        · exact Condition.keepsContract _ env
        · exact .error rfl
  · exact .error rfl

end Expression

end ModelPlaybook
