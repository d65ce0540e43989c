/-!
# Computations that can fail

A computation followed by another one succeeds if both do, and otherwise fails as the first of them
that fails.
-/

namespace ModelPlaybook

variable {ε δ α β : Type}

theorem bind_eq_ok {x : Except ε α} {f : α → Except ε β} {b : β} :
    (x >>= f) = .ok b ↔ ∃ a, x = .ok a ∧ f a = .ok b := by
  cases x with
  | error e => simp [bind, Except.bind]
  | ok a => simp [bind, Except.bind]

theorem bind_eq_error {x : Except ε α} {f : α → Except ε β} {e : ε} :
    (x >>= f) = .error e ↔ x = .error e ∨ ∃ a, x = .ok a ∧ f a = .error e := by
  cases x with
  | error e' => simp [bind, Except.bind]
  | ok a => simp [bind, Except.bind]

theorem pure_ne_error {a : α} {e : ε} : (pure a : Except ε α) ≠ .error e := by
  simp [pure, Except.pure]

theorem map_eq_ok {x : Except ε α} {f : α → β} {b : β} :
    x.map f = .ok b ↔ ∃ a, x = .ok a ∧ b = f a := by
  cases x with
  | error e => simp [Except.map]
  | ok a => simp [Except.map, eq_comm]

theorem map_eq_error {x : Except ε α} {f : α → β} {e : ε} :
    x.map f = .error e ↔ x = .error e := by
  cases x with
  | error e' => simp [Except.map]
  | ok a => simp [Except.map]

theorem map_id (x : Except ε α) : x.map (fun a => a) = x := by
  cases x <;> rfl

theorem map_map {γ : Type} (x : Except ε α) (f : α → β) (g : β → γ) :
    (x.map f).map g = x.map fun a => g (f a) := by
  cases x <;> rfl

theorem mapError_eq_ok {x : Except ε α} {f : ε → δ} {a : α} :
    x.mapError f = .ok a ↔ x = .ok a := by
  cases x with
  | error e =>
      constructor
      · rintro ⟨⟩
      · rintro ⟨⟩
  | ok a' =>
      constructor
      · rintro ⟨⟩
        rfl
      · rintro ⟨⟩
        rfl

theorem mapError_eq_error {x : Except ε α} {f : ε → δ} {d : δ} :
    x.mapError f = .error d ↔ ∃ e, x = .error e ∧ d = f e := by
  cases x with
  | error e =>
      constructor
      · rintro ⟨⟩
        exact ⟨e, rfl, rfl⟩
      · rintro ⟨e', ⟨⟩, rfl⟩
        rfl
  | ok a =>
      constructor
      · rintro ⟨⟩
      · rintro ⟨e, ⟨⟩, -⟩

theorem toOption_eq_some {x : Except ε α} {a : α} : x.toOption = some a ↔ x = .ok a := by
  cases x <;> simp [Except.toOption]

/-- What a computation fails with. -/
def fault? : Except ε α → Option ε
  | .ok _ => none
  | .error e => some e

theorem fault?_eq_some_iff {x : Except ε α} {e : ε} : fault? x = some e ↔ x = .error e := by
  cases x <;> simp [fault?]

theorem fault?_both {γ : Type} (x : Except ε α) (y : Except ε β) (f : α → β → γ) :
    fault? (do
      let a ← x
      let b ← y
      pure (f a b)) = (fault? x).or (fault? y) := by
  cases x with
  | error e => rfl
  | ok a => cases y <;> rfl

/-- Whatever a computation fails with has a property. -/
def FailsOnly (P : ε → Prop) (x : Except ε α) : Prop :=
  ∀ e, x = .error e → P e

namespace FailsOnly

variable {P : ε → Prop}

theorem ok (a : α) : FailsOnly P (.ok a : Except ε α) := by
  rintro e ⟨⟩

theorem error {e : ε} (he : P e) : FailsOnly P (.error e : Except ε α) := by
  rintro e' ⟨⟩
  exact he

theorem bind {x : Except ε α} {f : α → Except ε β} (hx : FailsOnly P x)
    (hf : ∀ a, FailsOnly P (f a)) :
    FailsOnly P (x >>= f) := by
  intro e h
  rcases bind_eq_error.mp h with h | ⟨a, -, h⟩
  · exact hx e h
  · exact hf a e h

theorem ite {c : Prop} [Decidable c] {x y : Except ε α} (hx : FailsOnly P x)
    (hy : FailsOnly P y) : FailsOnly P (if c then x else y) := by
  split
  · exact hx
  · exact hy

theorem mapM {f : α → Except ε β} (hf : ∀ a, FailsOnly P (f a)) (as : List α) :
    FailsOnly P (as.mapM f) := by
  induction as with
  | nil => exact ok []
  | cons a as ih =>
      rw [List.mapM_cons]
      exact (hf a).bind fun _ => ih.bind fun _ => ok _

theorem mapError {x : Except ε α} {f : ε → δ} {Q : δ → Prop} (hx : FailsOnly (fun e => Q (f e)) x) :
    FailsOnly Q (x.mapError f) := by
  intro d h
  obtain ⟨e, he, rfl⟩ := mapError_eq_error.mp h
  exact hx e he

end FailsOnly

end ModelPlaybook
