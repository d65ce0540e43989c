import Mathlib.Data.List.Forall2
import ModelPlaybook.Proofs.Sandbox.Plain
import ModelPlaybook.Schema.Field
import ModelPlaybook.Value.Equality

/-!
# What a check that succeeds has read

A check is put together from checks of parts.  It succeeds if and only if they all do, and what it
has read is put together from what they have read.
-/

namespace ModelPlaybook.Schema

namespace Checked

variable {α β : Type}

theorem fail_ne_valid {problem : Problem} {a : α} : (fail problem : Checked α) ≠ .valid a := by
  intro h
  cases h

theorem map_eq_valid {x : Checked α} {f : α → β} {b : β} :
    x.map f = .valid b ↔ ∃ a, x = .valid a ∧ f a = b := by
  cases x with
  | valid a => simp [map]
  | invalid issues => simp [map]

theorem both_eq_valid {x : Checked α} {y : Checked β} {a : α} {b : β} :
    both x y = .valid (a, b) ↔ x = .valid a ∧ y = .valid b := by
  cases x with
  | valid a' => cases y <;> simp [both]
  | invalid issues => cases y <;> simp [both]

theorem functorMap_eq_valid {x : Checked α} {f : α → β} {b : β} :
    f <$> x = .valid b ↔ ∃ a, x = .valid a ∧ f a = b :=
  map_eq_valid

theorem seq_eq_valid {f : Checked (α → β)} {x : Checked α} {b : β} :
    f <*> x = .valid b ↔ ∃ g a, f = .valid g ∧ x = .valid a ∧ g a = b := by
  change (both f x).map (fun pair => pair.1 pair.2) = .valid b ↔ _
  rw [map_eq_valid, Prod.exists]
  simp only [both_eq_valid, and_assoc]

theorem andThen_eq_valid {x : Checked α} {f : α → Checked β} {b : β} :
    x.andThen f = .valid b ↔ ∃ a, x = .valid a ∧ f a = .valid b := by
  cases x with
  | valid a => simp [andThen]
  | invalid issues => simp [andThen]

theorem under_eq_valid {part : String} {x : Checked α} {a : α} :
    x.under part = .valid a ↔ x = .valid a := by
  cases x with
  | valid a' => simp [under]
  | invalid issues => simp [under]

/-- The checks of a list succeed together, and give their results one for one and in order. -/
theorem all_eq_valid {check : α → Checked β} {n : Nat} {xs : List α} {bs : List β} :
    all check n xs = .valid bs ↔ List.Forall₂ (fun x b => check x = .valid b) xs bs := by
  induction xs generalizing n bs with
  | nil => simp [all, eq_comm]
  | cons x xs ih =>
      simp only [all, map_eq_valid, Prod.exists, both_eq_valid, under_eq_valid, ih,
        List.forall₂_cons_left_iff]
      constructor
      · rintro ⟨b, bs', ⟨hx, hxs⟩, rfl⟩
        exact ⟨b, bs', hx, hxs, rfl⟩
      · rintro ⟨b, bs', hx, hxs, rfl⟩
        exact ⟨b, bs', ⟨hx, hxs⟩, rfl⟩

end Checked

open Checked

variable {α : Type} {entries : Entries} {a : α}

theorem required_eq_valid {keys : List String} {check : Value → Checked α} :
    required entries keys check = .valid a ↔
      ∃ key v, claim? entries keys = some (key, v) ∧ check v = .valid a := by
  unfold required
  cases hclaim : claim? entries keys with
  | none => simp [under_eq_valid, fail_ne_valid]
  | some claimed =>
      obtain ⟨key, v⟩ := claimed
      simp [under_eq_valid]

theorem withDefault_eq_valid {key : String} {absent : α} {check : Value → Checked α} :
    withDefault entries key absent check = .valid a ↔
      (entries.get? key = none ∧ a = absent) ∨
        ∃ v, entries.get? key = some v ∧ check v = .valid a := by
  unfold withDefault
  cases hfound : entries.get? key with
  | none => simp [eq_comm]
  | some v => simp [under_eq_valid]

theorem listOf_eq_valid {item : Value → Checked α} {v : Value} {as : List α} :
    listOf item v = .valid as ↔
      ∃ items, items? v = some items ∧ List.Forall₂ (fun v a => item v = .valid a) items as := by
  cases v <;>
    simp [listOf, items?, Value.sequence?, Value.elements?, all_eq_valid, fail_ne_valid]

/-- Of two keys that are both there, the field is read from the first. -/
theorem claim?_pair {first second : String} :
    claim? entries [first, second] =
      ((entries.get? first).map (first, ·)).or ((entries.get? second).map (second, ·)) := by
  cases hfirst : entries.get? first with
  | none => cases hsecond : entries.get? second <;> simp [claim?, hfirst, hsecond]
  | some v => simp [claim?, hfirst]

theorem required_single_eq_valid {key : String} {check : Value → Checked α} :
    required entries [key] check = .valid a ↔
      ∃ v, entries.get? key = some v ∧ check v = .valid a := by
  rw [required_eq_valid]
  cases hfound : entries.get? key <;> simp [claim?, hfound]

/-- A field under two keys is read from what the first of them holds, or else the second. -/
theorem required_pair_eq_valid {first second : String} {check : Value → Checked α} :
    required entries [first, second] check = .valid a ↔
      ∃ v, (entries.get? first).or (entries.get? second) = some v ∧ check v = .valid a := by
  rw [required_eq_valid, claim?_pair]
  cases hfirst : entries.get? first <;> cases hsecond : entries.get? second <;> simp

end ModelPlaybook.Schema
