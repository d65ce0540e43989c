import Mathlib
import ModelPlaybook.Number.Decimal

/-!
# The range of decimal results

A decimal fits a context if it has no more digits than the precision and keeps to the exponents of
the context.  Decimals at large need not, but every result of an operation does.  A decimal that
fits has a negative; one that does not may be too large to have one.
-/

namespace ModelPlaybook

open Decimal

/-- A decimal is within the precision and the exponents of a context.  What is not finite always
is. -/
def Decimal.Fits (ctx : DecimalContext) : Decimal → Prop
  | finite _ c e =>
    c < 10 ^ ctx.precision ∧ ctx.leastExponent ≤ e ∧ (c ≠ 0 → adjusted c e ≤ ctx.maxAdjusted)
  | _ => True

theorem Text.decimalLog_lt_of_lt_ten_pow {c k : Nat} (hc : c ≠ 0) (hlt : c < 10 ^ k) :
    decimalLog c < k := by
  have hle : 10 ^ decimalLog c ≤ c := ten_pow_decimalLog_le hc
  exact (Nat.pow_lt_pow_iff_right (by norm_num)).mp (Nat.lt_of_le_of_lt hle hlt)

namespace DecimalContext

variable {ctx : DecimalContext}

/-- Cutting off what is beyond the precision leaves at most one digit too many, and that only by
carrying over. -/
theorem rescale_le {mode : Rounding} {negative : Bool} {c : Nat} {e target : Int}
    (htarget : adjusted c e - (ctx.precision : Int) + 1 ≤ target) (he : e < target) :
    rescale mode negative c e target ≤ 10 ^ ctx.precision := by
  unfold rescale
  split
  · exact Nat.zero_le _
  · rw [if_neg (by omega)]
    split
    · have hbound := (mode.divide_bounds negative 1 100).2
      have hone : 1 ≤ 10 ^ ctx.precision := Nat.one_le_pow _ _ (by norm_num)
      omega
    · have hbound := (mode.divide_bounds negative c (10 ^ (target - e).toNat)).2
      have hdigits : Text.digitCount c ≤ ctx.precision + (target - e).toNat := by
        simp only [adjusted] at htarget
        simp only [Text.digitCount]
        omega
      have hlt : c < 10 ^ ctx.precision * 10 ^ (target - e).toNat := by
        calc
          c < 10 ^ Text.digitCount c := Text.lt_ten_pow_digitCount c
          _ ≤ 10 ^ (ctx.precision + (target - e).toNat) :=
            Nat.pow_le_pow_right (by norm_num) hdigits
          _ = 10 ^ ctx.precision * 10 ^ (target - e).toNat := Nat.pow_add ..
      have hquotient : c / 10 ^ (target - e).toNat < 10 ^ ctx.precision :=
        Nat.div_lt_of_lt_mul (by rwa [Nat.mul_comm])
      omega

theorem fits_of_finish {negative : Bool} {c : Nat} {e : Int} {d : Decimal}
    (hd : ctx.finish negative c e = .ok d) : d.Fits ctx := by
  have hpos : 0 < 10 ^ ctx.precision := Nat.pow_pos (by norm_num)
  simp only [finish] at hd
  split at hd
  · cases hd
    exact ⟨hpos, by omega, by simp⟩
  next hc =>
    generalize htarget : max (adjusted c e - (ctx.precision : Int) + 1) ctx.leastExponent = target
      at hd
    split at hd
    next he =>
      have hrounded : rescale ctx.rounding negative c e target ≤ 10 ^ ctx.precision :=
        rescale_le (by omega) he
      split at hd
      next hcarry =>
        simp only at hd
        split at hd
        · cases hd
        next hrange =>
          cases hd
          exact ⟨by omega, by omega, fun hne => by omega⟩
      next hcarry =>
        simp only at hd
        split at hd
        · cases hd
        next hrange =>
          cases hd
          exact ⟨by omega, by omega, fun hne => by omega⟩
    next he =>
      split at hd
      · cases hd
      next hrange =>
        cases hd
        have hdigits : Text.digitCount c ≤ ctx.precision := by
          simp only [adjusted] at htarget
          simp only [Text.digitCount]
          omega
        have hlt : c < 10 ^ ctx.precision :=
          Nat.lt_of_lt_of_le (Text.lt_ten_pow_digitCount c)
            (Nat.pow_le_pow_right (by norm_num) hdigits)
        exact ⟨hlt, by omega, fun _ => by omega⟩

theorem isFinite_of_finish {negative : Bool} {c : Nat} {e : Int} {d : Decimal}
    (hd : ctx.finish negative c e = .ok d) : d.isFinite = true := by
  simp only [finish] at hd
  split_ifs at hd <;> cases hd <;> rfl

theorem eq_overflow_of_finish {negative : Bool} {c : Nat} {e : Int} {signal : DecimalSignal}
    (hsignal : ctx.finish negative c e = .error signal) : signal = .overflow := by
  simp only [finish] at hsignal
  split_ifs at hsignal <;> cases hsignal <;> rfl

/-- What fits already is not rounded. -/
theorem finish_of_fits {negative negative' : Bool} {c : Nat} {e : Int} (hc : c ≠ 0)
    (hfits : (Decimal.finite negative c e).Fits ctx) :
    ctx.finish negative' c e = .ok (.finite negative' c e) := by
  obtain ⟨hlt, hleast, hmost⟩ := hfits
  have hlog : Text.decimalLog c < ctx.precision := Text.decimalLog_lt_of_lt_ten_pow hc hlt
  have hadjusted := hmost hc
  have htarget : ¬ e < max (adjusted c e - (ctx.precision : Int) + 1) ctx.leastExponent := by
    simp only [adjusted]
    omega
  simp only [finish, if_neg hc, if_neg htarget]
  exact if_neg (by omega)

/-! ## Operations -/

theorem fits_of_nanResult? {x y d : Decimal} (hd : ctx.nanResult? x y = some (.ok d)) :
    d.Fits ctx := by
  unfold nanResult? at hd
  split at hd
  · cases hd
  · cases x <;> cases y <;> cases hd <;> trivial

theorem fits_of_addFinite {a b : Bool} {c d : Nat} {e f : Int} {r : Decimal}
    (hr : ctx.addFinite a c e b d f = .ok r) : r.Fits ctx := by
  simp only [addFinite, addFinite.settle] at hr
  split_ifs at hr <;> exact fits_of_finish hr

theorem fits_of_add {x y d : Decimal} (hd : ctx.add x y = .ok d) : d.Fits ctx := by
  unfold add at hd
  split at hd
  next r hnan =>
    subst hd
    exact fits_of_nanResult? hnan
  next hnan =>
    split at hd
    · split at hd
      · cases hd
        trivial
      · cases hd
    · cases hd
      trivial
    · cases hd
      trivial
    · simp only at hd
      split at hd
      · exact fits_of_finish hd
      · split at hd
        · exact fits_of_finish hd
        · split at hd
          · exact fits_of_finish hd
          · exact fits_of_addFinite hd
    · cases hd
      trivial
    · cases hd
      trivial

theorem fits_of_sub {x y d : Decimal} (hd : ctx.sub x y = .ok d) : d.Fits ctx := by
  unfold sub at hd
  split at hd
  next r hnan =>
    subst hd
    exact fits_of_nanResult? hnan
  next hnan => exact fits_of_add hd

theorem fits_of_mul {x y d : Decimal} (hd : ctx.mul x y = .ok d) : d.Fits ctx := by
  unfold mul at hd
  split at hd
  next r hnan =>
    subst hd
    exact fits_of_nanResult? hnan
  next hnan =>
    simp only at hd
    split at hd
    · exact fits_of_finish hd
    · split at hd
      · cases hd
      · cases hd
        trivial

theorem fits_of_divFinite {negative : Bool} {c d : Nat} {e f : Int} {r : Decimal}
    (hr : ctx.divFinite negative c e d f = .ok r) : r.Fits ctx := by
  simp only [divFinite] at hr
  split_ifs at hr <;> exact fits_of_finish hr

theorem fits_of_div {x y d : Decimal} (hd : ctx.div x y = .ok d) : d.Fits ctx := by
  unfold div at hd
  split at hd
  next r hnan =>
    subst hd
    exact fits_of_nanResult? hnan
  next hnan =>
    simp only at hd
    split at hd
    · cases hd
    · cases hd
      trivial
    · cases hd
      exact ⟨Nat.pow_pos (by norm_num), le_refl _, by simp⟩
    · split at hd
      · cases hd
      · split at hd
        · exact fits_of_finish hd
        · exact fits_of_divFinite hd
    · cases hd
      trivial
    · cases hd
      trivial

theorem fits_of_neg {x d : Decimal} (hd : ctx.neg x = .ok d) : d.Fits ctx := by
  unfold neg at hd
  split at hd
  next r hnan =>
    subst hd
    exact fits_of_nanResult? hnan
  next hnan =>
    split at hd
    · exact fits_of_finish hd
    · cases hd
      trivial
    · cases hd
      trivial

/-! ## Negatives -/

theorem neg_finite (negative : Bool) (c : Nat) (e : Int) :
    ctx.neg (.finite negative c e) = ctx.finish (c ≠ 0 && !negative) c e := rfl

theorem exists_neg_of_fits {d : Decimal} (hfinite : d.isFinite = true) (hfits : d.Fits ctx) :
    ∃ d', ctx.neg d = .ok d' := by
  cases d with
  | finite negative c e =>
      rw [neg_finite]
      by_cases hc : c = 0
      · exact ⟨_, if_pos hc⟩
      · exact ⟨_, finish_of_fits hc hfits⟩
  | infinite negative => cases hfinite
  | nan negative signaling payload origin => cases hfinite

theorem isFinite_of_neg {d d' : Decimal} (hfinite : d.isFinite = true)
    (hneg : ctx.neg d = .ok d') : d'.isFinite = true := by
  cases d with
  | finite negative c e =>
      rw [neg_finite] at hneg
      exact isFinite_of_finish hneg
  | infinite negative => cases hfinite
  | nan negative signaling payload origin => cases hfinite

theorem eq_overflow_of_neg {d : Decimal} {signal : DecimalSignal} (hfinite : d.isFinite = true)
    (hneg : ctx.neg d = .error signal) : signal = .overflow := by
  cases d with
  | finite negative c e =>
      rw [neg_finite] at hneg
      exact eq_overflow_of_finish hneg
  | infinite negative => cases hfinite
  | nan negative signaling payload origin => cases hfinite

end DecimalContext

end ModelPlaybook
