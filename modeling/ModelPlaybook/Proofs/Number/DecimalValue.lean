import Mathlib
import ModelPlaybook.Proofs.Number.DecimalRange

/-!
# Exact decimal arithmetic

A finite decimal stands for a rational number.  An operation rounds its exact result to the
context, so it loses nothing if the context can hold this result: with the digits of its precision,
and with a leading digit within its exponents.

The argument runs over decimal grids, the multiples of one power of ten.  A number that a context
can hold is on the grid of the last digit that the context keeps of it, and nothing that is on this
grid is rounded away.
-/

namespace ModelPlaybook

open Decimal

/-- The rational number that a finite decimal stands for. -/
def Decimal.value : Decimal → ℚ
  | finite negative c e => signedCoefficient negative c * 10 ^ e
  | _ => 0

/-- A context can hold a number without rounding it. -/
def DecimalContext.Holds (ctx : DecimalContext) (q : ℚ) : Prop :=
  (∃ m k : ℤ, m.natAbs < 10 ^ ctx.precision ∧ q = m * 10 ^ k) ∧
    (q ≠ 0 → ctx.minAdjusted ≤ Int.log 10 |q| ∧ Int.log 10 |q| ≤ ctx.maxAdjusted)

/-! ## Powers of ten -/

theorem zpow_ten_pos (k : ℤ) : (0 : ℚ) < 10 ^ k :=
  zpow_pos (by norm_num) k

theorem zpow_ten_add (j k : ℤ) : (10 : ℚ) ^ (j + k) = 10 ^ j * 10 ^ k :=
  zpow_add₀ (by norm_num) j k

theorem zpow_ten_eq {j k : ℤ} (hle : j ≤ k) :
    (10 : ℚ) ^ k = ((10 ^ (k - j).toNat : ℕ) : ℚ) * 10 ^ j := by
  have hexponent : k = ((k - j).toNat : ℤ) + j := by omega
  conv_lhs => rw [hexponent, zpow_ten_add, zpow_natCast]
  push_cast
  rfl

theorem zpow_ten_toNat (k : ℤ) :
    ((10 ^ k.toNat : ℕ) : ℚ) = ((10 ^ (-k).toNat : ℕ) : ℚ) * 10 ^ k := by
  have hexponent : (k.toNat : ℤ) = ((-k).toNat : ℤ) + k := by omega
  push_cast
  rw [← zpow_natCast, ← zpow_natCast, hexponent, zpow_ten_add]

theorem zpow_ten_le_natCast {c : ℕ} (hc : c ≠ 0) : (10 : ℚ) ^ (Text.decimalLog c : ℤ) ≤ c := by
  rw [zpow_natCast]
  exact_mod_cast Text.ten_pow_decimalLog_le hc

theorem natCast_lt_zpow_ten (c : ℕ) : (c : ℚ) < 10 ^ (Text.digitCount c : ℤ) := by
  rw [zpow_natCast]
  exact_mod_cast Text.lt_ten_pow_digitCount c

/-! ## Grids -/

/-- A number is a multiple of a power of ten. -/
def OnGrid (k : ℤ) (q : ℚ) : Prop :=
  ∃ z : ℤ, q = z * 10 ^ k

namespace OnGrid

variable {j k : ℤ} {p q : ℚ}

theorem of_le (hq : OnGrid k q) (hle : j ≤ k) : OnGrid j q := by
  obtain ⟨z, rfl⟩ := hq
  refine ⟨z * (10 ^ (k - j).toNat : ℕ), ?_⟩
  rw [zpow_ten_eq hle]
  push_cast
  ring

theorem sub (hp : OnGrid k p) (hq : OnGrid k q) : OnGrid k (p - q) := by
  obtain ⟨y, rfl⟩ := hp
  obtain ⟨z, rfl⟩ := hq
  refine ⟨y - z, ?_⟩
  push_cast
  ring

theorem le_abs (hq : OnGrid k q) (hne : q ≠ 0) : 10 ^ k ≤ |q| := by
  obtain ⟨z, rfl⟩ := hq
  have hz : z ≠ 0 := by
    rintro rfl
    simp at hne
  have hone : (1 : ℚ) ≤ |(z : ℚ)| := by
    exact_mod_cast Int.one_le_abs hz
  rw [abs_mul, abs_of_pos (zpow_ten_pos k)]
  exact le_mul_of_one_le_left (zpow_ten_pos k).le hone

end OnGrid

section

variable {negative : Bool} {c : ℕ} {e : ℤ}

theorem onGrid_value (negative : Bool) (c : ℕ) (e : ℤ) :
    OnGrid e (Decimal.finite negative c e).value :=
  ⟨signedCoefficient negative c, rfl⟩

theorem abs_value (negative : Bool) (c : ℕ) (e : ℤ) :
    |(Decimal.finite negative c e).value| = c * 10 ^ e := by
  have hsign : |((signedCoefficient negative c : ℤ) : ℚ)| = c := by
    cases negative <;> simp [signedCoefficient]
  rw [Decimal.value, abs_mul, hsign, abs_of_pos (zpow_ten_pos e)]

theorem value_eq_zero_iff : (Decimal.finite negative c e).value = 0 ↔ c = 0 := by
  rw [← abs_eq_zero, abs_value]
  simp [(zpow_ten_pos e).ne']

/-- The value depends on the magnitude and the sign alone. -/
theorem value_congr {d : ℕ} {f : ℤ} (hsame : (c : ℚ) * 10 ^ e = d * 10 ^ f) :
    (Decimal.finite negative c e).value = (Decimal.finite negative d f).value := by
  cases negative <;> simp [Decimal.value, signedCoefficient, hsame]

/-- The leading digit of a decimal stands where the logarithm of its value says. -/
theorem log_magnitude (hc : c ≠ 0) (e : ℤ) : Int.log 10 ((c : ℚ) * 10 ^ e) = adjusted c e := by
  have hpos : (0 : ℚ) < c * 10 ^ e :=
    mul_pos (by exact_mod_cast Nat.pos_of_ne_zero hc) (zpow_ten_pos e)
  apply le_antisymm
  · apply Int.lt_add_one_iff.mp
    apply (Int.lt_zpow_iff_log_lt (by norm_num) hpos).mp
    calc
      (c : ℚ) * 10 ^ e < 10 ^ (Text.digitCount c : ℤ) * 10 ^ e :=
        mul_lt_mul_of_pos_right (natCast_lt_zpow_ten c) (zpow_ten_pos e)
      _ = ((10 : ℕ) : ℚ) ^ (adjusted c e + 1) := by
        rw [← zpow_ten_add, adjusted, Text.digitCount]
        push_cast
        congr 1
        ring
  · apply (Int.zpow_le_iff_le_log (by norm_num) hpos).mp
    calc
      ((10 : ℕ) : ℚ) ^ adjusted c e = 10 ^ (Text.decimalLog c : ℤ) * 10 ^ e := by
        rw [← zpow_ten_add, adjusted, add_comm]
        norm_num
      _ ≤ c * 10 ^ e := mul_le_mul_of_nonneg_right (zpow_ten_le_natCast hc) (zpow_ten_pos e).le

theorem adjusted_congr {d : ℕ} {f : ℤ} (hc : c ≠ 0) (hd : d ≠ 0)
    (hsame : (c : ℚ) * 10 ^ e = d * 10 ^ f) : adjusted c e = adjusted d f := by
  rw [← log_magnitude hc, hsame, log_magnitude hd]

/-- A coefficient whose number is on a coarser grid ends in zeros. -/
theorem dvd_of_onGrid {k : ℤ} (hk : e ≤ k) (hgrid : OnGrid k ((c : ℚ) * 10 ^ e)) :
    10 ^ (k - e).toNat ∣ c := by
  obtain ⟨z, hz⟩ := hgrid
  rw [zpow_ten_eq hk, ← mul_assoc] at hz
  have hcast : (c : ℚ) = z * ((10 ^ (k - e).toNat : ℕ) : ℚ) :=
    mul_right_cancel₀ (zpow_ten_pos e).ne' hz
  have hint : (c : ℤ) = z * (10 ^ (k - e).toNat : ℕ) := by
    exact_mod_cast hcast
  exact_mod_cast Dvd.intro_left z hint.symm

end

theorem Decimal.exists_finite {x : Decimal} (hx : x.isFinite = true) :
    ∃ negative c e, x = .finite negative c e := by
  cases x with
  | finite negative c e => exact ⟨negative, c, e, rfl⟩
  | infinite negative => cases hx
  | nan negative signaling payload origin => cases hx

namespace DecimalContext

variable {ctx : DecimalContext} {q : ℚ}

theorem holds_value {negative : Bool} {c : ℕ} {e : ℤ} (hdigits : c < 10 ^ ctx.precision)
    (hleast : ctx.minAdjusted ≤ adjusted c e) (hmost : adjusted c e ≤ ctx.maxAdjusted) :
    ctx.Holds (Decimal.finite negative c e).value := by
  have hcount : (signedCoefficient negative c).natAbs = c := by
    cases negative <;> simp [signedCoefficient]
  refine ⟨⟨signedCoefficient negative c, e, by rwa [hcount], rfl⟩, fun hne => ?_⟩
  have hc : c ≠ 0 := fun h => hne (value_eq_zero_iff.mpr h)
  rw [abs_value, log_magnitude hc]
  exact ⟨hleast, hmost⟩

/-- A number that a context can hold is on the grid of the last digit that is kept of it. -/
theorem Holds.onGrid (hq : ctx.Holds q) (hne : q ≠ 0) :
    OnGrid (Int.log 10 |q| - ctx.precision + 1) q := by
  obtain ⟨⟨m, k, hm, rfl⟩, -⟩ := hq
  have hgrid : OnGrid k ((m : ℚ) * 10 ^ k) := ⟨m, rfl⟩
  have hlt : |(m : ℚ) * 10 ^ k| < ((10 : ℕ) : ℚ) ^ ((ctx.precision : ℤ) + k) := by
    have hdigits : |(m : ℚ)| < 10 ^ (ctx.precision : ℤ) := by
      rw [zpow_natCast, ← Int.cast_abs, Int.abs_eq_natAbs]
      exact_mod_cast hm
    rw [abs_mul, abs_of_pos (zpow_ten_pos k)]
    push_cast
    rw [zpow_ten_add]
    exact mul_lt_mul_of_pos_right hdigits (zpow_ten_pos k)
  have hlog := (Int.lt_zpow_iff_log_lt (by norm_num) (abs_pos.mpr hne)).mp hlt
  exact hgrid.of_le (by omega)

/-! ## Rounding -/

section

variable {negative : Bool} {c : ℕ} {e : ℤ}

/-- Cutting off zeros keeps the number. -/
theorem exists_rescale_eq {mode : Rounding} {target : ℤ} (hc : c ≠ 0) (he : e < target)
    (hdigits : target ≤ adjusted c e) (hgrid : OnGrid target (Decimal.finite negative c e).value) :
    ∃ d, rescale mode negative c e target = d ∧ d ≠ 0 ∧ (d : ℚ) * 10 ^ target = c * 10 ^ e := by
  have hmagnitude : OnGrid target ((c : ℚ) * 10 ^ e) := by
    obtain ⟨z, hz⟩ := hgrid
    refine ⟨|z|, ?_⟩
    rw [← abs_value negative, hz, abs_mul, abs_of_pos (zpow_ten_pos target)]
    push_cast
    rfl
  obtain ⟨d, hd⟩ := dvd_of_onGrid he.le hmagnitude
  refine ⟨d, ?_, ?_, ?_⟩
  · have hcount : ¬ Text.digitCount c < (target - e).toNat := by
      simp only [adjusted] at hdigits
      simp only [Text.digitCount]
      omega
    rw [rescale, if_neg hc, if_neg (by omega), if_neg hcount,
      Rounding.divide_eq_div_of_dvd _ _ ⟨d, hd⟩, hd]
    exact Nat.mul_div_cancel_left d (Nat.pow_pos (by norm_num))
  · rintro rfl
    exact hc (by simpa using hd)
  · rw [hd, zpow_ten_eq he.le]
    push_cast
    ring

/-- What a context can hold is not rounded. -/
theorem finish_exact (hprecision : 1 ≤ ctx.precision)
    (hholds : ctx.Holds (Decimal.finite negative c e).value) :
    ∃ c' e', ctx.finish negative c e = .ok (.finite negative c' e') ∧
      (Decimal.finite negative c' e').value = (Decimal.finite negative c e).value := by
  by_cases hc : c = 0
  · subst hc
    refine ⟨0, _, by rw [finish, if_pos rfl], ?_⟩
    rw [value_eq_zero_iff.mpr rfl, value_eq_zero_iff.mpr rfl]
  have hne : (Decimal.finite negative c e).value ≠ 0 := fun h => hc (value_eq_zero_iff.mp h)
  have hlog : Int.log 10 |(Decimal.finite negative c e).value| = adjusted c e := by
    rw [abs_value, log_magnitude hc]
  obtain ⟨hleast, hmost⟩ := hholds.2 hne
  have hgrid := hholds.onGrid hne
  rw [hlog] at hleast hmost hgrid
  -- The leading digit is within the exponents, so the precision decides where digits are cut off.
  have htarget : max (adjusted c e - (ctx.precision : ℤ) + 1) ctx.leastExponent =
      adjusted c e - ctx.precision + 1 := by
    rw [leastExponent]
    omega
  simp only [finish, if_neg hc, htarget]
  generalize hlast : adjusted c e - (ctx.precision : ℤ) + 1 = target at hgrid ⊢
  by_cases he : e < target
  · obtain ⟨d, hrescale, hd, hsame⟩ := exists_rescale_eq hc he (by omega) hgrid
    have hadjusted : adjusted d target = adjusted c e := adjusted_congr hd hc hsame
    have hcarry : d ≠ 10 ^ ctx.precision := by
      rintro rfl
      have hdigits : Text.digitCount (10 ^ ctx.precision) ≤ ctx.precision := by
        simp only [adjusted] at hadjusted hlast
        simp only [Text.digitCount]
        omega
      have hlt := Text.lt_ten_pow_digitCount (10 ^ ctx.precision)
      exact absurd (Nat.pow_le_pow_right (by norm_num) hdigits) (Nat.not_le.mpr hlt)
    rw [if_pos he, hrescale, if_neg hcarry]
    simp only [hadjusted]
    rw [if_neg (by omega)]
    exact ⟨d, target, rfl, value_congr hsame⟩
  · rw [if_neg he, if_neg (by omega)]
    exact ⟨c, e, rfl, rfl⟩

end

/-! ## Operations -/

/-- A computation gives the finite decimal with a value. -/
def Gives (r : Except DecimalSignal Decimal) (q : ℚ) : Prop :=
  ∃ d, r = .ok d ∧ d.isFinite = true ∧ d.value = q

theorem gives_finish {negative : Bool} {c : ℕ} {e : ℤ} (hprecision : 1 ≤ ctx.precision)
    (hvalue : (Decimal.finite negative c e).value = q) (hq : ctx.Holds q) :
    Gives (ctx.finish negative c e) q := by
  subst hvalue
  obtain ⟨c', e', hfinish, hsame⟩ := finish_exact hprecision hq
  exact ⟨_, hfinish, rfl, hsame⟩

theorem value_settled (n e : ℤ) : (Decimal.finite (n < 0) n.natAbs e).value = n * 10 ^ e := by
  have hsign : signedCoefficient (n < 0) n.natAbs = n := by
    by_cases hn : n < 0
    · simp only [signedCoefficient, hn, decide_true, if_true]
      omega
    · simp only [signedCoefficient, hn, decide_false, Bool.false_eq_true, if_false]
      omega
  rw [Decimal.value, hsign]

/-- Zeros that are appended to a coefficient move its exponent. -/
theorem value_shifted {negative : Bool} {c : ℕ} {e k : ℤ} (hk : k ≤ e) :
    (Decimal.finite negative (c * 10 ^ (e - k).toNat) k).value =
      (Decimal.finite negative c e).value := by
  apply value_congr
  rw [zpow_ten_eq hk]
  push_cast
  ring

section

variable {a b : Bool} {c d : ℕ} {e f : ℤ}

/-- A sum has more digits than the precision if one operand lies below all digits that a context
keeps of the other one. -/
theorem not_holds_of_below (hc : c ≠ 0) (hd : d ≠ 0) (hprecision : 1 ≤ ctx.precision)
    (hbelow : adjusted d f < min (e - 1) (adjusted c e - ctx.precision - 1)) :
    ¬ ctx.Holds ((Decimal.finite a c e).value + (Decimal.finite b d f).value) := by
  intro hholds
  generalize hx : (Decimal.finite a c e).value = x at hholds
  generalize hy : (Decimal.finite b d f).value = y at hholds
  have hxabs : |x| = c * 10 ^ e := by rw [← hx, abs_value]
  have hyabs : |y| = d * 10 ^ f := by rw [← hy, abs_value]
  have hxlow : (10 : ℚ) ^ adjusted c e ≤ |x| := by
    have hpos : 0 < |x| := by
      rw [hxabs]
      exact mul_pos (by exact_mod_cast Nat.pos_of_ne_zero hc) (zpow_ten_pos e)
    have hlog : adjusted c e ≤ Int.log 10 |x| := by rw [hxabs, log_magnitude hc]
    exact_mod_cast (Int.zpow_le_iff_le_log (b := 10) (by norm_num) hpos).mpr hlog
  have hyne : y ≠ 0 := by
    rw [← hy]
    exact fun h => hd (value_eq_zero_iff.mp h)
  have hyhigh : |y| < (10 : ℚ) ^ (adjusted d f + 1) := by
    have hlog : Int.log 10 |y| < adjusted d f + 1 := by
      rw [hyabs, log_magnitude hd]
      omega
    exact_mod_cast (Int.lt_zpow_iff_log_lt (b := 10) (by norm_num) (abs_pos.mpr hyne)).mpr hlog
  have hsum : (10 : ℚ) ^ (adjusted c e - 1) ≤ |x + y| := by
    have hsmall : |y| ≤ (10 : ℚ) ^ (adjusted c e - 1) :=
      hyhigh.le.trans (zpow_le_zpow_right₀ (by norm_num) (by omega))
    have hten : (10 : ℚ) ^ adjusted c e = 10 ^ (adjusted c e - 1) * 10 := by
      rw [← zpow_add_one₀ (by norm_num)]
      congr 1
      ring
    have htriangle : |x| - |y| ≤ |x + y| := by
      have h := abs_sub_abs_le_abs_sub x (-y)
      rwa [abs_neg, sub_neg_eq_add] at h
    have hpos := zpow_ten_pos (adjusted c e - 1)
    linarith
  have hsumne : x + y ≠ 0 := abs_pos.mp (lt_of_lt_of_le (zpow_ten_pos _) hsum)
  have hlog : adjusted c e - 1 ≤ Int.log 10 |x + y| :=
    (Int.zpow_le_iff_le_log (by norm_num) (abs_pos.mpr hsumne)).mp (by exact_mod_cast hsum)
  -- The sum and the larger operand are on a grid that the smaller operand is too small for.
  have hgrid : OnGrid (adjusted d f + 1) ((x + y) - x) := by
    apply OnGrid.sub
    · exact (hholds.onGrid hsumne).of_le (by omega)
    · rw [← hx]
      exact (onGrid_value a c e).of_le (by omega)
  rw [add_sub_cancel_left] at hgrid
  exact absurd (hgrid.le_abs hyne) (not_le.mpr hyhigh)

theorem gives_addFinite (hc : c ≠ 0) (hd : d ≠ 0) (hprecision : 1 ≤ ctx.precision)
    (hholds : ctx.Holds ((Decimal.finite a c e).value + (Decimal.finite b d f).value)) :
    Gives (ctx.addFinite a c e b d f)
      ((Decimal.finite a c e).value + (Decimal.finite b d f).value) := by
  have hfirst : ¬ (f ≤ e ∧ adjusted d f < min (e - 1) (adjusted c e - ctx.precision - 1)) :=
    fun h => not_holds_of_below hc hd hprecision h.2 hholds
  have hsecond : ¬ (e < f ∧ adjusted c e < min (f - 1) (adjusted d f - ctx.precision - 1)) := by
    intro h
    rw [add_comm] at hholds
    exact not_holds_of_below hd hc hprecision h.2 hholds
  simp only [addFinite, addFinite.settle, if_neg hfirst, if_neg hsecond]
  apply gives_finish hprecision _ hholds
  rw [value_settled]
  push_cast
  rw [add_mul]
  congr 1
  · exact value_shifted (Int.min_le_left e f)
  · exact value_shifted (Int.min_le_right e f)

end

section

variable {x y : Decimal}

theorem nanResult?_of_finite (hx : x.isFinite = true) (hy : y.isFinite = true) :
    ctx.nanResult? x y = none := by
  obtain ⟨a, c, e, rfl⟩ := exists_finite hx
  obtain ⟨b, d, f, rfl⟩ := exists_finite hy
  rfl

theorem gives_add (hx : x.isFinite = true) (hy : y.isFinite = true)
    (hprecision : 1 ≤ ctx.precision) (hholds : ctx.Holds (x.value + y.value)) :
    Gives (ctx.add x y) (x.value + y.value) := by
  unfold add
  rw [nanResult?_of_finite hx hy]
  obtain ⟨a, c, e, rfl⟩ := exists_finite hx
  obtain ⟨b, d, f, rfl⟩ := exists_finite hy
  simp only
  by_cases hc : c = 0
  · have hzero : (Decimal.finite a c e).value = 0 := value_eq_zero_iff.mpr hc
    rw [hzero, zero_add] at hholds ⊢
    by_cases hd : d = 0
    · rw [if_pos ⟨hc, hd⟩]
      apply gives_finish hprecision _ hholds
      rw [value_eq_zero_iff.mpr rfl, value_eq_zero_iff.mpr hd]
    · rw [if_neg fun h => hd h.2, if_pos hc]
      exact gives_finish hprecision (value_shifted (by omega)) hholds
  · rw [if_neg fun h => hc h.1, if_neg hc]
    by_cases hd : d = 0
    · have hzero : (Decimal.finite b d f).value = 0 := value_eq_zero_iff.mpr hd
      rw [hzero, add_zero] at hholds ⊢
      rw [if_pos hd]
      exact gives_finish hprecision (value_shifted (by omega)) hholds
    · rw [if_neg hd]
      exact gives_addFinite hc hd hprecision hholds

theorem value_withSign (y : Decimal) : (y.withSign (!y.isNegative)).value = -y.value := by
  cases y with
  | finite negative c e =>
      cases negative <;> simp [withSign, isNegative, Decimal.value, signedCoefficient]
  | infinite negative => simp [withSign, Decimal.value]
  | nan negative signaling payload origin => simp [withSign, Decimal.value]

theorem gives_sub (hx : x.isFinite = true) (hy : y.isFinite = true)
    (hprecision : 1 ≤ ctx.precision) (hholds : ctx.Holds (x.value - y.value)) :
    Gives (ctx.sub x y) (x.value - y.value) := by
  rw [sub, nanResult?_of_finite hx hy]
  have hflipped : (y.withSign (!y.isNegative)).isFinite = true := by
    obtain ⟨b, d, f, rfl⟩ := exists_finite hy
    rfl
  rw [sub_eq_add_neg, ← value_withSign] at hholds ⊢
  exact gives_add hx hflipped hprecision hholds

theorem gives_mul (hx : x.isFinite = true) (hy : y.isFinite = true)
    (hprecision : 1 ≤ ctx.precision) (hholds : ctx.Holds (x.value * y.value)) :
    Gives (ctx.mul x y) (x.value * y.value) := by
  rw [mul, nanResult?_of_finite hx hy]
  obtain ⟨a, c, e, rfl⟩ := exists_finite hx
  obtain ⟨b, d, f, rfl⟩ := exists_finite hy
  apply gives_finish hprecision _ hholds
  simp only [Decimal.value, zpow_ten_add]
  cases a <;> cases b <;> simp [isNegative, signedCoefficient] <;> ring

theorem gives_neg (hx : x.isFinite = true) (hprecision : 1 ≤ ctx.precision)
    (hholds : ctx.Holds (-x.value)) :
    Gives (ctx.neg x) (-x.value) := by
  obtain ⟨a, c, e, rfl⟩ := exists_finite hx
  rw [neg_finite]
  apply gives_finish hprecision _ hholds
  by_cases hc : c = 0
  · rw [value_eq_zero_iff.mpr hc, value_eq_zero_iff.mpr hc, neg_zero]
  · cases a <;> simp [Decimal.value, signedCoefficient, hc]

/-! ### Quotients -/

theorem value_towardIdeal (negative : Bool) (fuel c : ℕ) (e ideal : ℤ) :
    (Decimal.finite negative (towardIdeal fuel c e ideal).1
      (towardIdeal fuel c e ideal).2).value = (Decimal.finite negative c e).value := by
  induction fuel generalizing c e with
  | zero => rfl
  | succ fuel ih =>
      rw [towardIdeal]
      split
      next hzero =>
        rw [ih]
        apply value_congr
        have hcast : ((c / 10 : ℕ) : ℚ) * 10 = c := by
          exact_mod_cast Nat.div_mul_cancel (Nat.dvd_of_mod_eq_zero hzero.2)
        calc
          ((c / 10 : ℕ) : ℚ) * 10 ^ (e + 1) = ((c / 10 : ℕ) : ℚ) * 10 * 10 ^ e := by
            rw [zpow_add_one₀ (by norm_num)]
            ring
          _ = c * 10 ^ e := by rw [hcast]
      next => rfl

/-- The magnitude and the sign of a quotient. -/
theorem value_quotient {a b : Bool} {c d n : ℕ} {e f k : ℤ} (hd : d ≠ 0)
    (hmagnitude : (n : ℚ) * 10 ^ k * (d * 10 ^ f) = c * 10 ^ e) :
    (Decimal.finite (a != b) n k).value =
      (Decimal.finite a c e).value / (Decimal.finite b d f).value := by
  rw [eq_div_iff fun h => hd (value_eq_zero_iff.mp h)]
  cases a <;> cases b <;> simp [Decimal.value, signedCoefficient, ← hmagnitude]

/-- A quotient with more digits than the precision leaves no remainder if it can be held. -/
theorem dvd_of_holds {dividend divisor : ℕ} {k : ℤ} (hdivisor : divisor ≠ 0)
    (hlong : divisor * 10 ^ ctx.precision ≤ dividend) (hholds : ctx.Holds q)
    (hq : |q| * divisor = dividend * 10 ^ k) :
    divisor ∣ dividend := by
  have hpos : (0 : ℚ) < divisor := by exact_mod_cast Nat.pos_of_ne_zero hdivisor
  have hlow : ((10 : ℕ) : ℚ) ^ ((ctx.precision : ℤ) + k) ≤ |q| := by
    apply le_of_mul_le_mul_right _ hpos
    have hlong' : (divisor : ℚ) * 10 ^ (ctx.precision : ℤ) ≤ dividend := by
      rw [zpow_natCast]
      exact_mod_cast hlong
    calc
      ((10 : ℕ) : ℚ) ^ ((ctx.precision : ℤ) + k) * divisor =
          divisor * 10 ^ (ctx.precision : ℤ) * 10 ^ k := by
        push_cast
        rw [zpow_ten_add]
        ring
      _ ≤ dividend * 10 ^ k := mul_le_mul_of_nonneg_right hlong' (zpow_ten_pos k).le
      _ = |q| * divisor := hq.symm
  have hne : q ≠ 0 := by
    rintro rfl
    rw [abs_zero] at hlow
    exact absurd hlow (not_le.mpr (zpow_pos (by norm_num) _))
  have hlog := (Int.zpow_le_iff_le_log (by norm_num) (abs_pos.mpr hne)).mp hlow
  obtain ⟨z, hz⟩ := (hholds.onGrid hne).of_le (show k ≤ _ by omega)
  have hcast : (dividend : ℚ) = |(z : ℚ)| * divisor := by
    rw [hz, abs_mul, abs_of_pos (zpow_ten_pos k)] at hq
    apply mul_right_cancel₀ (zpow_ten_pos k).ne'
    rw [← hq]
    ring
  have hint : (dividend : ℤ) = |z| * divisor := by exact_mod_cast hcast
  have hdvd : (divisor : ℤ) ∣ dividend := Dvd.intro_left _ hint.symm
  exact_mod_cast hdvd

/-- Dividend and divisor of a division are the coefficients, one of them with zeros appended. -/
theorem natCast_dividend (c d : ℕ) (shift : ℤ) :
    ((c * 10 ^ shift.toNat : ℕ) : ℚ) * d =
      ((d * 10 ^ (-shift).toNat : ℕ) : ℚ) * c * 10 ^ shift := by
  have hpower := zpow_ten_toNat shift
  push_cast at hpower ⊢
  rw [hpower]
  ring

/-- There are enough zeros for a quotient that is longer than the precision. -/
theorem divisor_mul_le_dividend {c d : ℕ} {shift : ℤ} (hc : c ≠ 0)
    (hshift : (Text.digitCount d : ℤ) - Text.digitCount c + ctx.precision + 1 = shift) :
    d * 10 ^ (-shift).toNat * 10 ^ ctx.precision ≤ c * 10 ^ shift.toNat := by
  have hdigits : Text.digitCount d + ((-shift).toNat + ctx.precision) =
      Text.decimalLog c + shift.toNat := by
    simp only [Text.digitCount] at hshift ⊢
    omega
  calc
    d * 10 ^ (-shift).toNat * 10 ^ ctx.precision = d * 10 ^ ((-shift).toNat + ctx.precision) := by
      rw [Nat.mul_assoc, ← Nat.pow_add]
    _ ≤ 10 ^ Text.digitCount d * 10 ^ ((-shift).toNat + ctx.precision) :=
      Nat.mul_le_mul_right _ (Text.lt_ten_pow_digitCount d).le
    _ = 10 ^ Text.decimalLog c * 10 ^ shift.toNat := by
      rw [← Nat.pow_add, hdigits, Nat.pow_add]
    _ ≤ c * 10 ^ shift.toNat := Nat.mul_le_mul_right _ (Text.ten_pow_decimalLog_le hc)

theorem gives_divFinite {a b : Bool} {c d : ℕ} {e f : ℤ} (hc : c ≠ 0) (hd : d ≠ 0)
    (hprecision : 1 ≤ ctx.precision)
    (hholds : ctx.Holds ((Decimal.finite a c e).value / (Decimal.finite b d f).value)) :
    Gives (ctx.divFinite (a != b) c e d f)
      ((Decimal.finite a c e).value / (Decimal.finite b d f).value) := by
  rw [divFinite]
  generalize hshift : (Text.digitCount d : ℤ) - Text.digitCount c + ctx.precision + 1 = shift
  have hlong := divisor_mul_le_dividend (d := d) hc hshift
  have hscaled := natCast_dividend c d shift
  have hdivisor : d * 10 ^ (-shift).toNat ≠ 0 :=
    Nat.mul_ne_zero hd (Nat.pow_pos (by norm_num)).ne'
  simp only
  generalize c * 10 ^ shift.toNat = dividend at hlong hscaled ⊢
  generalize d * 10 ^ (-shift).toNat = divisor at hlong hscaled hdivisor ⊢
  have hexponent : (10 : ℚ) ^ shift * (10 ^ (e - f - shift) * 10 ^ f) = 10 ^ e := by
    rw [← zpow_ten_add, ← zpow_ten_add]
    congr 1
    ring
  have hmagnitude : (dividend : ℚ) * 10 ^ (e - f - shift) * (d * 10 ^ f) =
      c * 10 ^ e * divisor := by
    calc
      (dividend : ℚ) * 10 ^ (e - f - shift) * (d * 10 ^ f) =
          dividend * d * (10 ^ (e - f - shift) * 10 ^ f) := by ring
      _ = c * (10 ^ shift * (10 ^ (e - f - shift) * 10 ^ f)) * divisor := by
        rw [hscaled]
        ring
      _ = c * 10 ^ e * divisor := by rw [hexponent]
  have hquotient : |(Decimal.finite a c e).value / (Decimal.finite b d f).value| * divisor =
      dividend * 10 ^ (e - f - shift) := by
    have hpos : (d : ℚ) * 10 ^ f ≠ 0 :=
      mul_ne_zero (by exact_mod_cast hd) (zpow_ten_pos f).ne'
    rw [abs_div, abs_value, abs_value, div_mul_eq_mul_div, div_eq_iff hpos, hmagnitude]
  obtain ⟨n, hn⟩ := dvd_of_holds hdivisor hlong hholds hquotient
  have hremainder : dividend % divisor = 0 := by rw [hn, Nat.mul_mod_right]
  have hdiv : dividend / divisor = n := by
    rw [hn, Nat.mul_div_cancel_left n (Nat.pos_of_ne_zero hdivisor)]
  rw [if_pos hremainder, hdiv]
  apply gives_finish hprecision _ hholds
  rw [value_towardIdeal]
  apply value_quotient hd
  apply mul_right_cancel₀ (b := (divisor : ℚ)) (by exact_mod_cast hdivisor)
  rw [← hmagnitude, hn]
  push_cast
  ring

theorem gives_div (hx : x.isFinite = true) (hy : y.isFinite = true) (hne : y.value ≠ 0)
    (hprecision : 1 ≤ ctx.precision) (hholds : ctx.Holds (x.value / y.value)) :
    Gives (ctx.div x y) (x.value / y.value) := by
  unfold div
  rw [nanResult?_of_finite hx hy]
  obtain ⟨a, c, e, rfl⟩ := exists_finite hx
  obtain ⟨b, d, f, rfl⟩ := exists_finite hy
  have hd : d ≠ 0 := fun h => hne (value_eq_zero_iff.mpr h)
  simp only
  rw [if_neg hd]
  by_cases hc : c = 0
  · rw [if_pos hc]
    apply gives_finish hprecision _ hholds
    rw [value_eq_zero_iff.mpr rfl, value_eq_zero_iff.mpr hc, zero_div]
  · rw [if_neg hc]
    exact gives_divFinite hc hd hprecision hholds

end

end DecimalContext

end ModelPlaybook
