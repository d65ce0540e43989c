import Mathlib
import ModelPlaybook.Proofs.Expression.ExactValue

/-!
# The exact order of numbers

Numbers of all kinds are compared as decimals that equal them, with no context that could round.
The leading digits decide, and where they stand at the same power of ten, the coefficients do once
zeros are appended to one of them.  So the order of finite numbers is the order of the rational
numbers that they stand for.
-/

namespace ModelPlaybook

open Decimal

/-! ## Orders of rational numbers -/

theorem compare_map {α β : Type} [LinearOrder α] [LinearOrder β] {f : α → β} (hf : StrictMono f)
    (a b : α) : compare (f a) (f b) = compare a b := by
  rw [← cmp_eq_compare, ← cmp_eq_compare, hf.cmp_map_eq]

theorem compare_neg (p q : ℚ) : compare (-p) (-q) = compare q p := by
  have hanti : StrictAnti fun r : ℚ => -r := fun _ _ h => neg_lt_neg h
  rw [← cmp_eq_compare, ← cmp_eq_compare]
  exact hanti.cmp_map_eq p q

theorem compare_mul_zpow_ten (p q : ℚ) (k : ℤ) :
    compare (p * 10 ^ k) (q * 10 ^ k) = compare p q :=
  compare_map (f := (· * 10 ^ k)) (fun _ _ h => mul_lt_mul_of_pos_right h (zpow_ten_pos k)) p q

/-! ## Magnitudes -/

section

variable {c d : ℕ} {e f : ℤ}

theorem magnitude_lt_of_adjusted_lt (hc : c ≠ 0) (hd : d ≠ 0) (hlt : adjusted c e < adjusted d f) :
    (c : ℚ) * 10 ^ e < d * 10 ^ f := by
  by_contra hle
  have hpos : (0 : ℚ) < d * 10 ^ f :=
    mul_pos (by exact_mod_cast Nat.pos_of_ne_zero hd) (zpow_ten_pos f)
  have hlog := Int.log_mono_right (b := 10) hpos (not_lt.mp hle)
  rw [log_magnitude hc, log_magnitude hd] at hlog
  omega

theorem natCast_shifted {k : ℤ} (hk : k ≤ e) :
    ((c * 10 ^ (e - k).toNat : ℕ) : ℚ) * 10 ^ k = c * 10 ^ e := by
  rw [zpow_ten_eq hk]
  push_cast
  ring

theorem compareMagnitude_eq (hc : c ≠ 0) (hd : d ≠ 0) (e f : ℤ) :
    compareMagnitude c e d f = compare ((c : ℚ) * 10 ^ e) (d * 10 ^ f) := by
  rw [compareMagnitude, if_neg (by tauto)]
  rcases lt_trichotomy (adjusted c e) (adjusted d f) with hlt | heq | hgt
  · rw [compare_lt_iff_lt.mpr hlt, compare_lt_iff_lt.mpr (magnitude_lt_of_adjusted_lt hc hd hlt)]
  · rw [compare_eq_iff_eq.mpr heq]
    generalize hleast : min e f = least
    have he : least ≤ e := hleast ▸ min_le_left e f
    have hf : least ≤ f := hleast ▸ min_le_right e f
    calc
      compare (c * 10 ^ (e - least).toNat) (d * 10 ^ (f - least).toNat) =
          compare ((c * 10 ^ (e - least).toNat : ℕ) : ℚ) (d * 10 ^ (f - least).toNat : ℕ) :=
        (compare_map Nat.strictMono_cast _ _).symm
      _ = compare (((c * 10 ^ (e - least).toNat : ℕ) : ℚ) * 10 ^ least)
          ((d * 10 ^ (f - least).toNat : ℕ) * 10 ^ least) :=
        (compare_mul_zpow_ten _ _ least).symm
      _ = compare ((c : ℚ) * 10 ^ e) (d * 10 ^ f) := by
        rw [natCast_shifted he, natCast_shifted hf]
  · rw [compare_gt_iff_gt.mpr hgt, compare_gt_iff_gt.mpr (magnitude_lt_of_adjusted_lt hd hc hgt)]

/-! ## Decimals -/

theorem magnitude_pos (hc : c ≠ 0) (e : ℤ) : (0 : ℚ) < c * 10 ^ e :=
  mul_pos (by exact_mod_cast Nat.pos_of_ne_zero hc) (zpow_ten_pos e)

theorem value_positive (c : ℕ) (e : ℤ) : (Decimal.finite false c e).value = c * 10 ^ e := by
  simp [Decimal.value, signedCoefficient]

theorem value_negative (c : ℕ) (e : ℤ) : (Decimal.finite true c e).value = -(c * 10 ^ e) := by
  simp [Decimal.value, signedCoefficient]

/-- Beside zero, the sign decides. -/
theorem compare_zero_value (hc : c ≠ 0) (negative : Bool) (e : ℤ) :
    compare 0 (Decimal.finite negative c e).value = if negative then .gt else .lt := by
  have hpos := magnitude_pos hc e
  cases negative with
  | false => exact compare_lt_iff_lt.mpr (by rwa [value_positive])
  | true => exact compare_gt_iff_gt.mpr (by rwa [value_negative, neg_lt_zero])

theorem compare_value_zero (hc : c ≠ 0) (negative : Bool) (e : ℤ) :
    compare (Decimal.finite negative c e).value 0 = if negative then .lt else .gt := by
  have hpos := magnitude_pos hc e
  cases negative with
  | false => exact compare_gt_iff_gt.mpr (by rwa [value_positive])
  | true => exact compare_lt_iff_lt.mpr (by rwa [value_negative, neg_lt_zero])

theorem compare_values_of_ne {a b : Bool} (hab : a ≠ b) (hc : c ≠ 0) (hd : d ≠ 0) (e f : ℤ) :
    compare (Decimal.finite a c e).value (Decimal.finite b d f).value = if a then .lt else .gt := by
  have hleft := magnitude_pos hc e
  have hright := magnitude_pos hd f
  cases a with
  | false =>
      obtain rfl : b = true := by simpa using hab.symm
      rw [value_positive, value_negative]
      exact compare_gt_iff_gt.mpr ((neg_lt_zero.mpr hright).trans hleft)
  | true =>
      obtain rfl : b = false := by simpa using hab.symm
      rw [value_positive, value_negative]
      exact compare_lt_iff_lt.mpr ((neg_lt_zero.mpr hleft).trans hright)

end

/-- The order of finite decimals is the order of their values. -/
theorem Decimal.compare?_eq {x y : Decimal} (hx : x.isFinite = true) (hy : y.isFinite = true) :
    x.compare? y = some (compare x.value y.value) := by
  obtain ⟨a, c, e, rfl⟩ := exists_finite hx
  obtain ⟨b, d, f, rfl⟩ := exists_finite hy
  rw [Decimal.compare?]
  by_cases hc : c = 0
  · rw [value_eq_zero_iff.mpr hc]
    by_cases hd : d = 0
    · rw [if_pos ⟨hc, hd⟩, value_eq_zero_iff.mpr hd, compare_eq_iff_eq.mpr rfl]
    · rw [if_neg (by tauto), if_pos hc, compare_zero_value hd]
  · by_cases hd : d = 0
    · rw [if_neg (by tauto), if_neg hc, if_pos hd, value_eq_zero_iff.mpr hd, compare_value_zero hc]
    · rw [if_neg (by tauto), if_neg hc, if_neg hd]
      by_cases hab : a = b
      · subst hab
        rw [if_neg (by simp)]
        cases a with
        | false =>
            rw [if_neg (by simp), compareMagnitude_eq hc hd, value_positive, value_positive]
        | true =>
            rw [if_pos rfl, compareMagnitude_eq hd hc, value_negative, value_negative, compare_neg]
      · rw [if_pos hab, compare_values_of_ne hab hc hd]

/-! ## Numbers of all kinds -/

/-- The rational number that a finite double stands for. -/
def Binary64.value : Binary64 → ℚ
  | finite negative m e => signedMantissa negative m * 2 ^ e
  | _ => 0

theorem reduceFraction_spec (fuel m k : ℕ) :
    ((reduceFraction fuel m k).1 : ℚ) * 2 ^ k = m * 2 ^ (reduceFraction fuel m k).2 := by
  induction fuel generalizing m k with
  | zero => rfl
  | succ fuel ih =>
      rw [reduceFraction]
      split
      next heven =>
        obtain ⟨hk, hm⟩ := heven
        obtain ⟨j, rfl⟩ := Nat.exists_eq_succ_of_ne_zero hk
        obtain ⟨n, rfl⟩ := Nat.dvd_of_mod_eq_zero hm
        have hhalf : 2 * n / 2 = n := by omega
        have hless : j.succ - 1 = j := rfl
        rw [hhalf, hless, pow_succ]
        push_cast
        linear_combination 2 * ih n j
      · rfl

theorem five_pow_mul_zpow_ten (k : ℕ) : ((5 ^ k : ℕ) : ℚ) * 10 ^ (-(k : ℤ)) = 2 ^ (-(k : ℤ)) := by
  have hten : (10 : ℚ) ^ k = 2 ^ k * 5 ^ k := by
    rw [← mul_pow]
    norm_num
  rw [zpow_neg, zpow_neg, zpow_natCast, zpow_natCast, hten, mul_inv, mul_comm _ (5 ^ k : ℚ)⁻¹]
  push_cast
  rw [mul_inv_cancel_left₀ (pow_ne_zero k (by norm_num))]

/-- The decimal that a double is compared as has its value. -/
theorem value_ofBinary64 (x : Binary64) : (Decimal.ofBinary64 x).value = x.value := by
  cases x with
  | infinite negative | nan origin => rfl
  | finite negative m e =>
      have hsigned {c : ℕ} {k : ℤ} (hsame : (c : ℚ) * 10 ^ k = m * 2 ^ e) :
          (Decimal.finite negative c k).value = (Binary64.finite negative m e).value := by
        cases negative with
        | false => simpa [value_positive, Binary64.value, Binary64.signedMantissa] using hsame
        | true => simpa [value_negative, Binary64.value, Binary64.signedMantissa] using hsame
      rw [ofBinary64]
      by_cases he : 0 ≤ e
      · rw [if_pos he]
        apply hsigned
        obtain ⟨n, rfl⟩ := Int.eq_ofNat_of_zero_le he
        simp
      · rw [if_neg he]
        obtain ⟨n, rfl⟩ : ∃ n : ℕ, e = -n := ⟨(-e).toNat, by omega⟩
        by_cases hm : m = 0
        · rw [if_pos hm]
          apply hsigned
          simp [hm]
        · rw [if_neg hm]
          have hfuel : (-(-(n : ℤ))).toNat = n := by omega
          rw [hfuel]
          have hspec := reduceFraction_spec n m n
          generalize reduceFraction n m n = reduced at hspec ⊢
          obtain ⟨m', k⟩ := reduced
          apply hsigned
          have htwo (j : ℕ) : (2 : ℚ) ^ j ≠ 0 := pow_ne_zero j (by norm_num)
          calc
            ((m' * 5 ^ k : ℕ) : ℚ) * 10 ^ (-(k : ℤ)) = m' * 2 ^ (-(k : ℤ)) := by
              rw [← five_pow_mul_zpow_ten k]
              push_cast
              ring
            _ = m * 2 ^ (-(n : ℤ)) := by
              rw [zpow_neg, zpow_neg, zpow_natCast, zpow_natCast, ← div_eq_mul_inv,
                ← div_eq_mul_inv, div_eq_div_iff (htwo k) (htwo n)]
              exact hspec

theorem isFinite_ofBinary64 (x : Binary64) : (Decimal.ofBinary64 x).isFinite = x.isFinite := by
  cases x with
  | finite negative m e =>
      rw [ofBinary64]
      split
      · rfl
      · split <;> rfl
  | infinite negative | nan origin => rfl

theorem isNaN_ofBinary64 (x : Binary64) : (Decimal.ofBinary64 x).isNaN = x.isNaN := by
  cases x with
  | finite negative m e =>
      rw [ofBinary64]
      split
      · rfl
      · split <;> rfl
  | infinite negative | nan origin => rfl

theorem Decimal.isFinite_eq_of_compare? {d e : Decimal} (hequal : d.compare? e = some .eq) :
    d.isFinite = e.isFinite := by
  cases d <;> cases e <;> simp [compare?, isFinite] at hequal ⊢

theorem Decimal.notNaN_of_compare? {d e : Decimal} {o : Ordering}
    (hcompare : d.compare? e = some o) : d.isNaN = false ∧ e.isNaN = false := by
  cases d <;> cases e <;> simp [compare?, isNaN] at hcompare ⊢

namespace Number

variable {x y : Number}

theorem isFinite_exact (x : Number) : x.exact.isFinite = x.isFinite := by
  cases x with
  | int n => rfl
  | float x => exact isFinite_ofBinary64 x
  | decimal d => rfl

theorem isNaN_exact (x : Number) : x.exact.isNaN = x.isNaN := by
  cases x with
  | int n => rfl
  | float x => exact isNaN_ofBinary64 x
  | decimal d => rfl

/-- The order of finite numbers, whatever their kinds, is the order of their values. -/
theorem compare?_eq (hx : x.isFinite = true) (hy : y.isFinite = true) :
    x.compare? y = some (compare x.value y.value) := by
  rw [← isFinite_exact] at hx hy
  exact Decimal.compare?_eq hx hy

theorem isFinite_eq_of_compare? (hequal : x.compare? y = some .eq) : x.isFinite = y.isFinite := by
  rw [← isFinite_exact x, ← isFinite_exact y]
  exact Decimal.isFinite_eq_of_compare? hequal

theorem value_eq_of_compare? (hequal : x.compare? y = some .eq) (hx : x.isFinite = true) :
    x.value = y.value := by
  have hy : y.isFinite = true := isFinite_eq_of_compare? hequal ▸ hx
  rwa [compare?_eq hx hy, Option.some.injEq, compare_eq_iff_eq] at hequal

theorem notNaN_of_compare? {o : Ordering} (hcompare : x.compare? y = some o) :
    x.isNaN = false ∧ y.isNaN = false := by
  rw [← isNaN_exact x, ← isNaN_exact y]
  exact Decimal.notNaN_of_compare? hcompare

end Number

end ModelPlaybook
