import Mathlib
import ModelPlaybook.Proofs.Number.ExactOrder

/-!
# The nearest double

A quotient is turned into the double nearest to it.  Which double that is depends on the quotient
as a rational number alone, and a finite one lies within half a unit of its last place.  Above the
least normal double and below the greatest one the mantissa has all of its bits, so that the
distance is small against the number itself.
-/

namespace ModelPlaybook

/-! ## Powers of two -/

theorem zpow_two_pos (k : ℤ) : (0 : ℚ) < 2 ^ k :=
  zpow_pos (by norm_num) k

theorem zpow_two_toNat (k : ℤ) :
    ((2 ^ k.toNat : ℕ) : ℚ) = ((2 ^ (-k).toNat : ℕ) : ℚ) * 2 ^ k := by
  have hexponent : (k.toNat : ℤ) = ((-k).toNat : ℤ) + k := by omega
  push_cast
  rw [← zpow_natCast, ← zpow_natCast, hexponent, zpow_add₀ (by norm_num)]

/-! ## Rounding to a whole number -/

namespace Rounding

/-- Rounding to the nearest whole number goes down where at most half a unit is cut off, and up
where at least half a unit is. -/
theorem divide_cases (negative : Bool) (a b : ℕ) :
    (halfEven.divide negative a b = a / b ∧ 2 * (a % b) ≤ b) ∨
      (halfEven.divide negative a b = a / b + 1 ∧ b ≤ 2 * (a % b)) := by
  have hgoes : halfEven.goesUp negative (a / b) (a % b) b = true ↔
      b < 2 * (a % b) ∨ 2 * (a % b) = b ∧ a / b % 2 = 1 := by
    simp [goesUp]
  by_cases hzero : a % b = 0
  · left
    simp [divide, hzero]
  · by_cases hup : halfEven.goesUp negative (a / b) (a % b) b = true
    · right
      have hhalf := hgoes.mp hup
      exact ⟨by simp [divide, hzero, hup], by omega⟩
    · left
      have hhalf := mt hgoes.mpr hup
      exact ⟨by simp [divide, hzero, hup], by omega⟩

theorem abs_divide_sub_le (negative : Bool) (a : ℕ) {b : ℕ} (hb : 0 < b) :
    |(halfEven.divide negative a b : ℚ) - a / b| ≤ 1 / 2 := by
  have hbq : (0 : ℚ) < b := by exact_mod_cast hb
  have hsplit : (a : ℚ) = b * (a / b : ℕ) + (a % b : ℕ) := by
    exact_mod_cast (Nat.div_add_mod a b).symm
  have hquotient : (a : ℚ) / b = (a / b : ℕ) + ((a % b : ℕ) : ℚ) / b := by
    rw [div_eq_iff hbq.ne', add_mul, div_mul_cancel₀ _ hbq.ne', mul_comm]
    exact hsplit
  have hpart : 0 ≤ ((a % b : ℕ) : ℚ) / b := by positivity
  have hless : ((a % b : ℕ) : ℚ) / b < 1 := by
    rw [div_lt_one hbq]
    exact_mod_cast Nat.mod_lt a hb
  rw [hquotient, abs_le]
  rcases divide_cases negative a b with ⟨hdown, hhalf⟩ | ⟨hup, hhalf⟩
  · have hhalf : ((a % b : ℕ) : ℚ) / b ≤ 1 / 2 := by
      rw [div_le_div_iff₀ hbq (by norm_num)]
      exact_mod_cast (by omega : (a % b) * 2 ≤ 1 * b)
    rw [hdown]
    constructor <;> linarith
  · have hhalf : 1 / 2 ≤ ((a % b : ℕ) : ℚ) / b := by
      rw [div_le_div_iff₀ (by norm_num) hbq]
      exact_mod_cast (by omega : 1 * b ≤ (a % b) * 2)
    rw [hup]
    push_cast
    constructor <;> linarith

theorem divide_mul_left (negative : Bool) {k : ℕ} (hk : 0 < k) (a b : ℕ) :
    halfEven.divide negative (k * a) (k * b) = halfEven.divide negative a b := by
  have hzero : k * (a % b) = 0 ↔ a % b = 0 := by simp [hk.ne']
  have hless : k * b < 2 * (k * (a % b)) ↔ b < 2 * (a % b) := by
    rw [show 2 * (k * (a % b)) = k * (2 * (a % b)) by ring]
    exact Nat.mul_lt_mul_left hk
  have hsame : 2 * (k * (a % b)) = k * b ↔ 2 * (a % b) = b := by
    rw [show 2 * (k * (a % b)) = k * (2 * (a % b)) by ring]
    exact Nat.mul_right_inj hk.ne'
  simp only [divide, goesUp, Nat.mul_div_mul_left a b hk, Nat.mul_mod_mul_left, hzero, hless,
    Bool.beq_eq_decide_eq, hsame]

/-- The rounded quotient depends on the quotient alone. -/
theorem divide_congr (negative : Bool) {a b c d : ℕ} (hb : 0 < b) (hd : 0 < d)
    (hsame : a * d = c * b) :
    halfEven.divide negative a b = halfEven.divide negative c d := by
  rw [← divide_mul_left negative hd a b, ← divide_mul_left negative hb c d, mul_comm d a,
    mul_comm b c, hsame, mul_comm d b]

end Rounding

namespace Binary64

/-! ## The unit of the last place -/

section

variable {num den : ℕ}

theorem zpow_log2_le (hnum : 0 < num) : (2 : ℚ) ^ (num.log2 : ℤ) ≤ num := by
  rw [zpow_natCast]
  exact_mod_cast Nat.log2_self_le hnum.ne'

theorem lt_zpow_log2_succ (num : ℕ) : (num : ℚ) < 2 ^ ((num.log2 : ℤ) + 1) := by
  have hlt : num < 2 ^ (num.log2 + 1) := Nat.lt_log2_self
  exact_mod_cast hlt

/-- The binary lengths of two numbers settle the logarithm of their quotient up to one. -/
theorem log_quotient_bounds (hnum : 0 < num) (hden : 0 < den) :
    (num.log2 : ℤ) - den.log2 - 1 ≤ Int.log 2 ((num : ℚ) / den) ∧
      Int.log 2 ((num : ℚ) / den) ≤ (num.log2 : ℤ) - den.log2 := by
  have hdenq : (0 : ℚ) < den := by exact_mod_cast hden
  have hquotient : (0 : ℚ) < num / den := div_pos (by exact_mod_cast hnum) hdenq
  constructor
  · apply (Int.zpow_le_iff_le_log (by norm_num) hquotient).mp
    rw [le_div_iff₀ hdenq]
    calc
      ((2 : ℕ) : ℚ) ^ ((num.log2 : ℤ) - den.log2 - 1) * den
          ≤ 2 ^ ((num.log2 : ℤ) - den.log2 - 1) * 2 ^ ((den.log2 : ℤ) + 1) :=
        mul_le_mul_of_nonneg_left (lt_zpow_log2_succ den).le (zpow_two_pos _).le
      _ = 2 ^ (num.log2 : ℤ) := by
        rw [← zpow_add₀ (by norm_num)]
        congr 1
        ring
      _ ≤ num := zpow_log2_le hnum
  · apply Int.lt_add_one_iff.mp
    apply (Int.lt_zpow_iff_log_lt (by norm_num) hquotient).mp
    rw [div_lt_iff₀ hdenq]
    calc
      (num : ℚ) < 2 ^ ((num.log2 : ℤ) + 1) := lt_zpow_log2_succ num
      _ = 2 ^ ((num.log2 : ℤ) - den.log2 + 1) * 2 ^ (den.log2 : ℤ) := by
        rw [← zpow_add₀ (by norm_num)]
        congr 1
        ring
      _ ≤ ((2 : ℕ) : ℚ) ^ ((num.log2 : ℤ) - den.log2 + 1) * den :=
        mul_le_mul_of_nonneg_left (zpow_log2_le hden) (zpow_two_pos _).le

/-- The unit is the one that leaves fifty-three bits of the quotient. -/
theorem unitExponent_eq (hnum : 0 < num) (hden : 0 < den) :
    unitExponent num den = max (Int.log 2 ((num : ℚ) / den) - 52) (-1074) := by
  have hdenq : (0 : ℚ) < den := by exact_mod_cast hden
  have hquotient : (0 : ℚ) < num / den := div_pos (by exact_mod_cast hnum) hdenq
  obtain ⟨hlow, hhigh⟩ := log_quotient_bounds hnum hden
  set guess : ℤ := (num.log2 : ℤ) - den.log2 - 52 with hguess
  have hscaled : num * 2 ^ (-guess).toNat < den * 2 ^ guess.toNat * 2 ^ 52 ↔
      Int.log 2 ((num : ℚ) / den) < (num.log2 : ℤ) - den.log2 := by
    rw [← Int.lt_zpow_iff_log_lt (by norm_num) hquotient, div_lt_iff₀ hdenq]
    have hshift : (0 : ℚ) < ((2 ^ (-guess).toNat : ℕ) : ℚ) := by positivity
    have hpower : (2 : ℚ) ^ ((num.log2 : ℤ) - den.log2) = 2 ^ guess * 2 ^ (52 : ℕ) := by
      rw [← zpow_natCast, ← zpow_add₀ (by norm_num)]
      congr 1
      omega
    have hright : ((den * 2 ^ guess.toNat * 2 ^ 52 : ℕ) : ℚ) =
        ((2 : ℚ) ^ ((num.log2 : ℤ) - den.log2) * den) * ((2 ^ (-guess).toNat : ℕ) : ℚ) := by
      rw [Nat.cast_mul, Nat.cast_mul, zpow_two_toNat, hpower]
      push_cast
      ring
    rw [← Nat.cast_lt (α := ℚ), hright, Nat.cast_mul]
    exact mul_lt_mul_iff_left₀ hshift
  simp only [unitExponent, minExponent]
  rw [← hguess]
  by_cases hless : Int.log 2 ((num : ℚ) / den) < (num.log2 : ℤ) - den.log2
  · rw [if_pos (hscaled.mpr hless)]
    congr 1
    omega
  · rw [if_neg (mt hscaled.mp hless)]
    congr 1
    omega

/-! ## The nearest double -/

theorem quotient_scaled (num den : ℕ) (e : ℤ) :
    ((num * 2 ^ (-e).toNat : ℕ) : ℚ) / ((den * 2 ^ e.toNat : ℕ) : ℚ) = num / den / 2 ^ e := by
  have hshift : ((2 ^ (-e).toNat : ℕ) : ℚ) ≠ 0 := by positivity
  have hpower : (2 : ℚ) ^ e ≠ 0 := (zpow_two_pos e).ne'
  rw [Nat.cast_mul, Nat.cast_mul, zpow_two_toNat e]
  field_simp

/-- The nearest double depends on the quotient as a number alone. -/
theorem ofQuotient_congr (negative : Bool) {num' den' : ℕ} (hden : 0 < den) (hden' : 0 < den')
    (hsame : num * den' = num' * den) :
    ofQuotient negative num den = ofQuotient negative num' den' := by
  have hzero : num = 0 ↔ num' = 0 := by
    constructor
    · rintro rfl
      simpa [hden.ne'] using hsame.symm
    · rintro rfl
      simpa [hden'.ne'] using hsame
  by_cases hnum : num = 0
  · unfold ofQuotient
    rw [if_pos hnum, if_pos (hzero.mp hnum)]
  · have hnum' : num' ≠ 0 := mt hzero.mpr hnum
    have hquotient : (num : ℚ) / den = num' / den' := by
      rw [div_eq_div_iff (by exact_mod_cast hden.ne') (by exact_mod_cast hden'.ne')]
      exact_mod_cast hsame
    have hunit : unitExponent num den = unitExponent num' den' := by
      rw [unitExponent_eq (by omega) hden, unitExponent_eq (by omega) hden', hquotient]
    have hmantissa (e : ℤ) :
        Rounding.halfEven.divide negative (num * 2 ^ (-e).toNat) (den * 2 ^ e.toNat) =
          Rounding.halfEven.divide negative (num' * 2 ^ (-e).toNat) (den' * 2 ^ e.toNat) := by
      apply Rounding.divide_congr negative (by positivity) (by positivity)
      calc
        num * 2 ^ (-e).toNat * (den' * 2 ^ e.toNat)
            = num * den' * (2 ^ (-e).toNat * 2 ^ e.toNat) := by ring
        _ = num' * 2 ^ (-e).toNat * (den * 2 ^ e.toNat) := by
          rw [hsame]
          ring
    have hrounded : rounded negative num den = rounded negative num' den' := by
      simp only [rounded, hunit, hmantissa]
    unfold ofQuotient
    rw [if_neg hnum, if_neg hnum', hrounded]

/-- What a quotient is rounded to before a carry is passed on. -/
def mantissaOn (negative : Bool) (num den : ℕ) (u : ℤ) : ℕ :=
  Rounding.halfEven.divide negative (num * 2 ^ (-u).toNat) (den * 2 ^ u.toNat)

theorem abs_mantissaOn_sub_le (negative : Bool) (num : ℕ) (hden : 0 < den) (u : ℤ) :
    |(mantissaOn negative num den u * 2 ^ u : ℚ) - num / den| ≤ 2 ^ u / 2 := by
  have hrounds := Rounding.abs_divide_sub_le negative (num * 2 ^ (-u).toNat)
    (b := den * 2 ^ u.toNat) (by positivity)
  rw [quotient_scaled] at hrounds
  have hpower := zpow_two_pos u
  have hscaled : (mantissaOn negative num den u * 2 ^ u : ℚ) - num / den =
      (mantissaOn negative num den u - num / den / 2 ^ u) * 2 ^ u := by
    rw [sub_mul, div_mul_cancel₀ _ hpower.ne']
  rw [hscaled, abs_mul, abs_of_pos hpower]
  calc
    |(mantissaOn negative num den u : ℚ) - num / den / 2 ^ u| * 2 ^ u ≤ 1 / 2 * 2 ^ u :=
      mul_le_mul_of_nonneg_right hrounds hpower.le
    _ = 2 ^ u / 2 := by ring

variable {negative : Bool} {m : ℕ} {e : ℤ}

theorem rounded_eq (negative : Bool) (num den : ℕ) :
    rounded negative num den =
      if mantissaOn negative num den (unitExponent num den) = 2 ^ 53 then
        (2 ^ 52, unitExponent num den + 1)
      else (mantissaOn negative num den (unitExponent num den), unitExponent num den) :=
  rfl

/-- A carry does not change the number. -/
theorem value_rounded (hrounded : rounded negative num den = (m, e)) :
    (m * 2 ^ e : ℚ) =
        mantissaOn negative num den (unitExponent num den) * 2 ^ unitExponent num den ∧
      unitExponent num den ≤ e := by
  rw [rounded_eq] at hrounded
  by_cases hcarry : mantissaOn negative num den (unitExponent num den) = 2 ^ 53
  · rw [if_pos hcarry] at hrounded
    obtain ⟨rfl, rfl⟩ := Prod.mk.inj hrounded
    rw [hcarry, zpow_add₀ (by norm_num)]
    constructor
    · push_cast
      ring
    · omega
  · rw [if_neg hcarry] at hrounded
    obtain ⟨rfl, rfl⟩ := Prod.mk.inj hrounded
    exact ⟨rfl, le_refl _⟩

/-- Rounding moves by half a unit at most. -/
theorem abs_rounded_sub_le (hden : 0 < den) (hrounded : rounded negative num den = (m, e)) :
    |(m * 2 ^ e : ℚ) - num / den| ≤ 2 ^ e / 2 := by
  obtain ⟨hvalue, hunit⟩ := value_rounded hrounded
  rw [hvalue]
  calc
    _ ≤ (2 : ℚ) ^ unitExponent num den / 2 := abs_mantissaOn_sub_le negative num hden _
    _ ≤ 2 ^ e / 2 := by
      have hpower : (2 : ℚ) ^ unitExponent num den ≤ 2 ^ e :=
        zpow_le_zpow_right₀ (by norm_num) hunit
      linarith

/-- A finite double is within half a unit of the quotient that it is nearest to. -/
theorem abs_finite_sub_le {sign : Bool} (hden : 0 < den)
    (hnearest : ofQuotient negative num den = .finite sign m e) :
    |(m * 2 ^ e : ℚ) - num / den| ≤ 2 ^ e / 2 := by
  unfold ofQuotient at hnearest
  by_cases hnum : num = 0
  · rw [if_pos hnum] at hnearest
    obtain ⟨-, rfl, rfl⟩ := finite.inj hnearest
    have hpower := zpow_two_pos minExponent
    simp only [hnum, Nat.cast_zero, zero_mul, zero_div, sub_zero, abs_zero]
    linarith
  · rw [if_neg hnum] at hnearest
    generalize hpair : rounded negative num den = pair at hnearest
    obtain ⟨m', e'⟩ := pair
    dsimp only at hnearest
    by_cases hbig : maxExponent < e'
    · rw [if_pos hbig] at hnearest
      cases hnearest
    · rw [if_neg hbig] at hnearest
      obtain ⟨-, rfl, rfl⟩ := finite.inj hnearest
      exact abs_rounded_sub_le hden hpair

/-- A mantissa that has all of its bits. -/
def IsFull (m : ℕ) : Prop :=
  2 ^ 52 ≤ m ∧ m < 2 ^ 53

/-- Where the unit is not the least one, the mantissa has all of its bits or is about to carry. -/
theorem mantissaOn_bounds (negative : Bool) (hnum : 0 < num) (hden : 0 < den) :
    2 ^ 52 ≤ mantissaOn negative num den (Int.log 2 ((num : ℚ) / den) - 52) ∧
      mantissaOn negative num den (Int.log 2 ((num : ℚ) / den) - 52) ≤ 2 ^ 53 := by
  have hdenq : (0 : ℚ) < den := by exact_mod_cast hden
  have hquotient : (0 : ℚ) < num / den := div_pos (by exact_mod_cast hnum) hdenq
  set u : ℤ := Int.log 2 ((num : ℚ) / den) - 52 with hu
  have hpower := zpow_two_pos u
  have hlow : (2 : ℚ) ^ 52 ≤ num / den / 2 ^ u := by
    rw [le_div_iff₀ hpower, ← zpow_natCast, ← zpow_add₀ (by norm_num)]
    apply (Int.zpow_le_iff_le_log (b := 2) (by norm_num) hquotient).mpr
    push_cast
    omega
  have hhigh : (num : ℚ) / den / 2 ^ u < 2 ^ 53 := by
    rw [div_lt_iff₀ hpower, ← zpow_natCast, ← zpow_add₀ (by norm_num)]
    apply (Int.lt_zpow_iff_log_lt (b := 2) (by norm_num) hquotient).mpr
    push_cast
    omega
  have hrounds := Rounding.abs_divide_sub_le negative (num * 2 ^ (-u).toNat)
    (b := den * 2 ^ u.toNat) (by positivity)
  rw [quotient_scaled, abs_le] at hrounds
  constructor
  · have hlt : ((2 ^ 52 : ℕ) : ℚ) < mantissaOn negative num den u + 1 := by
      unfold mantissaOn
      push_cast
      linarith
    have hnat : 2 ^ 52 < mantissaOn negative num den u + 1 := by exact_mod_cast hlt
    omega
  · have hlt : (mantissaOn negative num den u : ℚ) < ((2 ^ 53 : ℕ) : ℚ) + 1 := by
      unfold mantissaOn
      push_cast
      linarith
    have hnat : mantissaOn negative num den u < 2 ^ 53 + 1 := by exact_mod_cast hlt
    omega

/-- A quotient above the least normal double and below the greatest one is rounded to a mantissa
with all of its bits. -/
theorem exists_full (hnum : 0 < num) (hden : 0 < den)
    (hlow : (2 : ℚ) ^ (-1022 : ℤ) ≤ num / den) (hhigh : (num : ℚ) / den < 2 ^ (1023 : ℤ)) :
    ∃ m e, ofQuotient negative num den = .finite negative m e ∧ IsFull m := by
  have hdenq : (0 : ℚ) < den := by exact_mod_cast hden
  have hquotient : (0 : ℚ) < num / den := div_pos (by exact_mod_cast hnum) hdenq
  have hleast : -1022 ≤ Int.log 2 ((num : ℚ) / den) :=
    (Int.zpow_le_iff_le_log (b := 2) (by norm_num) hquotient).mp hlow
  have hgreatest : Int.log 2 ((num : ℚ) / den) < 1023 :=
    (Int.lt_zpow_iff_log_lt (b := 2) (by norm_num) hquotient).mp hhigh
  have hunit : unitExponent num den = Int.log 2 ((num : ℚ) / den) - 52 := by
    rw [unitExponent_eq hnum hden]
    omega
  obtain ⟨hbits, hcarry⟩ := mantissaOn_bounds negative hnum hden
  rw [← hunit] at hbits hcarry
  have hrounded : ∃ m e, rounded negative num den = (m, e) ∧ IsFull m ∧ e ≤ 971 := by
    rw [rounded_eq]
    by_cases hfull : mantissaOn negative num den (unitExponent num den) = 2 ^ 53
    · exact ⟨_, _, if_pos hfull, ⟨by norm_num, by norm_num⟩, by omega⟩
    · exact ⟨_, _, if_neg hfull, ⟨hbits, by omega⟩, by omega⟩
  obtain ⟨m, e, hpair, hfull, hfits⟩ := hrounded
  refine ⟨m, e, ?_, hfull⟩
  unfold ofQuotient
  rw [if_neg hnum.ne', hpair]
  exact if_neg (by simpa [maxExponent] using hfits)

end

end Binary64

end ModelPlaybook
