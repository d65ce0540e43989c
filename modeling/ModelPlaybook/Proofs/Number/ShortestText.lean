import Mathlib
import ModelPlaybook.Number.Shortest
import ModelPlaybook.Proofs.Number.Nearest

/-!
# Shortest decimal numbers

A double is written with the fewest digits that read back as the double.  A decimal number of no
more than fifteen digits is the only one of its kind that is read as the double nearest to it, and
so it is what this double is written as.
-/

namespace ModelPlaybook

open Binary64

namespace Shortest

/-! ## Decimal exponents -/

section

variable {num den : ℕ}

/-- The leading digit of a number stands where powers of ten enclose it. -/
theorem log_eq_of_enclosed {q : ℚ} {k : ℤ} (hlow : 10 ^ k ≤ q) (hhigh : q < 10 ^ (k + 1)) :
    Int.log 10 q = k := by
  have hpos : 0 < q := (zpow_ten_pos k).trans_le hlow
  have hle : k ≤ Int.log 10 q := (Int.zpow_le_iff_le_log (b := 10) (by norm_num) hpos).mp hlow
  have hlt : Int.log 10 q < k + 1 :=
    (Int.lt_zpow_iff_log_lt (b := 10) (by norm_num) hpos).mp hhigh
  omega

theorem natCast_succ_le_zpow_ten (n : ℕ) : (n : ℚ) + 1 ≤ 10 ^ (Text.digitCount n : ℤ) := by
  rw [zpow_natCast]
  exact_mod_cast Text.lt_ten_pow_digitCount n

theorem log_ratio_of_le (hden : 0 < den) (hle : den ≤ num) :
    Int.log 10 ((num : ℚ) / den) = (Text.digitCount (num / den) : ℤ) - 1 := by
  have hdenq : (0 : ℚ) < den := by exact_mod_cast hden
  have hfloor : num / den ≠ 0 := (Nat.div_pos hle hden).ne'
  apply log_eq_of_enclosed
  · calc
      (10 : ℚ) ^ ((Text.digitCount (num / den) : ℤ) - 1)
          = 10 ^ (Text.decimalLog (num / den) : ℤ) := by
        congr 1
        simp [Text.digitCount]
      _ ≤ ((num / den : ℕ) : ℚ) := zpow_ten_le_natCast hfloor
      _ ≤ num / den := Nat.cast_div_le
  · have hnext : num < (num / den + 1) * den := Nat.lt_mul_of_div_lt (Nat.lt_succ_self _) hden
    calc
      (num : ℚ) / den < ((num / den : ℕ) : ℚ) + 1 := by
        rw [div_lt_iff₀ hdenq]
        exact_mod_cast hnext
      _ ≤ 10 ^ ((Text.digitCount (num / den) : ℤ) - 1 + 1) := by
        rw [sub_add_cancel]
        exact natCast_succ_le_zpow_ten _

/-- One less than the quotient rounded up is the greatest number below the quotient. -/
theorem pred_ceiling_bounds (hnum : 0 < num) (hless : num < den) :
    ((den + num - 1) / num - 1) * num < den ∧ den ≤ ((den + num - 1) / num - 1 + 1) * num := by
  have hdiv := Nat.div_add_mod (den + num - 1) num
  have hmod := Nat.mod_lt (den + num - 1) hnum
  have htwo : 1 < (den + num - 1) / num := by
    rw [Nat.lt_div_iff_mul_lt hnum]
    omega
  obtain ⟨c, hc⟩ : ∃ c, (den + num - 1) / num = c + 2 := ⟨_, (Nat.sub_add_cancel htwo).symm⟩
  rw [hc, show num * (c + 2) = num * c + 2 * num by ring] at hdiv
  rw [hc, show c + 2 - 1 = c + 1 by omega, show (c + 1) * num = num * c + num by ring,
    show (c + 1 + 1) * num = num * c + 2 * num by ring]
  omega

theorem log_ratio_of_lt (hnum : 0 < num) (hless : num < den) :
    Int.log 10 ((num : ℚ) / den) = -(Text.digitCount ((den + num - 1) / num - 1) : ℤ) := by
  have hnumq : (0 : ℚ) < num := by exact_mod_cast hnum
  have hdenq : (0 : ℚ) < den := by exact_mod_cast hnum.trans hless
  obtain ⟨hbelow, habove⟩ := pred_ceiling_bounds hnum hless
  set n := (den + num - 1) / num - 1
  have hsome : n ≠ 0 := by
    intro hzero
    rw [hzero] at habove
    omega
  apply log_eq_of_enclosed
  · rw [le_div_iff₀ hdenq, zpow_neg, inv_mul_le_iff₀ (zpow_ten_pos _)]
    calc
      (den : ℚ) ≤ (n + 1) * num := by exact_mod_cast habove
      _ ≤ 10 ^ (Text.digitCount n : ℤ) * num :=
        mul_le_mul_of_nonneg_right (natCast_succ_le_zpow_ten n) hnumq.le
  · have hpower : (10 : ℚ) ^ (-(Text.digitCount n : ℤ) + 1) =
        (10 ^ (Text.decimalLog n : ℤ))⁻¹ := by
      rw [← zpow_neg]
      congr 1
      simp [Text.digitCount]
    rw [hpower, div_lt_iff₀ hdenq, lt_inv_mul_iff₀ (zpow_ten_pos _)]
    calc
      (10 : ℚ) ^ (Text.decimalLog n : ℤ) * num ≤ n * num :=
        mul_le_mul_of_nonneg_right (zpow_ten_le_natCast hsome) hnumq.le
      _ < den := by exact_mod_cast hbelow

theorem decimalExponent_eq (hnum : 0 < num) (hden : 0 < den) :
    decimalExponent num den = Int.log 10 ((num : ℚ) / den) := by
  unfold decimalExponent
  by_cases hle : den ≤ num
  · rw [if_pos hle, log_ratio_of_le hden hle]
  · rw [if_neg hle, log_ratio_of_lt hnum (Nat.lt_of_not_le hle)]

end

/-! ## Candidates -/

namespace Candidate

/-- The number that a candidate is. -/
def value (c : Candidate) : ℚ :=
  c.coefficient * 10 ^ c.exponent

theorem onGrid (c : Candidate) : OnGrid c.exponent c.value :=
  ⟨c.coefficient, by simp [value]⟩

theorem quotient_eq_value (c : Candidate) :
    ((c.coefficient * 10 ^ c.exponent.toNat : ℕ) : ℚ) / ((10 ^ (-c.exponent).toNat : ℕ) : ℚ) =
      c.value := by
  have hshift : ((10 ^ (-c.exponent).toNat : ℕ) : ℚ) ≠ 0 := by positivity
  rw [div_eq_iff hshift, Nat.cast_mul, zpow_ten_toNat, value]
  ring

/-- Candidates of one value are read as one double. -/
theorem toBinary64_congr {c d : Candidate} (hsame : c.value = d.value) :
    c.toBinary64 = d.toBinary64 := by
  have hcross : ((c.coefficient * 10 ^ c.exponent.toNat : ℕ) : ℚ) /
      ((10 ^ (-c.exponent).toNat : ℕ) : ℚ) =
        ((d.coefficient * 10 ^ d.exponent.toNat : ℕ) : ℚ) /
          ((10 ^ (-d.exponent).toNat : ℕ) : ℚ) := by
    rw [quotient_eq_value, quotient_eq_value, hsame]
  rw [div_eq_div_iff (by positivity) (by positivity)] at hcross
  exact ofQuotient_congr false (by positivity) (by positivity) (by exact_mod_cast hcross)

theorem abs_sub_value_le {c : Candidate} {sign : Bool} {m : ℕ} {e : ℤ}
    (hread : c.toBinary64 = .finite sign m e) : |(m * 2 ^ e : ℚ) - c.value| ≤ 2 ^ e / 2 := by
  rw [← quotient_eq_value]
  exact abs_finite_sub_le (by positivity) hread

end Candidate

/-! ## One grid -/

section

variable {x : Binary64} {num den count : ℕ} {c : Candidate}

/-- The unit of the grid of so many significant digits. -/
def gridExponent (num den count : ℕ) : ℤ :=
  decimalExponent num den - ((count : ℤ) - 1)

theorem quotient_scaled_ten (num den : ℕ) (e : ℤ) :
    ((num * 10 ^ (-e).toNat : ℕ) : ℚ) / ((den * 10 ^ e.toNat : ℕ) : ℚ) = num / den / 10 ^ e := by
  have hshift : ((10 ^ (-e).toNat : ℕ) : ℚ) ≠ 0 := by positivity
  have hpower : (10 : ℚ) ^ e ≠ 0 := (zpow_ten_pos e).ne'
  rw [Nat.cast_mul, Nat.cast_mul, zpow_ten_toNat e]
  field_simp

/-- The greatest multiple of the unit of a grid that does not exceed a quotient. -/
def lowOn (num den : ℕ) (e : ℤ) : ℕ :=
  num * 10 ^ (-e).toNat / (den * 10 ^ e.toNat)

theorem lowOn_eq_floor (num den : ℕ) (e : ℤ) : lowOn num den e = ⌊(num : ℚ) / den / 10 ^ e⌋₊ := by
  rw [← quotient_scaled_ten, Nat.floor_div_eq_div]
  rfl

/-- One of the two candidates between which a quotient lies on a grid. -/
def IsNeighbour (num den : ℕ) (e : ℤ) (c : Candidate) : Prop :=
  c = ⟨lowOn num den e, e⟩ ∨ c = ⟨lowOn num den e + 1, e⟩

theorem onGrid?_eq (x : Binary64) (num den count : ℕ) :
    onGrid? x num den count =
      let e := gridExponent num den count
      let below : Candidate := ⟨lowOn num den e, e⟩
      let above : Candidate := ⟨lowOn num den e + 1, e⟩
      if (below.toBinary64 == x && above.toBinary64 == x) = true then
        some (if Rounding.halfEven.goesUp false (lowOn num den e)
          (num * 10 ^ (-e).toNat % (den * 10 ^ e.toNat)) (den * 10 ^ e.toNat) = true
          then above else below)
      else if (below.toBinary64 == x) = true then some below
      else if (above.toBinary64 == x) = true then some above
      else none :=
  rfl

/-- What is found on a grid is a neighbour that reads back. -/
theorem reads_of_onGrid? (hfound : onGrid? x num den count = some c) :
    IsNeighbour num den (gridExponent num den count) c ∧ c.toBinary64 = x := by
  rw [onGrid?_eq] at hfound
  dsimp only at hfound
  split at hfound
  · next hboth =>
      obtain ⟨hbelow, habove⟩ := Bool.and_eq_true_iff.mp hboth
      obtain rfl := Option.some.inj hfound
      split
      · exact ⟨.inr rfl, beq_iff_eq.mp habove⟩
      · exact ⟨.inl rfl, beq_iff_eq.mp hbelow⟩
  · split at hfound
    · next hbelow =>
        obtain rfl := Option.some.inj hfound
        exact ⟨.inl rfl, beq_iff_eq.mp hbelow⟩
    · split at hfound
      · next habove =>
          obtain rfl := Option.some.inj hfound
          exact ⟨.inr rfl, beq_iff_eq.mp habove⟩
      · cases hfound

/-- If a neighbour reads back, one is found. -/
theorem onGrid?_ne_none (hneighbour : IsNeighbour num den (gridExponent num den count) c)
    (hread : c.toBinary64 = x) : onGrid? x num den count ≠ none := by
  rw [onGrid?_eq]
  dsimp only
  rcases hneighbour with rfl | rfl
  · rw [beq_iff_eq.mpr hread]
    split <;> simp
  · rw [beq_iff_eq.mpr hread]
    split
    · simp
    · split <;> simp

/-- A multiple of the unit less than a unit away from a quotient is a neighbour of it. -/
theorem isNeighbour_of_abs_lt {e : ℤ} (hnear : |(num : ℚ) / den - c.value| < 10 ^ e)
    (hexponent : c.exponent = e) : IsNeighbour num den e c := by
  have hpower := zpow_ten_pos e
  have hquotient : (0 : ℚ) ≤ num / den / 10 ^ e := by positivity
  rw [Candidate.value, hexponent] at hnear
  obtain ⟨hlow, hhigh⟩ := abs_lt.mp hnear
  have hbelow : (num : ℚ) / den / 10 ^ e < c.coefficient + 1 := by
    rw [div_lt_iff₀ hpower]
    linarith
  have habove : (c.coefficient : ℚ) < num / den / 10 ^ e + 1 := by
    rw [← sub_lt_iff_lt_add, lt_div_iff₀ hpower]
    linarith
  have hfloor := Nat.floor_le hquotient
  have hnext := Nat.lt_floor_add_one ((num : ℚ) / den / 10 ^ e)
  rw [← lowOn_eq_floor] at hfloor hnext
  have hle : lowOn num den e < c.coefficient + 1 := by
    have hlt : (lowOn num den e : ℚ) < c.coefficient + 1 := lt_of_le_of_lt hfloor hbelow
    exact_mod_cast hlt
  have hge : c.coefficient < lowOn num den e + 2 := by
    have hlt : (c.coefficient : ℚ) < lowOn num den e + 2 := by linarith
    exact_mod_cast hlt
  obtain ⟨coefficient, exponent⟩ := c
  obtain rfl : exponent = e := hexponent
  dsimp only at hle hge
  by_cases hsame : coefficient = lowOn num den exponent
  · left
    rw [hsame]
  · right
    rw [show coefficient = lowOn num den exponent + 1 by omega]

end

/-! ## Zeros at the end -/

theorem value_stripZeros (fuel : ℕ) (c : Candidate) : (stripZeros fuel c).value = c.value := by
  induction fuel generalizing c with
  | zero => rfl
  | succ fuel ih =>
      unfold stripZeros
      split
      · next hzero =>
          rw [ih]
          obtain ⟨n, hn⟩ : 10 ∣ c.coefficient := Nat.dvd_of_mod_eq_zero hzero.2
          simp only [Candidate.value, hn, Nat.mul_div_cancel_left n (by norm_num : 0 < 10),
            zpow_ten_add]
          push_cast
          ring
      · rfl

/-- No zero is left at the end where there is fuel for all of them. -/
theorem stripZeros_mod_ne (fuel : ℕ) (c : Candidate) (hsome : c.coefficient ≠ 0)
    (hfuel : c.coefficient < 10 ^ fuel) : (stripZeros fuel c).coefficient % 10 ≠ 0 := by
  induction fuel generalizing c with
  | zero =>
      rw [pow_zero] at hfuel
      omega
  | succ fuel ih =>
      unfold stripZeros
      split
      · rw [pow_succ] at hfuel
        apply ih <;> dsimp only <;> omega
      · next hzero => omega

theorem stripZeros_le (fuel : ℕ) (c : Candidate) :
    (stripZeros fuel c).coefficient ≤ c.coefficient := by
  induction fuel generalizing c with
  | zero => exact le_rfl
  | succ fuel ih =>
      unfold stripZeros
      split
      · exact (ih _).trans (Nat.div_le_self _ _)
      · exact le_rfl

/-! ## The digits of a double -/

section

variable {m : ℕ} {e : ℤ}

/-- The parts of the quotient that a double is. -/
def numerator (m : ℕ) (e : ℤ) : ℕ :=
  m * 2 ^ e.toNat

def denominator (e : ℤ) : ℕ :=
  2 ^ (-e).toNat

theorem quotient_eq (m : ℕ) (e : ℤ) :
    (numerator m e : ℚ) / denominator e = m * 2 ^ e := by
  have hshift : ((2 ^ (-e).toNat : ℕ) : ℚ) ≠ 0 := by positivity
  rw [numerator, denominator, div_eq_iff hshift, Nat.cast_mul, zpow_two_toNat]
  ring

/-- The numbers of digits that are tried, and what is found for each. -/
def trial (m : ℕ) (e : ℤ) (i : ℕ) : Option Candidate :=
  onGrid? (.finite false m e) (numerator m e) (denominator e) (i + 1)

theorem digits_eq (m : ℕ) (e : ℤ) :
    digits m e =
      match (List.range 17).findSome? (trial m e) with
      | some c => stripZeros 20 c
      | none => ⟨0, 0⟩ :=
  rfl

/-- Where the leading digit of a double stands. -/
theorem enclosed (hm : 0 < m) :
    10 ^ decimalExponent (numerator m e) (denominator e) ≤ (m * 2 ^ e : ℚ) ∧
      (m * 2 ^ e : ℚ) < 10 ^ (decimalExponent (numerator m e) (denominator e) + 1) := by
  have hpos : (0 : ℚ) < m * 2 ^ e := mul_pos (by exact_mod_cast hm) (zpow_two_pos e)
  have hlog : decimalExponent (numerator m e) (denominator e) = Int.log 10 (m * 2 ^ e : ℚ) := by
    rw [decimalExponent_eq (by unfold numerator; positivity) (by unfold denominator; positivity),
      quotient_eq]
  rw [hlog]
  exact ⟨Int.zpow_log_le_self (b := 10) (by norm_num) hpos,
    Int.lt_zpow_succ_log_self (b := 10) (by norm_num) _⟩

/-- The neighbours on a grid of so many digits have no more digits, or are the next power of
ten. -/
theorem lowOn_bounds (hm : 0 < m) (i : ℕ) :
    0 < lowOn (numerator m e) (denominator e)
        (gridExponent (numerator m e) (denominator e) (i + 1)) ∧
      lowOn (numerator m e) (denominator e)
        (gridExponent (numerator m e) (denominator e) (i + 1)) < 10 ^ (i + 1) := by
  obtain ⟨hlow, hhigh⟩ := enclosed (e := e) hm
  set k := decimalExponent (numerator m e) (denominator e) with hk
  have hgrid : gridExponent (numerator m e) (denominator e) (i + 1) = k - i := by
    simp [gridExponent, hk]
  have hpower := zpow_ten_pos (k - i)
  rw [hgrid, lowOn_eq_floor, quotient_eq]
  constructor
  · rw [Nat.floor_pos, one_le_div hpower]
    exact (zpow_le_zpow_right₀ (by norm_num) (by omega)).trans hlow
  · rw [Nat.floor_lt (div_nonneg (hlow.trans' (zpow_ten_pos k).le) hpower.le),
      div_lt_iff₀ hpower]
    calc
      (m * 2 ^ e : ℚ) < 10 ^ (k + 1) := hhigh
      _ = ((10 ^ (i + 1) : ℕ) : ℚ) * 10 ^ (k - i) := by
        rw [Nat.cast_pow, ← zpow_natCast, Nat.cast_ofNat, ← zpow_ten_add]
        congr 1
        push_cast
        ring

/-- What is tried with so many digits reads back and lies on the grid of so many digits. -/
theorem trial_spec (hm : 0 < m) {i : ℕ} {c : Candidate} (hfound : trial m e i = some c) :
    c.toBinary64 = .finite false m e ∧
      c.exponent = gridExponent (numerator m e) (denominator e) (i + 1) ∧
        0 < c.coefficient ∧ c.coefficient ≤ 10 ^ (i + 1) := by
  obtain ⟨hneighbour, hread⟩ := reads_of_onGrid? hfound
  obtain ⟨hpos, hlt⟩ := lowOn_bounds (e := e) hm i
  refine ⟨hread, ?_⟩
  rcases hneighbour with rfl | rfl
  · exact ⟨rfl, hpos, hlt.le⟩
  · exact ⟨rfl, Nat.succ_pos _, hlt⟩

/-- The digits of a double are few and end in no zero, unless there are none at all. -/
theorem digits_bounds (hm : 0 < m) :
    digits m e = ⟨0, 0⟩ ∨
      (digits m e).coefficient % 10 ≠ 0 ∧ (digits m e).coefficient ≤ 10 ^ 17 := by
  rw [digits_eq]
  split
  · next c hfound =>
      right
      obtain ⟨i, hi, htrial⟩ := List.exists_of_findSome?_eq_some hfound
      obtain ⟨-, -, hpos, hle⟩ := trial_spec hm htrial
      have hdigits : 10 ^ (i + 1) ≤ 10 ^ 17 :=
        Nat.pow_le_pow_right (by norm_num) (by simpa using hi)
      have hfuel : (10 : ℕ) ^ 17 < 10 ^ 20 := by norm_num
      exact ⟨stripZeros_mod_ne 20 c hpos.ne' (by omega), (stripZeros_le 20 c).trans (by omega)⟩
  · exact .inl rfl

/-! ## Decimal numbers of fifteen digits -/

variable {c d : Candidate}

theorem half_unit_le (hfull : IsFull m) : (2 : ℚ) ^ e / 2 ≤ m * 2 ^ e / 2 ^ 53 := by
  have hbits : (2 : ℚ) ^ 52 ≤ m := by exact_mod_cast hfull.1
  have hpower := zpow_two_pos e
  rw [div_le_div_iff₀ (by norm_num) (by norm_num)]
  calc
    (2 : ℚ) ^ e * 2 ^ 53 = (2 : ℚ) ^ 52 * 2 ^ e * 2 := by ring
    _ ≤ (m : ℚ) * 2 ^ e * 2 := by gcongr

/-- Decimal numbers that are read as one double are close together against a unit of its
fifteenth digit. -/
theorem abs_sub_lt_of_reads (hfull : IsFull m) (hc : c.toBinary64 = .finite false m e) :
    |(m * 2 ^ e : ℚ) - c.value| <
      10 ^ (decimalExponent (numerator m e) (denominator e) - 14) / 2 := by
  have hm : 0 < m := hfull.1.trans_lt' (by norm_num)
  obtain ⟨-, hhigh⟩ := enclosed (e := e) hm
  set k := decimalExponent (numerator m e) (denominator e)
  calc
    |(m * 2 ^ e : ℚ) - c.value| ≤ 2 ^ e / 2 := Candidate.abs_sub_value_le hc
    _ ≤ m * 2 ^ e / 2 ^ 53 := half_unit_le hfull
    _ < 10 ^ (k + 1) / 2 ^ 53 := by gcongr
    _ = 10 ^ (k - 14) * 10 ^ 15 / 2 ^ 53 := by
      rw [← zpow_natCast (10 : ℚ) 15, ← zpow_ten_add]
      congr 2
      push_cast
      ring
    _ ≤ 10 ^ (k - 14) / 2 := by
      have hpower := zpow_ten_pos (k - 14)
      rw [div_le_div_iff₀ (by norm_num) (by norm_num)]
      nlinarith

/-- A decimal number of fifteen digits lies on the grid of fifteen digits of the double that it is
read as. -/
theorem onGrid_of_reads (hfull : IsFull m) (hc : c.toBinary64 = .finite false m e)
    (hshort : c.coefficient < 10 ^ 15) :
    OnGrid (decimalExponent (numerator m e) (denominator e) - 14) c.value := by
  have hm : 0 < m := hfull.1.trans_lt' (by norm_num)
  obtain ⟨hlow, -⟩ := enclosed (e := e) hm
  set k := decimalExponent (numerator m e) (denominator e)
  by_cases hfine : k - 14 ≤ c.exponent
  · exact c.onGrid.of_le hfine
  -- On a finer grid the number would stay clear of the power of ten that the double reaches.
  · exfalso
    have hpower := zpow_ten_pos (k - 15)
    have hleading : (10 : ℚ) ^ k = 10 ^ 15 * 10 ^ (k - 15) := by
      rw [← zpow_natCast (10 : ℚ) 15, ← zpow_ten_add]
      congr 1
      push_cast
      ring
    have hcoefficient : (c.coefficient : ℚ) ≤ 10 ^ 15 - 1 := by
      have hle : c.coefficient + 1 ≤ 10 ^ 15 := hshort
      have hcast : (c.coefficient : ℚ) + 1 ≤ 10 ^ 15 := by exact_mod_cast hle
      linarith
    have hvalue : c.value ≤ (10 ^ 15 - 1) * 10 ^ (k - 15) := by
      have hexponent : (10 : ℚ) ^ c.exponent ≤ 10 ^ (k - 15) :=
        zpow_le_zpow_right₀ (by norm_num) (by omega)
      exact mul_le_mul hcoefficient hexponent (zpow_ten_pos _).le (by norm_num)
    have hnear : (m * 2 ^ e : ℚ) - c.value ≤ m * 2 ^ e / 2 ^ 53 :=
      (le_abs_self _).trans ((Candidate.abs_sub_value_le hc).trans (half_unit_le hfull))
    rw [hleading] at hlow
    linarith

/-- Two numbers on the grid of fifteen digits that are read as one double are the same. -/
theorem value_eq_of_reads (hfull : IsFull m) (hc : c.toBinary64 = .finite false m e)
    (hd : d.toBinary64 = .finite false m e)
    (hcgrid : OnGrid (decimalExponent (numerator m e) (denominator e) - 14) c.value)
    (hdgrid : OnGrid (decimalExponent (numerator m e) (denominator e) - 14) d.value) :
    c.value = d.value := by
  by_contra hne
  have hapart := (hcgrid.sub hdgrid).le_abs (sub_ne_zero.mpr hne)
  have hcnear := abs_sub_lt_of_reads hfull hc
  have hdnear := abs_sub_lt_of_reads hfull hd
  have htriangle : |c.value - d.value| ≤
      |(m * 2 ^ e : ℚ) - c.value| + |(m * 2 ^ e : ℚ) - d.value| := by
    rw [abs_sub_comm _ c.value]
    exact abs_sub_le c.value (m * 2 ^ e) d.value
  linarith

/-- The fifteenth trial succeeds for a double that a number of fifteen digits is read as. -/
theorem trial_ne_none (hfull : IsFull m) (hc : c.toBinary64 = .finite false m e)
    (hshort : c.coefficient < 10 ^ 15) : trial m e 14 ≠ none := by
  obtain ⟨z, hz⟩ := onGrid_of_reads hfull hc hshort
  set k := decimalExponent (numerator m e) (denominator e) with hk
  have hnonneg : 0 ≤ z := by
    have hvalue : 0 ≤ (z : ℚ) * 10 ^ (k - 14) := by
      rw [← hz, Candidate.value]
      have hpower := zpow_ten_pos c.exponent
      positivity
    exact_mod_cast nonneg_of_mul_nonneg_left hvalue (zpow_ten_pos _)
  let onFifteen : Candidate := ⟨z.toNat, k - 14⟩
  have hsame : onFifteen.value = c.value := by
    have hcast : ((z.toNat : ℕ) : ℚ) = z := by exact_mod_cast Int.toNat_of_nonneg hnonneg
    rw [hz, Candidate.value, hcast]
  have hread : onFifteen.toBinary64 = .finite false m e := by
    rw [Candidate.toBinary64_congr hsame, hc]
  have hexponent : gridExponent (numerator m e) (denominator e) (14 + 1) = k - 14 := by
    simp [gridExponent, hk]
  refine onGrid?_ne_none (c := onFifteen) ?_ hread
  rw [hexponent]
  apply isNeighbour_of_abs_lt _ rfl
  rw [quotient_eq, hsame]
  have hpower := zpow_ten_pos (k - 14)
  have hnear := abs_sub_lt_of_reads hfull hc
  rw [← hk] at hnear
  linarith

/-- A double is written as the decimal number of fifteen digits that is read as it. -/
theorem digits_spec (hfull : IsFull m) (hc : c.toBinary64 = .finite false m e)
    (hshort : c.coefficient < 10 ^ 15) :
    (digits m e).value = c.value ∧ (digits m e).coefficient % 10 ≠ 0 := by
  have hm : 0 < m := hfull.1.trans_lt' (by norm_num)
  have hsplit : List.range 17 = List.range 15 ++ [15, 16] := rfl
  have hfirst : ∃ d, (List.range 15).findSome? (trial m e) = some d := by
    rw [← Option.ne_none_iff_exists']
    intro hnone
    exact trial_ne_none hfull hc hshort (List.findSome?_eq_none_iff.mp hnone 14 (by simp))
  obtain ⟨d, hd⟩ := hfirst
  have hfound : (List.range 17).findSome? (trial m e) = some d := by
    rw [hsplit, List.findSome?_append, hd]
    rfl
  obtain ⟨i, hi, htrial⟩ := List.exists_of_findSome?_eq_some hd
  obtain ⟨hread, hexponent, hpos, hle⟩ := trial_spec hm htrial
  have hfew : i < 15 := List.mem_range.mp hi
  have hdigits : 10 ^ (i + 1) ≤ 10 ^ 15 := Nat.pow_le_pow_right (by norm_num) (by omega)
  have hvalue : d.value = c.value := by
    refine value_eq_of_reads hfull hread hc ?_ (onGrid_of_reads hfull hc hshort)
    refine d.onGrid.of_le ?_
    rw [hexponent, gridExponent]
    push_cast
    omega
  have hdigits : digits m e = stripZeros 20 d := by
    rw [digits_eq, hfound]
  rw [hdigits]
  constructor
  · rw [value_stripZeros, hvalue]
  · have hfuel : (10 : ℕ) ^ 15 < 10 ^ 20 := by norm_num
    exact stripZeros_mod_ne 20 d hpos.ne' (by omega)

end

end Shortest

end ModelPlaybook
