import Mathlib
import ModelPlaybook.Proofs.Expression.Reference
import ModelPlaybook.Proofs.Number.Digits
import ModelPlaybook.Proofs.Number.ShortestText

/-!
# Dotted numerals

A dotted numeral is digits, a point, and digits.  It is read as the nearest double, and this double
is written as the same numeral or as another one: a numeral of no more than fifteen digits comes
back unless its fraction ends in a superfluous zero, and such a zero never comes back.
-/

namespace ModelPlaybook

open Expression Shortest

/-! ## Numerals with a point -/

/-- Digits before and after a point; no superfluous zero stands before the point. -/
structure IsDotted (whole decimals : List Char) : Prop where
  whole_ne_nil : whole ≠ []
  whole_digits : ∀ c ∈ whole, Text.isAsciiDigit c = true
  leading : whole = ['0'] ∨ whole.head? ≠ some '0'
  decimals_ne_nil : decimals ≠ []
  decimals_digits : ∀ c ∈ decimals, Text.isAsciiDigit c = true

/-- The text of a dotted numeral. -/
def dotted (whole decimals : List Char) : String :=
  String.ofList (whole ++ '.' :: decimals)

/-- The decimal number that a dotted numeral writes. -/
def literal (whole decimals : List Char) : Candidate :=
  ⟨Text.natOfDigits (whole ++ decimals), -(decimals.length : ℤ)⟩

/-- The last zero of a fraction says nothing, unless the point would stand at the end. -/
def HasSpareZero (decimals : List Char) : Prop :=
  decimals ≠ ['0'] ∧ decimals.getLast? = some '0'

namespace IsDotted

variable {whole decimals whole' decimals' : List Char}

theorem digits (h : IsDotted whole decimals) :
    ∀ c ∈ whole ++ decimals, Text.isAsciiDigit c = true := by
  intro c hc
  rcases List.mem_append.mp hc with hmem | hmem
  · exact h.whole_digits c hmem
  · exact h.decimals_digits c hmem

theorem numberChars (h : IsDotted whole decimals) :
    ∀ c ∈ whole ++ '.' :: decimals, isNumberChar c = true := by
  intro c hc
  rcases List.mem_append.mp hc with hmem | hmem
  · exact isNumberChar_of_isAsciiDigit (h.whole_digits c hmem)
  · rcases List.mem_cons.mp hmem with rfl | hmem
    · rfl
    · exact isNumberChar_of_isAsciiDigit (h.decimals_digits c hmem)

theorem point_not_mem (h : IsDotted whole decimals) : '.' ∉ whole :=
  fun hmem => absurd (h.whole_digits '.' hmem) (by decide)

/-- The text settles where the point stands. -/
theorem dotted_injective (h : IsDotted whole decimals) (h' : IsDotted whole' decimals')
    (hsame : whole ++ '.' :: decimals = whole' ++ '.' :: decimals') :
    whole = whole' ∧ decimals = decimals' := by
  have hwhole : whole = whole' := by
    rw [← takeWhile_ne_append decimals h.point_not_mem, hsame,
      takeWhile_ne_append decimals' h'.point_not_mem]
  subst hwhole
  exact ⟨rfl, List.tail_eq_of_cons_eq (List.append_cancel_left hsame)⟩

theorem digitsOfNat_whole (h : IsDotted whole decimals) :
    Text.digitsOfNat (Text.natOfDigits whole) = whole := by
  rcases h.leading with rfl | hhead
  · rfl
  · exact (digitsOfNat_natOfDigits h.whole_digits h.whole_ne_nil hhead).1

end IsDotted

section

variable {whole decimals whole' decimals' : List Char}

theorem literal_value (whole decimals : List Char) :
    (literal whole decimals).value =
      Text.natOfDigits (whole ++ decimals) / 10 ^ decimals.length := by
  simp [literal, Candidate.value, div_eq_mul_inv]

theorem literal_value_eq_iff :
    (literal whole decimals).value = (literal whole' decimals').value ↔
      Text.natOfDigits (whole ++ decimals) * 10 ^ decimals'.length =
        Text.natOfDigits (whole' ++ decimals') * 10 ^ decimals.length := by
  rw [literal_value, literal_value, div_eq_div_iff (by positivity) (by positivity)]
  norm_cast

/-- More decimals than another numeral of the same value has end in a spare zero. -/
theorem IsDotted.length_le_of_value_eq (h : IsDotted whole decimals)
    (h' : IsDotted whole' decimals') (hspare' : ¬ HasSpareZero decimals')
    (hsame : (literal whole decimals).value = (literal whole' decimals').value) :
    decimals'.length ≤ decimals.length := by
  by_contra hlonger
  have hsame := literal_value_eq_iff.mp hsame
  have hpos : 0 < decimals.length := List.length_pos_iff.mpr h.decimals_ne_nil
  obtain ⟨k, hk⟩ : ∃ k, decimals'.length = decimals.length + (k + 1) :=
    ⟨decimals'.length - decimals.length - 1, by omega⟩
  have hnumber : Text.natOfDigits (whole' ++ decimals') =
      Text.natOfDigits (whole ++ decimals) * 10 ^ k * 10 := by
    have hpower : 0 < 10 ^ decimals.length := by positivity
    apply Nat.eq_of_mul_eq_mul_right hpower
    rw [← hsame, hk, pow_add, pow_succ]
    ring
  have hlast := getLast?_of_mod_eq_zero h'.digits (by simp [h'.whole_ne_nil])
    (by rw [hnumber, Nat.mul_mod_left])
  rw [List.getLast?_append_of_ne_nil _ h'.decimals_ne_nil] at hlast
  refine hspare' ⟨?_, hlast⟩
  rintro rfl
  simp only [List.length_singleton] at hk
  omega

/-- Without spare zeros there is one dotted numeral for a decimal number. -/
theorem IsDotted.eq_of_value_eq (h : IsDotted whole decimals) (h' : IsDotted whole' decimals')
    (hspare : ¬ HasSpareZero decimals) (hspare' : ¬ HasSpareZero decimals')
    (hsame : (literal whole decimals).value = (literal whole' decimals').value) :
    whole = whole' ∧ decimals = decimals' := by
  have hlength : decimals.length = decimals'.length :=
    le_antisymm (h'.length_le_of_value_eq h hspare hsame.symm)
      (h.length_le_of_value_eq h' hspare' hsame)
  have hnumber := literal_value_eq_iff.mp hsame
  rw [hlength] at hnumber
  have hnumber := Nat.eq_of_mul_eq_mul_right (by positivity) hnumber
  rw [natOfDigits_append, natOfDigits_append, hlength] at hnumber
  have hlt := natOfDigits_lt h.decimals_digits
  have hlt' := natOfDigits_lt h'.decimals_digits
  rw [hlength] at hlt
  have hwhole : Text.natOfDigits whole = Text.natOfDigits whole' := by
    have hdiv := congrArg (· / 10 ^ decimals'.length) hnumber
    simpa [Nat.mul_add_div (show 0 < 10 ^ decimals'.length by positivity),
      Nat.div_eq_of_lt hlt, Nat.div_eq_of_lt hlt'] using hdiv
  constructor
  · rw [← h.digitsOfNat_whole, hwhole, h'.digitsOfNat_whole]
  · refine natOfDigits_injective h.decimals_digits h'.decimals_digits hlength ?_
    rw [hwhole] at hnumber
    exact Nat.add_left_cancel hnumber

end

/-! ## How a double is written -/

/-- A numeral that is not so small that it would be written with an exponent. -/
def IsPositional (whole decimals : List Char) : Prop :=
  Text.natOfDigits (whole ++ decimals) = 0 ∨
    10 ^ decimals.length ≤ 10 ^ 4 * Text.natOfDigits (whole ++ decimals)

/-- A dotted numeral as doubles are written. -/
structure IsBare (whole decimals : List Char) : Prop extends IsDotted whole decimals where
  positional : IsPositional whole decimals
  noSpareZero : ¬ HasSpareZero decimals

theorem positional_of_lt {n z k : ℕ} (hlt : 10 ^ k ≤ 10 * n) (hz : z ≤ 3) :
    10 ^ (z + k) ≤ 10 ^ 4 * n := by
  calc
    10 ^ (z + k) = 10 ^ z * 10 ^ k := pow_add 10 z k
    _ ≤ 10 ^ 3 * (10 * n) := Nat.mul_le_mul (Nat.pow_le_pow_right (by norm_num) hz) hlt
    _ = 10 ^ 4 * n := by ring

section

variable {n : ℕ}

theorem pow_length_digitsOfNat_le (hn : 0 < n) : 10 ^ (Text.digitsOfNat n).length ≤ 10 * n := by
  have hlength : 0 < (Text.digitsOfNat n).length := List.length_pos_iff.mpr Nat.toDigits_ne_nil
  obtain ⟨k, hk⟩ : ∃ k, (Text.digitsOfNat n).length = k + 1 :=
    ⟨_, (Nat.sub_add_cancel hlength).symm⟩
  rw [hk, pow_succ, mul_comm]
  by_contra hlt
  have hless : n < 10 ^ k := by omega
  have hsome : 0 < k := by
    apply Nat.pos_of_ne_zero
    rintro rfl
    omega
  have hshort := length_digitsOfNat_le hsome hless
  omega

theorem lt_pow_length_digitsOfNat (n : ℕ) : n < 10 ^ (Text.digitsOfNat n).length :=
  (Nat.length_toDigits_le_iff (by norm_num) (List.length_pos_iff.mpr Nat.toDigits_ne_nil)).mp le_rfl

theorem not_hasSpareZero (hn : n % 10 ≠ 0) {cs : List Char}
    (hlast : cs.getLast? = (Text.digitsOfNat n).getLast?) : ¬ HasSpareZero cs := by
  rintro ⟨-, hzero⟩
  rw [hlast, getLast?_digitsOfNat, Option.some.injEq] at hzero
  have hdigit := congrArg Char.toNat hzero
  have hcode : '0'.toNat = 48 := rfl
  rw [Nat.toNat_digitChar_of_lt_ten (Nat.mod_lt n (by norm_num)), hcode] at hdigit
  omega

/-- The digits stand behind the point. -/
theorem isBare_of_small (hn : n % 10 ≠ 0) {z : ℕ} (hz : z ≤ 3) :
    IsBare ['0'] (List.replicate z '0' ++ Text.digitsOfNat n) ∧
      literal ['0'] (List.replicate z '0' ++ Text.digitsOfNat n) =
        ⟨n, -((z + (Text.digitsOfNat n).length : ℕ) : ℤ)⟩ := by
  have hnumber : Text.natOfDigits (['0'] ++ (List.replicate z '0' ++ Text.digitsOfNat n)) = n := by
    have hzeros : ['0'] ++ List.replicate z '0' = List.replicate (z + 1) '0' := rfl
    rw [← List.append_assoc, hzeros, natOfDigits_append, natOfDigits_zeros,
      natOfDigits_digitsOfNat, Nat.mul_zero, Nat.zero_add]
  have hlength : (List.replicate z '0' ++ Text.digitsOfNat n).length =
      z + (Text.digitsOfNat n).length := by simp
  have hsome : Text.digitsOfNat n ≠ [] := Nat.toDigits_ne_nil
  constructor
  · refine ⟨⟨by simp, by simp [Text.isAsciiDigit], .inl rfl, by simp [hsome], ?_⟩, .inr ?_, ?_⟩
    · intro c hc
      rcases List.mem_append.mp hc with hmem | hmem
      · rw [List.eq_of_mem_replicate hmem]
        rfl
      · exact isAsciiDigit_of_mem_digitsOfNat hmem
    · rw [hnumber, hlength]
      exact positional_of_lt (pow_length_digitsOfNat_le (by omega)) hz
    · exact not_hasSpareZero hn (List.getLast?_append_of_ne_nil _ hsome)
  · rw [literal, hnumber, hlength]

/-- The point stands between the digits. -/
theorem isBare_of_split (hn : n % 10 ≠ 0) {whole decimals : List Char}
    (hsplit : whole ++ decimals = Text.digitsOfNat n) (hwhole : whole ≠ [])
    (hdecimals : decimals ≠ []) :
    IsBare whole decimals ∧ literal whole decimals = ⟨n, -(decimals.length : ℤ)⟩ := by
  have hdigits : ∀ c ∈ whole ++ decimals, Text.isAsciiDigit c = true := by
    rw [hsplit]
    exact fun c hc => isAsciiDigit_of_mem_digitsOfNat hc
  have hnumber : Text.natOfDigits (whole ++ decimals) = n := by
    rw [hsplit, natOfDigits_digitsOfNat]
  constructor
  · refine ⟨⟨hwhole, fun c hc => hdigits c (List.mem_append_left _ hc), .inr ?_, hdecimals,
      fun c hc => hdigits c (List.mem_append_right _ hc)⟩, .inr ?_, ?_⟩
    · rw [← List.head?_append_of_ne_nil whole hwhole, hsplit]
      exact head?_digitsOfNat (by omega)
    · rw [hnumber]
      have hlength : decimals.length ≤ (Text.digitsOfNat n).length := by simp [← hsplit]
      have hpower := Nat.pow_le_pow_right (show 0 < 10 by norm_num) hlength
      have hlead := pow_length_digitsOfNat_le (n := n) (by omega)
      omega
    · apply not_hasSpareZero hn
      rw [← hsplit, List.getLast?_append_of_ne_nil _ hdecimals]
  · rw [literal, hnumber]

theorem natOfDigits_padded (n k : ℕ) :
    Text.natOfDigits (Text.digitsOfNat n ++ List.replicate k '0' ++ ['0']) = n * 10 ^ k * 10 := by
  have hnothing : Text.natOfDigits ['0'] = 0 := rfl
  rw [natOfDigits_append, natOfDigits_append, natOfDigits_zeros, natOfDigits_digitsOfNat, hnothing,
    List.length_replicate, List.length_singleton]
  ring

/-- Zeros stand between the digits and the point. -/
theorem isBare_of_large (hn : 0 < n) (k : ℕ) :
    IsBare (Text.digitsOfNat n ++ List.replicate k '0') ['0'] ∧
      (literal (Text.digitsOfNat n ++ List.replicate k '0') ['0']).value =
        (Candidate.mk n k).value := by
  have hsome : Text.digitsOfNat n ≠ [] := Nat.toDigits_ne_nil
  have hnumber := natOfDigits_padded n k
  constructor
  · refine ⟨⟨by simp [hsome], ?_, .inr ?_, List.cons_ne_nil _ _, by simp [Text.isAsciiDigit]⟩,
      .inr ?_, fun hspare => hspare.1 rfl⟩
    · intro c hc
      rcases List.mem_append.mp hc with hmem | hmem
      · exact isAsciiDigit_of_mem_digitsOfNat hmem
      · rw [List.eq_of_mem_replicate hmem]
        rfl
    · rw [List.head?_append_of_ne_nil _ hsome]
      exact head?_digitsOfNat hn
    · rw [hnumber, List.length_singleton]
      have hpos : 0 < n * 10 ^ k := by positivity
      omega
  · rw [literal_value, hnumber, Candidate.value, List.length_singleton, zpow_natCast]
    push_cast
    ring

end

section

variable {c : Candidate}

/-- Where the leading digit of a candidate stands. -/
def leadingPlace (c : Candidate) : ℤ :=
  c.exponent + (Text.digitsOfNat c.coefficient).length - 1

/-- Characters are a dotted numeral of the value of a candidate, with no more digits than the
candidate has or than fit before the point. -/
def LaysOut (c : Candidate) (cs : List Char) : Prop :=
  ∃ whole decimals, cs = whole ++ '.' :: decimals ∧ IsBare whole decimals ∧
    (literal whole decimals).value = c.value ∧
      Text.natOfDigits (whole ++ decimals) ≤ max c.coefficient (10 ^ 17)

theorem laysOut_small {n : ℕ} {e : ℤ} (hn : n % 10 ≠ 0)
    (hlow : -3 ≤ e + (Text.digitsOfNat n).length) (hsmall : e + (Text.digitsOfNat n).length ≤ 0) :
    LaysOut ⟨n, e⟩ ('0' :: '.' ::
      (List.replicate (-(e + (Text.digitsOfNat n).length)).toNat '0' ++ Text.digitsOfNat n)) := by
  obtain ⟨hbare, hliteral⟩ := isBare_of_small hn
    (show (-(e + (Text.digitsOfNat n).length)).toNat ≤ 3 by omega)
  have hnumber := congrArg Candidate.coefficient hliteral
  refine ⟨['0'], _, rfl, hbare, ?_, le_max_of_le_left hnumber.le⟩
  rw [hliteral]
  congr 2
  omega

theorem laysOut_split {n : ℕ} {e : ℤ} (hn : n % 10 ≠ 0)
    (hlarge : 0 < e + (Text.digitsOfNat n).length) (hpart : e < 0) :
    LaysOut ⟨n, e⟩ ((Text.digitsOfNat n).take (e + (Text.digitsOfNat n).length).toNat ++ '.' ::
      (Text.digitsOfNat n).drop (e + (Text.digitsOfNat n).length).toNat) := by
  have hdrop : ((Text.digitsOfNat n).drop (e + (Text.digitsOfNat n).length).toNat).length =
      (-e).toNat := by
    rw [List.length_drop]
    omega
  have hwhole : (Text.digitsOfNat n).take (e + (Text.digitsOfNat n).length).toNat ≠ [] := by
    rw [← List.length_pos_iff, List.length_take]
    omega
  have hdecimals : (Text.digitsOfNat n).drop (e + (Text.digitsOfNat n).length).toNat ≠ [] := by
    rw [← List.length_pos_iff, hdrop]
    omega
  obtain ⟨hbare, hliteral⟩ := isBare_of_split hn (List.take_append_drop _ _) hwhole hdecimals
  have hnumber := congrArg Candidate.coefficient hliteral
  refine ⟨_, _, rfl, hbare, ?_, le_max_of_le_left hnumber.le⟩
  rw [hliteral, hdrop]
  congr 2
  omega

theorem laysOut_large {n : ℕ} {e : ℤ} (hn : 0 < n) (hwhole : 0 ≤ e)
    (hhigh : e + (Text.digitsOfNat n).length < 17) :
    LaysOut ⟨n, e⟩ (Text.digitsOfNat n ++ List.replicate e.toNat '0' ++ ['.', '0']) := by
  obtain ⟨hbare, hvalue⟩ := isBare_of_large hn e.toNat
  refine ⟨_, _, rfl, hbare, ?_, le_max_of_le_right ?_⟩
  · rw [hvalue]
    congr 2
    omega
  · rw [natOfDigits_padded]
    calc
      n * 10 ^ e.toNat * 10 ≤ 10 ^ (Text.digitsOfNat n).length * 10 ^ e.toNat * 10 := by
        gcongr
        exact (lt_pow_length_digitsOfNat n).le
      _ = 10 ^ ((Text.digitsOfNat n).length + e.toNat + 1) := by rw [← pow_add, pow_succ]
      _ ≤ 10 ^ 17 := Nat.pow_le_pow_right (by norm_num) (by omega)

theorem layOut_positional (hc : c.coefficient % 10 ≠ 0) (hlow : -4 ≤ leadingPlace c)
    (hhigh : leadingPlace c < 16) : LaysOut c (floatLayout.layOut c.coefficient c.exponent) := by
  obtain ⟨n, e⟩ := c
  simp only [leadingPlace] at hc hlow hhigh
  simp only [NumberLayout.layOut, floatLayout]
  rw [if_pos ⟨hlow, hhigh⟩]
  by_cases hsmall : e + (Text.digitsOfNat n).length ≤ 0
  · rw [if_pos hsmall]
    exact laysOut_small hc (by omega) hsmall
  · rw [if_neg hsmall]
    by_cases hpart : e < 0
    · rw [if_pos hpart]
      exact laysOut_split hc (by omega) hpart
    · rw [if_neg hpart, if_pos trivial]
      exact laysOut_large (by omega) (by omega) (by omega)

/-- With an exponent the layout is no dotted numeral. -/
theorem layOut_scientific (hplace : ¬ (-4 ≤ leadingPlace c ∧ leadingPlace c < 16)) :
    'e' ∈ floatLayout.layOut c.coefficient c.exponent := by
  simp only [leadingPlace] at hplace
  simp only [NumberLayout.layOut, floatLayout]
  rw [if_neg hplace]
  simp [NumberLayout.exponentText]

theorem isBare_zero : IsBare ['0'] ['0'] :=
  ⟨⟨by simp, by simp [Text.isAsciiDigit], .inl rfl, by simp, by simp [Text.isAsciiDigit]⟩, .inl rfl,
    fun hspare => hspare.1 rfl⟩

end

section

variable {x : Binary64} {whole decimals : List Char}

theorem IsDotted.not_mem_of_eq (h : IsDotted whole decimals) {s : String}
    (hs : s = dotted whole decimals) {c : Char} (hc : isNumberChar c = false) : c ∉ s.toList := by
  intro hmem
  rw [hs, dotted, String.toList_ofList] at hmem
  rw [h.numberChars c hmem] at hc
  cases hc

/-- A dotted numeral as a double can be written. -/
def IsWritten (whole decimals : List Char) : Prop :=
  IsBare whole decimals ∧ Text.natOfDigits (whole ++ decimals) ≤ 10 ^ 17

theorem isWritten_zero : IsWritten ['0'] ['0'] :=
  ⟨isBare_zero, by simp [Text.natOfDigits]⟩

theorem IsWritten.of_layOut (h : IsDotted whole decimals) {c : Candidate}
    (hlast : c.coefficient % 10 ≠ 0) (hfew : c.coefficient ≤ 10 ^ 17)
    (htext : String.ofList (floatLayout.layOut c.coefficient c.exponent) = dotted whole decimals) :
    IsWritten whole decimals := by
  by_cases hplace : -4 ≤ leadingPlace c ∧ leadingPlace c < 16
  · obtain ⟨whole', decimals', hlayout, hbare, -, hle⟩ :=
      layOut_positional hlast hplace.1 hplace.2
    rw [hlayout] at htext
    obtain ⟨rfl, rfl⟩ := hbare.toIsDotted.dotted_injective h (String.ofList_injective htext)
    exact ⟨hbare, hle.trans (max_le hfew le_rfl)⟩
  · have hmark := layOut_scientific hplace
    rw [← String.toList_ofList (l := floatLayout.layOut _ _)] at hmark
    exact absurd hmark (h.not_mem_of_eq htext rfl)

theorem IsWritten.of_zero (h : IsDotted whole decimals)
    (htext : String.ofList ['0', '.', '0'] = dotted whole decimals) :
    IsWritten whole decimals := by
  obtain ⟨rfl, rfl⟩ := isBare_zero.toIsDotted.dotted_injective h (String.ofList_injective htext)
  exact isWritten_zero

/-- A dotted numeral that a double is written as is bare and has no more than seventeen digits. -/
theorem IsWritten.of_text (h : IsDotted whole decimals) (htext : x.text = dotted whole decimals) :
    IsWritten whole decimals := by
  cases x with
  | nan origin =>
      have hletter : 'n' ∈ (Binary64.nan origin).text.toList := by
        simp [Binary64.text, NumberLayout.text, floatLayout]
      exact absurd hletter (h.not_mem_of_eq htext rfl)
  | infinite negative =>
      have hletter : 'n' ∈ (Binary64.infinite negative).text.toList := by
        cases negative <;> simp [Binary64.text, NumberLayout.text, floatLayout]
      exact absurd hletter (h.not_mem_of_eq htext rfl)
  | finite negative m e =>
      cases negative with
      | true =>
          have hminus : '-' ∈ (Binary64.finite true m e).text.toList := by
            simp [Binary64.text, NumberLayout.text]
          exact absurd hminus (h.not_mem_of_eq htext rfl)
      | false =>
          by_cases hm : m = 0
          · subst hm
            exact .of_zero h htext
          · have hbody : Binary64.text (.finite false m e) = String.ofList
                (floatLayout.layOut (digits m e).coefficient (digits m e).exponent) := by
              simp [Binary64.text, NumberLayout.text, hm]
            rw [hbody] at htext
            rcases digits_bounds (Nat.pos_of_ne_zero hm) with hnone | ⟨hlast, hfew⟩
            · rw [hnone] at htext
              exact .of_zero h htext
            · exact .of_layOut h hlast hfew htext

/-- The double that a dotted numeral is read as. -/
def nearestTo (whole decimals : List Char) : Binary64 :=
  (literal whole decimals).toBinary64

theorem nearestTo_of_zero (hzero : Text.natOfDigits (whole ++ decimals) = 0) :
    nearestTo whole decimals = Binary64.signedZero false := by
  simp only [nearestTo, literal, Candidate.toBinary64, hzero, Nat.zero_mul]
  unfold Binary64.ofQuotient
  rw [if_pos rfl]

theorem IsPositional.value_bounds (h : IsPositional whole decimals)
    (hsome : 0 < Text.natOfDigits (whole ++ decimals))
    (hshort : Text.natOfDigits (whole ++ decimals) < 10 ^ 15) :
    (10 : ℚ) ^ (-4 : ℤ) ≤ (literal whole decimals).value ∧
      (literal whole decimals).value < 10 ^ (15 : ℤ) := by
  have hbound := h.resolve_left hsome.ne'
  have hpower : (0 : ℚ) < 10 ^ decimals.length := by positivity
  rw [literal_value]
  constructor
  · have hcast : (10 : ℚ) ^ decimals.length ≤ 10 ^ 4 * Text.natOfDigits (whole ++ decimals) := by
      exact_mod_cast hbound
    rw [le_div_iff₀ hpower, zpow_neg, inv_mul_le_iff₀ (by norm_num)]
    exact_mod_cast hcast
  · have hcast : (Text.natOfDigits (whole ++ decimals) : ℚ) < 10 ^ 15 := by exact_mod_cast hshort
    have hone : (1 : ℚ) ≤ 10 ^ decimals.length := one_le_pow₀ (by norm_num)
    rw [div_lt_iff₀ hpower]
    calc
      (Text.natOfDigits (whole ++ decimals) : ℚ) < 10 ^ (15 : ℤ) * 1 := by exact_mod_cast hcast
      _ ≤ 10 ^ (15 : ℤ) * 10 ^ decimals.length := by gcongr

theorem IsPositional.exists_full (h : IsPositional whole decimals)
    (hsome : 0 < Text.natOfDigits (whole ++ decimals))
    (hshort : Text.natOfDigits (whole ++ decimals) < 10 ^ 15) :
    ∃ m e, nearestTo whole decimals = .finite false m e ∧ Binary64.IsFull m := by
  obtain ⟨hlow, hhigh⟩ := h.value_bounds hsome hshort
  unfold nearestTo Candidate.toBinary64
  apply Binary64.exists_full
  · exact Nat.mul_pos hsome (by positivity)
  · positivity
  · rw [Candidate.quotient_eq_value]
    calc
      (2 : ℚ) ^ (-1022 : ℤ) ≤ 2 ^ (-14 : ℤ) := zpow_le_zpow_right₀ (by norm_num) (by norm_num)
      _ ≤ 10 ^ (-4 : ℤ) := by norm_num
      _ ≤ (literal whole decimals).value := hlow
  · rw [Candidate.quotient_eq_value]
    calc
      (literal whole decimals).value < 10 ^ (15 : ℤ) := hhigh
      _ ≤ 2 ^ (50 : ℤ) := by norm_num
      _ ≤ 2 ^ (1023 : ℤ) := zpow_le_zpow_right₀ (by norm_num) (by norm_num)

/-- The value of a candidate and its digits settle where the leading digit stands. -/
theorem leadingPlace_bounds {c : Candidate} (hc : c.coefficient % 10 ≠ 0)
    (hlow : (10 : ℚ) ^ (-4 : ℤ) ≤ c.value) (hhigh : c.value < 10 ^ (15 : ℤ)) :
    -4 ≤ leadingPlace c ∧ leadingPlace c < 16 := by
  have hlead := pow_length_digitsOfNat_le (n := c.coefficient) (by omega)
  have hdigits := lt_pow_length_digitsOfNat c.coefficient
  set k := (Text.digitsOfNat c.coefficient).length with hk
  have hpower := zpow_ten_pos c.exponent
  unfold leadingPlace
  rw [← hk]
  constructor
  · have hless : (10 : ℚ) ^ (-4 : ℤ) < 10 ^ ((k : ℤ) + c.exponent) := by
      calc
        (10 : ℚ) ^ (-4 : ℤ) ≤ c.coefficient * 10 ^ c.exponent := hlow
        _ < 10 ^ (k : ℤ) * 10 ^ c.exponent := by
          rw [zpow_natCast]
          gcongr
          exact_mod_cast hdigits
        _ = 10 ^ ((k : ℤ) + c.exponent) := (zpow_ten_add _ _).symm
    have hplace := (zpow_lt_zpow_iff_right₀ (by norm_num)).mp hless
    omega
  · have hless : (10 : ℚ) ^ ((k : ℤ) + c.exponent) < 10 ^ ((1 : ℤ) + 15) := by
      calc
        (10 : ℚ) ^ ((k : ℤ) + c.exponent) = 10 ^ (k : ℤ) * 10 ^ c.exponent := zpow_ten_add _ _
        _ ≤ 10 * c.coefficient * 10 ^ c.exponent := by
          rw [zpow_natCast]
          gcongr
          exact_mod_cast hlead
        _ = 10 * c.value := by rw [Candidate.value, mul_assoc]
        _ < 10 ^ (1 : ℤ) * 10 ^ (15 : ℤ) := by
          rw [zpow_one]
          gcongr
        _ = 10 ^ ((1 : ℤ) + 15) := (zpow_ten_add _ _).symm
    have hplace := (zpow_lt_zpow_iff_right₀ (by norm_num)).mp hless
    omega

/-- A bare numeral of fifteen digits comes back. -/
theorem IsBare.text_nearestTo (h : IsBare whole decimals)
    (hshort : Text.natOfDigits (whole ++ decimals) < 10 ^ 15) :
    (nearestTo whole decimals).text = dotted whole decimals := by
  by_cases hzero : Text.natOfDigits (whole ++ decimals) = 0
  · have hsame : (literal ['0'] ['0']).value = (literal whole decimals).value := by
      rw [literal_value, literal_value, hzero]
      simp [Text.natOfDigits]
    obtain ⟨rfl, rfl⟩ := isBare_zero.toIsDotted.eq_of_value_eq h.toIsDotted
      isBare_zero.noSpareZero h.noSpareZero hsame
    rw [nearestTo_of_zero rfl]
    rfl
  · obtain ⟨hlow, hhigh⟩ := h.positional.value_bounds (Nat.pos_of_ne_zero hzero) hshort
    obtain ⟨m, e, hnearest, hfull⟩ :=
      h.positional.exists_full (Nat.pos_of_ne_zero hzero) hshort
    obtain ⟨hvalue, hlast⟩ := digits_spec hfull hnearest hshort
    rw [← hvalue] at hlow hhigh
    obtain ⟨hleast, hmost⟩ := leadingPlace_bounds hlast hlow hhigh
    obtain ⟨whole', decimals', hlayout, hbare, hsame, -⟩ := layOut_positional hlast hleast hmost
    obtain ⟨rfl, rfl⟩ := hbare.toIsDotted.eq_of_value_eq h.toIsDotted hbare.noSpareZero
      h.noSpareZero (hsame.trans hvalue)
    have hm : m ≠ 0 := (hfull.1.trans_lt' (by norm_num)).ne'
    rw [hnearest]
    simp [Binary64.text, NumberLayout.text, hm, hlayout, dotted]

/-- Zeros behind the decimals do not change the double. -/
theorem nearestTo_append_zeros (whole decimals : List Char) (k : ℕ) :
    nearestTo whole (decimals ++ List.replicate k '0') = nearestTo whole decimals := by
  apply Candidate.toBinary64_congr
  rw [literal_value_eq_iff, ← List.append_assoc, natOfDigits_append, natOfDigits_zeros,
    List.length_append, List.length_replicate, pow_add]
  ring

end

/-! ## How a dotted numeral is read -/

section

variable {cs rest : List Char}

theorem skipSeparator_eq_self (hhead : cs.head? ≠ some '_') : Text.skipSeparator cs = cs := by
  unfold Text.skipSeparator
  split
  · exact absurd rfl hhead
  · rfl

/-- A run of digits goes up to a point or to the end. -/
theorem digitRun_append (hcs : ∀ c ∈ cs, Text.isAsciiDigit c = true)
    (hrest : rest = [] ∨ rest.head? = some '.') :
    Text.digitRun (cs ++ rest) = (cs.map fun c => c.toNat - '0'.toNat, rest) := by
  induction cs with
  | nil =>
      cases rest with
      | nil => simp [Text.digitRun]
      | cons c rest =>
          have hpoint : c = '.' := by simpa using hrest
          have hnone : Text.digitValue? '.' = none := by decide
          simp [Text.digitRun, hpoint, hnone]
  | cons c cs ih =>
      obtain ⟨hc, hcs⟩ := List.forall_mem_cons.mp hcs
      have hhead : (cs ++ rest).head? ≠ some '_' := by
        cases cs with
        | nil => rcases hrest with rfl | hpoint <;> simp [*]
        | cons d cs =>
            have hd := (List.forall_mem_cons.mp hcs).1
            rintro hline
            obtain rfl : d = '_' := by simpa using hline
            exact absurd hd (by decide)
      rw [List.cons_append, Text.digitRun, digitValue?_of_isAsciiDigit hc]
      simp only [skipSeparator_eq_self hhead, ih hcs, List.map_cons]

end

section

variable {whole decimals : List Char}

theorem ofChars?_dotted (h : IsDotted whole decimals) :
    DecimalLiteral.ofChars? false (whole ++ '.' :: decimals) =
      some ⟨false, whole.map fun c => c.toNat - '0'.toNat,
        decimals.map fun c => c.toNat - '0'.toNat, 0⟩ := by
  have hwhole : Text.digitRun (whole ++ '.' :: decimals) =
      (whole.map fun c => c.toNat - '0'.toNat, '.' :: decimals) :=
    digitRun_append h.whole_digits (.inr rfl)
  have hdecimals : Text.digitRun (decimals ++ []) =
      (decimals.map fun c => c.toNat - '0'.toNat, []) :=
    digitRun_append h.decimals_digits (.inl rfl)
  rw [List.append_nil] at hdecimals
  simp [DecimalLiteral.ofChars?, hwhole, hdecimals, h.whole_ne_nil, Text.exponentPart?]

theorem toBinary64_dotted (h : IsDotted whole decimals) :
    DecimalLiteral.toBinary64 ⟨false, whole.map fun c => c.toNat - '0'.toNat,
      decimals.map fun c => c.toNat - '0'.toNat, 0⟩ = nearestTo whole decimals := by
  have hnumber : (whole.map (fun c => c.toNat - '0'.toNat) ++
      decimals.map fun c => c.toNat - '0'.toNat).foldl (fun n d => 10 * n + d) 0 =
        Text.natOfDigits (whole ++ decimals) := by
    rw [← List.map_append, List.foldl_map]
    rfl
  have hpos : 0 < whole.length := List.length_pos_iff.mpr h.whole_ne_nil
  simp only [DecimalLiteral.toBinary64, DecimalLiteral.coefficient, hnumber, List.length_append,
    List.length_map, Int.zero_sub]
  by_cases hzero : Text.natOfDigits (whole ++ decimals) = 0
  · rw [if_pos hzero, nearestTo_of_zero hzero]
  · rw [if_neg hzero, if_neg (by omega), if_neg (by omega)]
    rfl

theorem ofText?_dotted (h : IsDotted whole decimals) :
    Binary64.ofText? (dotted whole decimals) = some (nearestTo whole decimals) := by
  rw [dotted, ofText?_of_numberChars h.numberChars, ofChars?_dotted h, Option.map_some,
    toBinary64_dotted h]

end

end ModelPlaybook
