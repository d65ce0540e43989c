import Mathlib
import ModelPlaybook.Proofs.Number.Numerals

/-!
# Digits of whole numbers

A whole number is written with digits, the first of which is no zero, and such digits write one
number only.
-/

namespace ModelPlaybook

/-! ## The number that digits write -/

theorem natOfDigits_append (cs ds : List Char) :
    Text.natOfDigits (cs ++ ds) =
      10 ^ ds.length * Text.natOfDigits cs + Text.natOfDigits ds := by
  have happend := Nat.ofDigitChars_append (b := 10) (l := cs) (m := ds) 0
  exact happend.trans Nat.ofDigitChars_eq_ofDigitChars_zero

theorem natOfDigits_concat (cs : List Char) (c : Char) :
    Text.natOfDigits (cs ++ [c]) = 10 * Text.natOfDigits cs + (c.toNat - '0'.toNat) := by
  simp [Text.natOfDigits]

theorem natOfDigits_zeros (n : ℕ) : Text.natOfDigits (List.replicate n '0') = 0 := by
  change Nat.ofDigitChars 10 (List.replicate n '0') 0 = 0
  simp

theorem natOfDigits_lt {cs : List Char} (hcs : ∀ c ∈ cs, Text.isAsciiDigit c = true) :
    Text.natOfDigits cs < 10 ^ cs.length := by
  induction cs using List.reverseRecOn with
  | nil => simp [Text.natOfDigits]
  | append_singleton cs c ih =>
      have hcode := code_of_isAsciiDigit (hcs c (by simp))
      have hzero : '0'.toNat = 48 := rfl
      have hlt := ih fun d hd => hcs d (by simp [hd])
      rw [natOfDigits_concat, List.length_append, List.length_singleton, pow_succ]
      omega

/-- A number that ten divides is written with a zero at the end. -/
theorem getLast?_of_mod_eq_zero {cs : List Char} (hcs : ∀ c ∈ cs, Text.isAsciiDigit c = true)
    (hsome : cs ≠ []) (hmod : Text.natOfDigits cs % 10 = 0) : cs.getLast? = some '0' := by
  obtain ⟨front, c, rfl⟩ := (List.eq_nil_or_concat cs).resolve_left hsome
  rw [List.concat_eq_append] at hcs hmod ⊢
  have hcode := code_of_isAsciiDigit (hcs c (by simp))
  have hzero : '0'.toNat = 48 := rfl
  rw [natOfDigits_concat] at hmod
  have hc : c = '0' := Char.toNat_inj.mp (by omega)
  simp [hc]

/-! ## The digits that a number is written with -/

theorem natOfDigits_digitsOfNat (n : ℕ) : Text.natOfDigits (Text.digitsOfNat n) = n :=
  Nat.ofDigitChars_ten_toDigits

theorem isAsciiDigit_of_mem_digitsOfNat {n : ℕ} {c : Char} (hc : c ∈ Text.digitsOfNat n) :
    Text.isAsciiDigit c = true := by
  have hdigit : c.isDigit = true := Nat.isDigit_of_mem_toDigits (by decide) (by decide) hc
  simpa [Char.isDigit, Text.isAsciiDigit, Char.le_def] using hdigit

theorem digitsOfNat_digit {c : Char} (hc : Text.isAsciiDigit c = true) :
    Text.digitsOfNat (c.toNat - '0'.toNat) = [c] := by
  have hcode := code_of_isAsciiDigit hc
  have hzero : '0'.toNat = 48 := rfl
  rw [Text.digitsOfNat, Nat.toDigits_of_lt_base (by omega)]
  have hchar : (c.toNat - '0'.toNat).digitChar = c := by
    apply Char.toNat_inj.mp
    rw [Nat.toNat_digitChar_of_lt_ten (by omega)]
    omega
  rw [hchar]

/-- A numeral that starts with no zero is what its number is written as. -/
theorem digitsOfNat_natOfDigits {cs : List Char} (hcs : ∀ c ∈ cs, Text.isAsciiDigit c = true)
    (hsome : cs ≠ []) (hhead : cs.head? ≠ some '0') :
    Text.digitsOfNat (Text.natOfDigits cs) = cs ∧ 0 < Text.natOfDigits cs := by
  induction cs using List.reverseRecOn with
  | nil => exact absurd rfl hsome
  | append_singleton cs c ih =>
      have hc : Text.isAsciiDigit c = true := hcs c (by simp)
      have hcode := code_of_isAsciiDigit hc
      have hzero : '0'.toNat = 48 := rfl
      rw [natOfDigits_concat]
      by_cases hnone : cs = []
      · subst hnone
        have hne : c ≠ '0' := by simpa using hhead
        have hcodes : c.toNat ≠ '0'.toNat := fun h => hne (Char.toNat_inj.mp h)
        have hnothing : Text.natOfDigits [] = 0 := rfl
        rw [hnothing, List.nil_append, Nat.mul_zero, Nat.zero_add]
        exact ⟨digitsOfNat_digit hc, by omega⟩
      · have hhead' : cs.head? ≠ some '0' := by
          rwa [List.head?_append_of_ne_nil _ hnone] at hhead
        obtain ⟨hdigits, hpos⟩ := ih (fun d hd => hcs d (by simp [hd])) hnone hhead'
        constructor
        · have hjoin := Nat.toDigits_append_toDigits (b := 10) (by norm_num) hpos
            (by omega : c.toNat - '0'.toNat < 10)
          calc
            Text.digitsOfNat (10 * Text.natOfDigits cs + (c.toNat - '0'.toNat))
                = Text.digitsOfNat (Text.natOfDigits cs) ++
                    Text.digitsOfNat (c.toNat - '0'.toNat) := hjoin.symm
            _ = cs ++ [c] := by rw [hdigits, digitsOfNat_digit hc]
        · omega

theorem length_digitsOfNat_le {n k : ℕ} (hk : 0 < k) (hlt : n < 10 ^ k) :
    (Text.digitsOfNat n).length ≤ k :=
  (Nat.length_toDigits_le_iff (by norm_num) hk).mpr hlt

/-- The last digit of a number is its remainder by ten. -/
theorem getLast?_digitsOfNat (n : ℕ) :
    (Text.digitsOfNat n).getLast? = some (n % 10).digitChar := by
  rw [Text.digitsOfNat, Nat.toDigits_eq_if (by norm_num)]
  split
  · next hlt => simp [Nat.mod_eq_of_lt hlt]
  · simp

theorem head?_digitsOfNat {n : ℕ} (hn : 0 < n) : (Text.digitsOfNat n).head? ≠ some '0' := by
  induction n using Nat.strongRecOn with
  | ind n ih =>
      rw [Text.digitsOfNat, Nat.toDigits_eq_if (by norm_num)]
      split
      · simp [hn.ne']
      · next hlarge =>
          have htenth : 0 < n / 10 := Nat.div_pos (by omega) (by norm_num)
          rw [List.head?_append_of_ne_nil _ Nat.toDigits_ne_nil]
          exact ih (n / 10) (by omega) htenth

/-- Digits of one length that write the same number are the same. -/
theorem natOfDigits_injective {cs ds : List Char} (hcs : ∀ c ∈ cs, Text.isAsciiDigit c = true)
    (hds : ∀ c ∈ ds, Text.isAsciiDigit c = true) (hlength : cs.length = ds.length)
    (hsame : Text.natOfDigits cs = Text.natOfDigits ds) : cs = ds := by
  have hone : Text.isAsciiDigit '1' = true := rfl
  -- With a one in front of them the digits are what their number is written as.
  have hlead : Text.natOfDigits (['1'] ++ cs) = Text.natOfDigits (['1'] ++ ds) := by
    rw [natOfDigits_append, natOfDigits_append, hlength, hsame]
  have hwritten {es : List Char} (hes : ∀ c ∈ es, Text.isAsciiDigit c = true) :
      Text.digitsOfNat (Text.natOfDigits ('1' :: es)) = '1' :: es :=
    (digitsOfNat_natOfDigits (List.forall_mem_cons.mpr ⟨hone, hes⟩) (List.cons_ne_nil _ _)
      (by simp)).1
  have hcons : '1' :: cs = '1' :: ds :=
    (hwritten hcs).symm.trans ((congrArg Text.digitsOfNat hlead).trans (hwritten hds))
  exact List.tail_eq_of_cons_eq hcons

end ModelPlaybook
