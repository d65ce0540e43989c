import Mathlib
import ModelPlaybook.Number.WholeText
import ModelPlaybook.Proofs.Expression.Scanning

/-!
# Numerals

Digits alone are read as the whole number that they write in base ten, and digits with a point as
the double nearest to the decimal number, by the general readers of numbers, which also take signs,
blanks, underscores, exponents and digits of other scripts.
-/

namespace ModelPlaybook

open Expression

/-! ## Digits -/

theorem code_of_isAsciiDigit {c : Char} (hc : Text.isAsciiDigit c = true) :
    48 ≤ c.toNat ∧ c.toNat ≤ 57 := by
  obtain ⟨hlow, hhigh⟩ := Bool.and_eq_true_iff.mp hc
  have hlow : '0' ≤ c := of_decide_eq_true hlow
  have hhigh : c ≤ '9' := of_decide_eq_true hhigh
  exact ⟨UInt32.le_iff_toNat_le.mp hlow, UInt32.le_iff_toNat_le.mp hhigh⟩

theorem digitValue?_of_isAsciiDigit {c : Char} (hc : Text.isAsciiDigit c = true) :
    Text.digitValue? c = some (c.toNat - '0'.toNat) := by
  have hcode := code_of_isAsciiDigit hc
  have hzero : (decide (0x30 ≤ c.toNat) && decide (c.toNat < 0x30 + 10)) = true := by
    simp only [Bool.and_eq_true, decide_eq_true_eq]
    omega
  have htable : Text.digitZeros = 0x30 :: Text.digitZeros.tail := rfl
  rw [Text.digitValue?, htable, List.find?_cons, hzero]
  rfl

theorem asciiDigit_of_isAsciiDigit {c : Char} (hc : Text.isAsciiDigit c = true) :
    WholeText.asciiDigit c = c := by
  have hcode := code_of_isAsciiDigit hc
  have hzero : '0'.toNat = 48 := rfl
  have hlt : c.toNat - '0'.toNat < 10 := by omega
  rw [WholeText.asciiDigit, digitValue?_of_isAsciiDigit hc, Option.map_some, Option.getD_some]
  apply Char.toNat_inj.mp
  rw [Nat.toNat_digitChar_of_lt_ten hlt]
  omega

theorem toLower_of_isNumberChar {c : Char} (hc : isNumberChar c = true) : c.toLower = c := by
  apply Char.toLower_eq_of_not_isUpper
  intro hupper
  have hbounds : 'A'.val ≤ c.val ∧ c.val ≤ 'Z'.val := of_decide_eq_true hupper
  have hletter : 65 ≤ c.toNat := UInt32.le_iff_toNat_le.mp hbounds.1
  rcases Bool.or_eq_true_iff.mp hc with hdigit | hpoint
  · have hcode := code_of_isAsciiDigit hdigit
    omega
  · rw [of_decide_eq_true hpoint] at hletter
    exact absurd hletter (by decide)

theorem numeralChars_ofList {cs : List Char} (hcs : ∀ c ∈ cs, isNumberChar c = true) :
    Text.numeralChars (String.ofList cs) = cs := by
  have hsolid : ∀ c ∈ cs, ¬ Text.isUnicodeBlank c = true := by
    intro c hc
    have hblank := isBlank_of_isWordChar (Bool.or_eq_true_iff.mpr (.inl (hcs c hc)))
    simp [Text.isUnicodeBlank, hblank]
  have hfront : cs.dropWhile Text.isUnicodeBlank = cs := by
    rw [List.dropWhile_eq_self_iff]
    exact fun hlength => hsolid _ (List.getElem_mem hlength)
  have hback : cs.reverse.dropWhile Text.isUnicodeBlank = cs.reverse := by
    rw [List.dropWhile_eq_self_iff]
    exact fun hlength => hsolid _ (List.mem_reverse.mp (List.getElem_mem hlength))
  rw [Text.numeralChars, String.toList_ofList, hfront, hback, List.reverse_reverse]

theorem unsigned_of_numberChars {cs : List Char} (hcs : ∀ c ∈ cs, isNumberChar c = true)
    (rest : List Char) : cs ≠ '-' :: rest ∧ cs ≠ '+' :: rest := by
  constructor
  · rintro rfl
    exact absurd (hcs '-' List.mem_cons_self) (by decide)
  · rintro rfl
    exact absurd (hcs '+' List.mem_cons_self) (by decide)

/-! ## Whole numbers -/

theorem splitMark_of_digits {cs : List Char} (hcs : ∀ c ∈ cs, Text.isAsciiDigit c = true) :
    WholeText.splitMark 10 cs = some (10, cs) := by
  have hmark : ∀ c ∈ cs, WholeText.baseOfMark? c = none := by
    intro c hc
    rw [WholeText.baseOfMark?, toLower_of_isNumberChar (isNumberChar_of_isAsciiDigit (hcs c hc))]
    split
    · exact absurd (hcs _ hc) (by decide)
    · exact absurd (hcs _ hc) (by decide)
    · exact absurd (hcs _ hc) (by decide)
    · rfl
  unfold WholeText.splitMark
  split
  next c rest =>
    rw [hmark c (by simp)]
    simp
  · simp

theorem digits?_of_digits {cs : List Char} (hsome : cs ≠ [])
    (hcs : ∀ c ∈ cs, Text.isAsciiDigit c = true) :
    WholeText.digits? 10 cs = some (cs.map fun c => c.toNat - '0'.toNat) := by
  have hwithin : ∀ c ∈ cs, WholeText.digits?.within 10 c = some (c.toNat - '0'.toNat) := by
    intro c hc
    have hcode := code_of_isAsciiDigit (hcs c hc)
    have hzero : '0'.toNat = 48 := rfl
    have hlt : c.toNat - '0'.toNat < 10 := by omega
    rw [WholeText.digits?.within, WholeText.digit?, digitValue?_of_isAsciiDigit (hcs c hc)]
    simp only [Option.bind_some, if_pos hlt]
  have hline : '_' ∉ cs := fun hmem => absurd (hcs _ hmem) (by decide)
  clear hcs
  fun_induction WholeText.digits? 10 cs with
  | case1 => exact absurd rfl hsome
  | case2 c => simp [hwithin c]
  | case3 c rest ih => exact absurd (by simp) hline
  | case4 c rest hsingle hother ih =>
      have hne : rest ≠ [] := fun h => hsingle (by rw [h])
      obtain ⟨hc, hrest⟩ := List.forall_mem_cons.mp hwithin
      rw [ih hne hrest (fun hmem => hline (List.mem_cons_of_mem _ hmem)), hc]
      rfl

/-- Digits are read as the number that they write, unless there are too many of them. -/
theorem read_of_digits {cs : List Char} (hsome : cs ≠ [])
    (hcs : ∀ c ∈ cs, Text.isAsciiDigit c = true) :
    WholeText.read 10 (String.ofList cs) =
      if Text.integerDigitLimit < cs.length then .error (WholeText.tooLong cs.length)
      else .ok (Text.natOfDigits cs) := by
  have hnumber : ∀ c ∈ cs, isNumberChar c = true :=
    fun c hc => isNumberChar_of_isAsciiDigit (hcs c hc)
  have hnumeral := numeralChars_ofList hnumber
  have hdigits : cs.map WholeText.asciiDigit = cs := by
    rw [List.map_congr_left fun c hc => asciiDigit_of_isAsciiDigit (hcs c hc), List.map_id']
  have hunsigned := unsigned_of_numberChars hnumber
  have hvalue : (cs.map fun c => c.toNat - '0'.toNat).foldl (fun n d => 10 * n + d) 0 =
      Text.natOfDigits cs := by
    rw [List.foldl_map]
    rfl
  have hten : WholeText.isPowerOfTwo 10 = false := by decide
  rw [WholeText.read, WholeText.readShown, hnumeral, hdigits]
  split
  next negative body hsign =>
    split at hsign
    next rest => exact absurd rfl (hunsigned rest).1
    next rest => exact absurd rfl (hunsigned rest).2
    next =>
      cases hsign
      simp only [splitMark_of_digits hcs, digits?_of_digits hsome hcs, List.length_map, hvalue,
        hten, Bool.not_false, Bool.true_and, decide_eq_true_eq, Bool.false_eq_true, if_false]

/-! ## Doubles -/

/-- Digits and points are read as a decimal literal. -/
theorem ofText?_of_numberChars {cs : List Char} (hcs : ∀ c ∈ cs, isNumberChar c = true) :
    Binary64.ofText? (String.ofList cs) =
      (DecimalLiteral.ofChars? false cs).map DecimalLiteral.toBinary64 := by
  have hlower : cs.map Char.toLower = cs := by
    rw [List.map_congr_left fun c hc => toLower_of_isNumberChar (hcs c hc), List.map_id']
  have hunsigned := unsigned_of_numberChars hcs
  have hword : ∀ word : String, 'n' ∈ word.toList → (String.ofList cs == word) = false := by
    intro word hmem
    rw [beq_eq_false_iff_ne]
    rintro rfl
    rw [String.toList_ofList] at hmem
    exact absurd (hcs 'n' hmem) (by decide)
  rw [Binary64.ofText?, numeralChars_ofList hcs]
  unfold Binary64.ofChars?
  split
  next negative body hsign =>
    split at hsign
    next rest => exact absurd rfl (hunsigned rest).1
    next rest => exact absurd rfl (hunsigned rest).2
    next =>
      cases hsign
      simp [hlower, hword "inf" (by simp), hword "infinity" (by simp), hword "nan" (by simp)]

end ModelPlaybook
