import Mathlib
import ModelPlaybook.Proofs.Number.Dotted
import ModelPlaybook.Yaml.Reading

/-!
# Dotted numerals in documents

A dotted numeral without quotes is taken for a number, and its value is the nearest double.
-/

namespace ModelPlaybook

open Expression

variable {whole decimals : List Char}

theorem IsDotted.ne_of_mem (h : IsDotted whole decimals) {word : String} {c : Char}
    (hword : c ∈ word.toList) (hc : isNumberChar c = false) : dotted whole decimals ≠ word := by
  intro hsame
  exact h.not_mem_of_eq hsame.symm hc hword

theorem ofList_dotted (whole decimals : List Char) :
    String.ofList (whole ++ '.' :: decimals) = dotted whole decimals :=
  rfl

theorem toList_dotted (whole decimals : List Char) :
    (dotted whole decimals).toList = whole ++ '.' :: decimals :=
  String.toList_ofList

namespace Yaml

namespace Pattern

theorem isGrouped_of_digits {cs : List Char} (hsome : cs ≠ [])
    (hcs : ∀ c ∈ cs, Text.isAsciiDigit c = true) : isGrouped cs = true := by
  obtain ⟨c, rest, rfl⟩ := List.exists_cons_of_ne_nil hsome
  simp only [isGrouped, Bool.and_eq_true, List.all_eq_true, isGroupedDigit, Bool.or_eq_true]
  constructor
  · simpa using hcs c List.mem_cons_self
  · exact fun d hd => .inl (hcs d hd)

theorem isFraction_of_digits {cs : List Char} (hcs : ∀ c ∈ cs, Text.isAsciiDigit c = true) :
    isFraction cs = true := by
  have hnothing : cs.dropWhile isGroupedDigit = [] := by
    rw [List.dropWhile_eq_nil_iff]
    intro c hc
    simp [isGroupedDigit, hcs c hc]
  rw [isFraction, hnothing]
  rfl

theorem dropSign_of_numberChars {cs : List Char} (hcs : ∀ c ∈ cs, isNumberChar c = true) :
    dropSign cs = cs := by
  have hunsigned := unsigned_of_numberChars hcs
  unfold dropSign
  split
  next rest => exact absurd rfl (hunsigned rest).1
  next rest => exact absurd rfl (hunsigned rest).2
  next => rfl

theorem isFloat_dotted (h : IsDotted whole decimals) :
    isFloat (whole ++ '.' :: decimals) = true := by
  have hbefore : ∀ c ∈ whole, decide (c ≠ '.') = true :=
    fun c hc => decide_eq_true (ne_of_mem_of_not_mem hc h.point_not_mem)
  have hdrop : (whole ++ '.' :: decimals).dropWhile (· ≠ '.') = '.' :: decimals := by
    rw [List.dropWhile_append_of_pos hbefore]
    simp
  have htake : (whole ++ '.' :: decimals).takeWhile (· ≠ '.') = whole :=
    takeWhile_ne_append decimals h.point_not_mem
  simp only [isFloat, dropSign_of_numberChars h.numberChars, hdrop, htake,
    isGrouped_of_digits h.whole_ne_nil h.whole_digits, isFraction_of_digits h.decimals_digits]
  simp [h.whole_ne_nil]

end Pattern

theorem Tag.ofText_dotted (h : IsDotted whole decimals) :
    Tag.ofText (dotted whole decimals) = .float := by
  have hline : (whole ++ '.' :: decimals).getLast? ≠ some '\n' := by
    intro hlast
    have hbreak := h.numberChars '\n' (List.mem_of_getLast? hlast)
    cases hbreak
  have hbool : Pattern.boolWords.contains (dotted whole decimals) = false := by
    have hletter : ∀ word ∈ Pattern.boolWords, ∃ c ∈ word.toList, isNumberChar c = false := by
      simp [Pattern.boolWords, isNumberChar, Text.isAsciiDigit]
    rw [← Bool.not_eq_true, List.contains_iff_mem]
    intro hmem
    obtain ⟨c, hword, hc⟩ := hletter _ hmem
    exact h.ne_of_mem hword hc rfl
  have hsome : (whole ++ '.' :: decimals).isEmpty = false := by simp
  simp only [Tag.ofText, toList_dotted, if_neg hline, hsome, Bool.false_eq_true, if_false,
    ofList_dotted, hbool, Pattern.isFloat_dotted h, if_true]

namespace Content

theorem unsigned_dotted (h : IsDotted whole decimals) :
    unsigned (dotted whole decimals) = .ok (false, whole ++ '.' :: decimals) := by
  have hkept : (whole ++ '.' :: decimals).filter (· ≠ '_') = whole ++ '.' :: decimals := by
    rw [List.filter_eq_self]
    intro c hc
    apply decide_eq_true
    rintro rfl
    exact absurd (h.numberChars '_' hc) (by decide)
  have hunsigned := unsigned_of_numberChars h.numberChars
  rw [unsigned, toList_dotted, hkept]
  split
  next hnone => simp at hnone
  next rest hminus => exact absurd hminus (hunsigned rest).1
  next rest hplus => exact absurd hplus (hunsigned rest).2
  next => rfl

theorem float_dotted (h : IsDotted whole decimals) :
    float (dotted whole decimals) = .ok (nearestTo whole decimals) := by
  have hlower : (whole ++ '.' :: decimals).map Char.toLower = whole ++ '.' :: decimals := by
    rw [List.map_congr_left fun c hc => toLower_of_isNumberChar (h.numberChars c hc), List.map_id']
  have hword : ∀ word : String, 'n' ∈ word.toList → whole ++ '.' :: decimals ≠ word.toList := by
    intro word hmem hsame
    rw [← hsame] at hmem
    exact absurd (h.numberChars 'n' hmem) (by decide)
  have hcolon : ¬ (whole ++ '.' :: decimals).contains ':' = true := by
    rw [List.contains_iff_mem]
    intro hmem
    exact absurd (h.numberChars ':' hmem) (by decide)
  have hread : fraction (whole ++ '.' :: decimals) = .ok (nearestTo whole decimals) := by
    simp only [fraction, ofList_dotted, ofText?_dotted h]
  rw [float, unsigned_dotted h]
  simp only [bind, Except.bind, hlower, if_neg (hword ".inf" (by simp)),
    if_neg (hword ".nan" (by simp)), if_neg hcolon, hread, pure, Except.pure, Bool.false_and,
    Bool.false_eq_true, if_false]

end Content

end Yaml

end ModelPlaybook
