import Mathlib
import ModelPlaybook.Proofs.Expression.ConditionParts
import ModelPlaybook.Proofs.Number.ExactOrder

/-!
# Strict comparison

Two finite numbers stand in a comparison just if their exact values do, whatever their kinds and
however many digits they have.  Where one of two values is no number, only values of one type are
equal, and no order is defined.
-/

namespace ModelPlaybook

/-! ## Comparators as relations -/

/-- What a comparator says about two rational numbers. -/
def Comparator.relation : Comparator → ℚ → ℚ → Prop
  | equal, p, q => p = q
  | notEqual, p, q => p ≠ q
  | atLeast, p, q => q ≤ p
  | atMost, p, q => p ≤ q
  | greater, p, q => q < p
  | less, p, q => p < q

namespace Comparator

instance decidableRelation (k : Comparator) (p q : ℚ) : Decidable (k.relation p q) :=
  match k with
  | equal => inferInstanceAs (Decidable (p = q))
  | notEqual => inferInstanceAs (Decidable (p ≠ q))
  | atLeast => inferInstanceAs (Decidable (q ≤ p))
  | atMost => inferInstanceAs (Decidable (p ≤ q))
  | greater => inferInstanceAs (Decidable (q < p))
  | less => inferInstanceAs (Decidable (p < q))

theorem holds_compare (k : Comparator) (p q : ℚ) :
    k.holds (compare p q) = decide (k.relation p q) := by
  rcases lt_trichotomy p q with hlt | rfl | hgt
  · rw [compare_lt_iff_lt.mpr hlt]
    cases k <;> simp [holds, relation, hlt, hlt.le, hlt.ne, hlt.not_gt, hlt.not_ge]
  · rw [compare_eq_iff_eq.mpr rfl]
    cases k <;> simp [holds, relation]
  · rw [compare_gt_iff_gt.mpr hgt]
    cases k <;> simp [holds, relation, hgt, hgt.le, hgt.ne', hgt.not_gt, hgt.not_ge]

theorem ofSymbol?_symbol (k : Comparator) : ofSymbol? k.symbol = some k := by
  cases k <;> decide

end Comparator

theorem Number.holds_eq (k : Comparator) {x y : Number} (hx : x.isFinite = true)
    (hy : y.isFinite = true) : x.holds k y = .ok (decide (k.relation x.value y.value)) := by
  have hleft := notNaN_of_isFinite hx
  have hright := notNaN_of_isFinite hy
  simp only [holds, hleft, hright, compare?_eq hx hy, k.holds_compare, Bool.or_false,
    Bool.and_false, Bool.false_eq_true, if_false]

namespace Expression

theorem compareBySymbol_symbol (k : Comparator) (x y : Value) :
    compareBySymbol k.symbol x y = compareStrictly k x y := by
  rw [compareBySymbol, k.ofSymbol?_symbol]

/-- A comparison of two values has a result, and it is true. -/
def Compares (k : Comparator) (x y : Value) : Prop :=
  compareBySymbol k.symbol x y = .ok true

/-! ## Numbers -/

section

variable {a b c : Number}

theorem compareBySymbol_numbers (k : Comparator) (ha : a.isFinite = true)
    (hb : b.isFinite = true) :
    compareBySymbol k.symbol a.toValue b.toValue = .ok (decide (k.relation a.value b.value)) := by
  rw [compareBySymbol_symbol]
  simp only [compareStrictly, numeric?_toValue ha, numeric?_toValue hb, Number.holds_eq k ha hb]
  rfl

theorem compares_iff (k : Comparator) (ha : a.isFinite = true) (hb : b.isFinite = true) :
    Compares k a.toValue b.toValue ↔ k.relation a.value b.value := by
  rw [Compares, compareBySymbol_numbers k ha hb, Except.ok.injEq, decide_eq_true_iff]

/-- Comparison puts three numbers in the order of their exact values. -/
structure ComparedExactly (a b c : Number) : Prop where
  exact (k : Comparator) :
    compareBySymbol k.symbol a.toValue b.toValue = .ok (decide (k.relation a.value b.value))
  equal_trans : Compares .equal a.toValue b.toValue → Compares .equal b.toValue c.toValue →
    Compares .equal a.toValue c.toValue
  exactly_one : ∃! k, k ∈ [Comparator.less, .equal, .greater] ∧ Compares k a.toValue b.toValue
  atMost_iff : Compares .atMost a.toValue b.toValue ↔
    Compares .less a.toValue b.toValue ∨ Compares .equal a.toValue b.toValue
  atLeast_iff : Compares .atLeast a.toValue b.toValue ↔
    Compares .greater a.toValue b.toValue ∨ Compares .equal a.toValue b.toValue

theorem exists_unique_relation (p q : ℚ) :
    ∃! k, k ∈ [Comparator.less, .equal, .greater] ∧ k.relation p q := by
  rcases lt_trichotomy p q with hlt | heq | hgt
  · refine ⟨.less, ⟨by simp, hlt⟩, ?_⟩
    rintro k ⟨hk, hrelation⟩
    fin_cases hk
    · rfl
    · exact absurd hrelation hlt.ne
    · exact absurd hrelation hlt.not_gt
  · refine ⟨.equal, ⟨by simp, heq⟩, ?_⟩
    rintro k ⟨hk, hrelation⟩
    fin_cases hk
    · exact absurd heq (ne_of_lt hrelation)
    · rfl
    · exact absurd heq (ne_of_gt hrelation)
  · refine ⟨.greater, ⟨by simp, hgt⟩, ?_⟩
    rintro k ⟨hk, hrelation⟩
    fin_cases hk
    · exact absurd hrelation hgt.not_gt
    · exact absurd hrelation hgt.ne'
    · rfl

theorem comparedExactly_of_isFinite (ha : a.isFinite = true) (hb : b.isFinite = true)
    (hc : c.isFinite = true) : ComparedExactly a b c where
  exact k := compareBySymbol_numbers k ha hb
  equal_trans := by
    rw [compares_iff _ ha hb, compares_iff _ hb hc, compares_iff _ ha hc]
    exact Eq.trans
  exactly_one := by
    simp only [compares_iff _ ha hb]
    exact exists_unique_relation a.value b.value
  atMost_iff := by
    rw [compares_iff _ ha hb, compares_iff _ ha hb, compares_iff _ ha hb]
    exact le_iff_lt_or_eq
  atLeast_iff := by
    rw [compares_iff _ ha hb, compares_iff _ ha hb, compares_iff _ ha hb]
    exact le_iff_lt_or_eq.trans (or_congr_right eq_comm)

end

/-! ## Other values -/

section

variable {x y : Value}

/-- Comparison of two values that are not both numbers asks for their types first. -/
structure ComparedByType (x y : Value) : Prop where
  kind_eq : Compares .equal x y → x.kind = y.kind
  notEqual : compareBySymbol "!=" x y = (compareBySymbol "==" x y).map not
  unordered (k : Comparator) (hk : k.isEquality = false) :
    compareBySymbol k.symbol x y =
      .error (.evaluation (.notComparable k.symbol x.typeName y.typeName))

/-- Whether two values are of one type and equal. -/
def typedEquality (x y : Value) : Except Failure Bool :=
  if x.kind = y.kind then escaping (x.equals y) else .ok false

theorem compareStrictly_equality {k : Comparator} (hxy : numeric? x = none ∨ numeric? y = none)
    (hk : k.isEquality = true) :
    compareStrictly k x y = (typedEquality x y).map (· == (k == .equal)) := by
  unfold compareStrictly
  split
  next m n hm hn => simp [hm, hn] at hxy
  next hnone =>
    rw [if_pos hk, typedEquality]
    by_cases hkind : x.kind = y.kind
    · rw [if_pos hkind, if_pos hkind]
      rfl
    · rw [if_neg hkind, if_neg hkind]
      rfl

theorem compareStrictly_order {k : Comparator} (hxy : numeric? x = none ∨ numeric? y = none)
    (hk : k.isEquality = false) :
    compareStrictly k x y =
      .error (.evaluation (.notComparable k.symbol x.typeName y.typeName)) := by
  unfold compareStrictly
  split
  next m n hm hn => simp [hm, hn] at hxy
  next hnone => rw [if_neg (by simp [hk])]

theorem comparedByType_of_not_numbers (hxy : numeric? x = none ∨ numeric? y = none) :
    ComparedByType x y where
  kind_eq := by
    intro hequal
    by_contra hkind
    rw [Compares, compareBySymbol_symbol, compareStrictly_equality hxy rfl, typedEquality,
      if_neg hkind] at hequal
    cases hequal
  notEqual := by
    have hequal : compareBySymbol "==" x y = (typedEquality x y).map (· == true) := by
      exact (compareBySymbol_symbol .equal x y).trans (compareStrictly_equality hxy rfl)
    have hnotEqual : compareBySymbol "!=" x y = (typedEquality x y).map (· == false) := by
      exact (compareBySymbol_symbol .notEqual x y).trans (compareStrictly_equality hxy rfl)
    have hnegated : ∀ same : Bool, (same == false) = !(same == true) := by decide
    rw [hequal, hnotEqual, map_map]
    simp only [hnegated]
  unordered := by
    intro k hk
    rw [compareBySymbol_symbol, compareStrictly_order hxy hk]

end

/-- Finite numbers of all kinds compare by their exact values, which is one order; values that are
not both numbers are equal only within one type and have no order. -/
theorem comparison_exact_or_typed (a b c : Number) (x y : Value) :
    (a.isFinite = true → b.isFinite = true → c.isFinite = true → ComparedExactly a b c) ∧
      (numeric? x = none ∨ numeric? y = none → ComparedByType x y) :=
  ⟨comparedExactly_of_isFinite, comparedByType_of_not_numbers⟩

/-- The numbers differ in the last of thirty-one digits, more than decimals are computed with. -/
theorem long_numbers_compared :
    compareBySymbol ">" (.int (10 ^ 30 + 1)) (.decimal (.finite false 1 30)) = .ok true ∧
      ComparedByType (.bool true) (.int 1) := by
  have hcompared := comparison_exact_or_typed (.int (10 ^ 30 + 1)) (.decimal (.finite false 1 30))
    (.decimal (.finite true 5 (-2))) (.bool true) (.int 1)
  have hexact := (hcompared.1 rfl rfl rfl).exact .greater
  have hless : (Number.decimal (.finite false 1 30)).value < (Number.int (10 ^ 30 + 1)).value := by
    rw [Number.value_int, Number.value_decimal, value_positive]
    norm_num
  have htrue : decide (Comparator.greater.relation (Number.int (10 ^ 30 + 1)).value
      (Number.decimal (.finite false 1 30)).value) = true := decide_eq_true hless
  rw [htrue] at hexact
  exact ⟨hexact, hcompared.2 (.inl rfl)⟩

end Expression

end ModelPlaybook
