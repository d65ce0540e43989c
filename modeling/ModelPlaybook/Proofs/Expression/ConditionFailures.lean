import Mathlib
import ModelPlaybook.Proofs.Expression.ConditionParts

/-!
# What escapes a condition

A condition has a truth value or fails with an error of the language, with two exceptions: an order
between a decimal and a double that is no number, and an equality that comes to a signaling NaN or
to the stand-in for a blocked name.  Nothing turns the faults of these comparisons into errors of
the language.
-/

namespace ModelPlaybook.Expression

/-- A result, or an error of the language. -/
def IsContained {α : Type} (r : Except Failure α) : Prop :=
  (∃ a, r = .ok a) ∨ ∃ failure, r = .error failure ∧ failure.isExpressionError = true

theorem not_isContained_of_fault {α : Type} {r : Except Failure α} {fault : Fault}
    (hfault : r = .error (.fault fault)) : ¬ IsContained r := by
  rintro (⟨a, hok⟩ | ⟨failure, herror, hkind⟩)
  · simp [hfault] at hok
  · rw [hfault] at herror
    cases herror
    simp [Failure.isExpressionError] at hkind

/-! ## Comparisons -/

/-- A strict comparison of two values stops with a fault. -/
inductive Clashes (k : Comparator) : Fault → Value → Value → Prop where
  | unordered {x y : Value} {d : Decimal} {f : Binary64} (horder : k.isEquality = false)
      (hd : d.isFinite = true) (hf : f.isNaN = true)
      (hsides : (x = .decimal d ∧ y = .float f) ∨ (x = .float f ∧ y = .decimal d)) :
      Clashes k (.ofSignal .invalidOperation) x y
  | equality {fault : Fault} {x y : Value} (hequality : k.isEquality = true)
      (hkind : x.kind = y.kind) (hstops : Value.Stops fault x y) : Clashes k fault x y

/-- The values that count as numbers beside each other. -/
theorem numeric?_cases {x : Value} {m : Number} (hx : numeric? x = some m) :
    (∃ n, x = .int n ∧ m = .int n) ∨ (∃ f, x = .float f ∧ m = .float f) ∨
      ∃ d, x = .decimal d ∧ m = .decimal d ∧ d.isFinite = true := by
  cases x with
  | scalar s =>
      cases s with
      | int n =>
          cases hx
          exact .inl ⟨n, rfl, rfl⟩
      | float f =>
          cases hx
          exact .inr (.inl ⟨f, rfl, rfl⟩)
      | decimal d =>
          by_cases hd : d.isFinite = true
          · simp only [numeric?, if_pos hd, Option.some.injEq] at hx
            exact .inr (.inr ⟨d, rfl, hx.symm, hd⟩)
          · simp [numeric?, hd] at hx
      | _ => simp [numeric?] at hx
  | _ => simp [numeric?] at hx

theorem not_isSignaling_of_numeric? {x : Value} {m : Number} (hx : numeric? x = some m) :
    m.isSignaling = false := by
  rcases numeric?_cases hx with ⟨n, -, rfl⟩ | ⟨f, -, rfl⟩ | ⟨d, -, rfl, hd⟩
  · rfl
  · rfl
  · exact (Decimal.notNaN_of_isFinite hd).1

theorem eq_toValue_of_numeric? {x : Value} {m : Number} (hx : numeric? x = some m) :
    x = m.toValue := by
  rcases numeric?_cases hx with ⟨n, rfl, rfl⟩ | ⟨f, rfl, rfl⟩ | ⟨d, rfl, rfl, -⟩
  · rfl
  · rfl
  · rfl

theorem exists_decimal_of_numeric? {x : Value} {m : Number} (hx : numeric? x = some m)
    (hm : m.isDecimal = true) :
    ∃ d : Decimal, d.isFinite = true ∧ x = .decimal d ∧ m.isNaN = false := by
  rcases numeric?_cases hx with ⟨n, -, rfl⟩ | ⟨f, -, rfl⟩ | ⟨d, rfl, rfl, hd⟩
  · cases hm
  · cases hm
  · exact ⟨d, hd, rfl, (Decimal.notNaN_of_isFinite hd).2⟩

theorem exists_float_of_numeric? {x : Value} {m : Number} (hx : numeric? x = some m)
    (hm : m.isNaN = true) : ∃ f : Binary64, f.isNaN = true ∧ x = .float f := by
  rcases numeric?_cases hx with ⟨n, -, rfl⟩ | ⟨f, rfl, rfl⟩ | ⟨d, -, rfl, hd⟩
  · cases hm
  · exact ⟨f, hm, rfl⟩
  · have hnumber : (Number.decimal d).isNaN = false := (Decimal.notNaN_of_isFinite hd).2
    simp [hnumber] at hm

/-- Equality of values that both count as numbers does not stop. -/
theorem not_stops_of_numeric? {fault : Fault} {x y : Value} {m n : Number}
    (hx : numeric? x = some m) (hy : numeric? y = some n) : ¬ Value.Stops fault x y := by
  intro hstops
  have hequals := Value.equals_eq_error_iff.mpr hstops
  obtain ⟨a, ha, hma⟩ := Number.exists_scalar m
  obtain ⟨b, hb, hnb⟩ := Number.exists_scalar n
  obtain rfl : x = m.toValue := eq_toValue_of_numeric? hx
  obtain rfl : y = n.toValue := eq_toValue_of_numeric? hy
  rw [ha, hb, Value.equals_eq_equalsIn rfl rfl] at hequals
  obtain ⟨-, m', n', hm, hn, hsignaling⟩ :=
    Value.liftSignal_scalar_equals_eq_error_iff.mp hequals
  obtain rfl := Option.some.inj (hma.symm.trans hm)
  obtain rfl := Option.some.inj (hnb.symm.trans hn)
  simp [not_isSignaling_of_numeric? hx, not_isSignaling_of_numeric? hy] at hsignaling

theorem Clashes.compareStrictly_eq {k : Comparator} {fault : Fault} {x y : Value}
    (hclashes : Clashes k fault x y) : compareStrictly k x y = .error (.fault fault) := by
  cases hclashes with
  | @unordered _ _ d f horder hd hf hsides =>
      obtain ⟨hleft, hright⟩ := Number.holds_eq_error_of_unordered horder hd hf
      have hfloat : numeric? (.float f) = some (.float f) := rfl
      have hdecimal : numeric? (.decimal d) = some (.decimal d) := by simp [numeric?, hd]
      rcases hsides with ⟨rfl, rfl⟩ | ⟨rfl, rfl⟩
      · simp only [compareStrictly, hfloat, hdecimal, hleft]
        rfl
      · simp only [compareStrictly, hfloat, hdecimal, hright]
        rfl
  | equality hequality hkind hstops =>
      have hequals := Value.equals_eq_error_iff.mpr hstops
      unfold compareStrictly
      split
      · rename_i m n hx hy
        exact absurd hstops (not_stops_of_numeric? hx hy)
      · simp only [hequality, hkind, hequals, if_true]
        rfl

/-- A comparison stops with a decimal signal or with a denial. -/
theorem Clashes.fault_cases {k : Comparator} {fault : Fault} {x y : Value}
    (hclashes : Clashes k fault x y) :
    fault = .ofSignal .invalidOperation ∨ ∃ name, fault = .denied name := by
  cases hclashes with
  | unordered horder hd hf hsides => exact .inl rfl
  | equality hequality hkind hstops => exact hstops.fault_cases

/-- Among the values that count as numbers, only doubles are no numbers. -/
theorem clashes_of_numeric? {k : Comparator} {x y : Value} {m n : Number}
    (hx : numeric? x = some m) (hy : numeric? y = some n)
    (hstops : k.isEquality = false ∧ (m.isDecimal = true ∨ n.isDecimal = true) ∧
      (m.isNaN = true ∨ n.isNaN = true)) : Clashes k (.ofSignal .invalidOperation) x y := by
  obtain ⟨horder, hdecimal, hnan⟩ := hstops
  rcases hdecimal with hm | hn
  · obtain ⟨d, hd, rfl, hnumber⟩ := exists_decimal_of_numeric? hx hm
    rw [hnumber] at hnan
    obtain ⟨f, hf, rfl⟩ := exists_float_of_numeric? hy (by simpa using hnan)
    exact .unordered horder hd hf (.inl ⟨rfl, rfl⟩)
  · obtain ⟨d, hd, rfl, hnumber⟩ := exists_decimal_of_numeric? hy hn
    rw [hnumber] at hnan
    obtain ⟨f, hf, rfl⟩ := exists_float_of_numeric? hx (by simpa using hnan)
    exact .unordered horder hd hf (.inr ⟨rfl, rfl⟩)

theorem isContained_compareStrictly {k : Comparator} {x y : Value}
    (hclashes : ∀ fault, ¬ Clashes k fault x y) : IsContained (compareStrictly k x y) := by
  unfold compareStrictly
  split
  · rename_i m n hx hy
    cases hholds : m.holds k n with
    | ok b => exact .inl ⟨b, rfl⟩
    | error s =>
        rw [Number.holds_eq_error_iff (not_isSignaling_of_numeric? hx)
          (not_isSignaling_of_numeric? hy)] at hholds
        exact absurd (clashes_of_numeric? hx hy hholds.2) (hclashes _)
  · by_cases hequality : k.isEquality = true
    · simp only [if_pos hequality]
      by_cases hkind : x.kind = y.kind
      · simp only [if_pos hkind]
        cases hequals : x.equals y with
        | ok b => exact .inl ⟨_, rfl⟩
        | error fault =>
            have hstops := Value.equals_eq_error_iff.mp hequals
            exact absurd (.equality hequality hkind hstops) (hclashes fault)
      · simp only [if_neg hkind]
        exact .inl ⟨_, rfl⟩
    · simp only [if_neg hequality]
      exact .inr ⟨_, rfl, rfl⟩

/-! ## Conditions -/

/-- The two sides of a condition clash, and a fault comes of it. -/
def Escapes (env : Environment) (condition : Value) (fault : Fault) : Prop :=
  ∃ text c x y, condition = .text text ∧ Condition.ofText text = .ok c ∧
    c.left.value env = .ok x ∧ c.right.value env = .ok y ∧ Clashes c.comparator fault x y

theorem Escapes.holds_eq {env : Environment} {condition : Value} {fault : Fault}
    (hescapes : Escapes env condition fault) :
    holds env condition = .error (.fault fault) := by
  obtain ⟨text, c, x, y, rfl, hread, hx, hy, hclashes⟩ := hescapes
  rw [holds_of_ofText hread]
  simp only [Condition.evaluate, hx, hy, bind, Except.bind]
  exact hclashes.compareStrictly_eq

theorem isContained_value (operand : Operand) (env : Environment) :
    IsContained (operand.value env) := by
  cases operand with
  | number n => exact .inl ⟨_, rfl⟩
  | reference target =>
      cases hlookup : env.lookup target with
      | ok v => exact .inl ⟨v, hlookup⟩
      | error failure =>
          exact .inr ⟨failure, hlookup, Environment.isExpressionError_of_lookup hlookup⟩

theorem isContained_holds {env : Environment} {condition : Value}
    (hescapes : ∀ fault, ¬ Escapes env condition fault) : IsContained (holds env condition) := by
  by_cases hread : ∃ text c, condition = .text text ∧ Condition.ofText text = .ok c
  · obtain ⟨text, c, rfl, hread⟩ := hread
    rw [holds_of_ofText hread, Condition.evaluate]
    rcases isContained_value c.left env with ⟨x, hx⟩ | ⟨failure, hx, hkind⟩
    · rcases isContained_value c.right env with ⟨y, hy⟩ | ⟨failure, hy, hkind⟩
      · simp only [hx, hy, bind, Except.bind]
        apply isContained_compareStrictly
        intro fault hclashes
        exact hescapes fault ⟨text, c, x, y, rfl, hread, hx, hy, hclashes⟩
      · simp only [hx, hy, bind, Except.bind]
        exact .inr ⟨failure, rfl, hkind⟩
    · simp only [hx, bind, Except.bind]
      exact .inr ⟨failure, rfl, hkind⟩
  · unfold holds
    split
    · exact .inl ⟨_, rfl⟩
    · rename_i text
      dsimp only
      split
      · exact .inl ⟨_, rfl⟩
      · split
        · exact .inl ⟨_, rfl⟩
        · cases hparsed : Condition.ofText text with
          | ok c => exact absurd ⟨text, c, rfl, hparsed⟩ hread
          | error fault => exact .inr ⟨_, rfl, rfl⟩
    · exact .inr ⟨_, rfl, rfl⟩

/-! ## Fields that cannot be compared -/

theorem not_contains_toValue {x : Number} (hx : x.isFinite = true) :
    ¬ x.toValue.Contains Value.IsUncomparable := by
  obtain ⟨a, ha, hnumber⟩ := Number.exists_scalar x
  rw [ha]
  intro hcontains
  cases hcontains with
  | self hself =>
      rcases hself with ⟨n, hn, hnan⟩ | ⟨name, hname⟩
      · obtain rfl := Option.some.inj (hnumber.symm.trans hn)
        simp [(Number.notNaN_of_isFinite hx).2] at hnan
      · cases hname
  | part hpart => simp [Value.parts] at hpart

theorem Clashes.contains {k : Comparator} {fault : Fault} {x y : Value}
    (hclashes : Clashes k fault x y) :
    x.Contains Value.IsUncomparable ∨ y.Contains Value.IsUncomparable := by
  cases hclashes with
  | unordered horder hd hf hsides =>
      rcases hsides with ⟨rfl, rfl⟩ | ⟨rfl, rfl⟩
      · exact .inr (.self (.inl ⟨_, rfl, hf⟩))
      · exact .inl (.self (.inl ⟨_, rfl, hf⟩))
  | equality hequality hkind hstops => exact hstops.contains

/-- Numbers that a text writes are finite, so that any other operand comes from a field. -/
theorem Operand.WrittenBy.exists_lookup? {text : String} {ts used : List Token}
    {operand : Operand} {env : Environment} {v : Value} (hwritten : operand.WrittenBy used)
    (hts : tokens .condition text = .ok ts) (hused : used ⊆ ts) (hvalue : operand.value env = .ok v)
    (hcontains : v.Contains Value.IsUncomparable) : ∃ r, env.lookup? r = some v := by
  cases operand with
  | number n =>
      obtain ⟨x, hx, hnumber⟩ : ∃ x : Number, x.isFinite = true ∧
          (Operand.number n).value env = .ok x.toValue := hwritten.exists_value hts hused (by simp)
      obtain rfl := Except.ok.inj (hvalue.symm.trans hnumber)
      exact absurd hcontains (not_contains_toValue hx)
  | reference target => exact ⟨target, Environment.lookup_eq_ok hvalue⟩

theorem Escapes.fault_cases {env : Environment} {condition : Value} {fault : Fault}
    (hescapes : Escapes env condition fault) :
    fault = .ofSignal .invalidOperation ∨ ∃ name, fault = .denied name := by
  obtain ⟨text, c, x, y, rfl, hread, hx, hy, hclashes⟩ := hescapes
  exact hclashes.fault_cases

theorem Escapes.exists_lookup? {env : Environment} {condition : Value} {fault : Fault}
    (hescapes : Escapes env condition fault) :
    ∃ r v, env.lookup? r = some v ∧ v.Contains Value.IsUncomparable := by
  obtain ⟨text, c, x, y, rfl, hread, hx, hy, hclashes⟩ := hescapes
  obtain ⟨ts, hts, hwritten⟩ := Condition.ofText_eq_ok_iff.mp hread
  cases hwritten with
  | comparison hleft ht hright hlast =>
      rcases hclashes.contains with hcontains | hcontains
      · obtain ⟨r, hr⟩ := hleft.exists_lookup? hts (List.subset_append_left _ _) hx hcontains
        exact ⟨r, x, hr, hcontains⟩
      · obtain ⟨r, hr⟩ := hright.exists_lookup? hts (fun t ht => by simp [ht]) hy hcontains
        exact ⟨r, y, hr, hcontains⟩

/-- A condition has a truth value or fails with an error of the language, unless its two sides
clash.  Then the fault of the comparison escapes, which is a decimal signal or a denial, and one of
the fields holds a NaN or a stand-in. -/
theorem conditions_contained_unless_clash (env : Environment) (condition : Value) :
    (IsContained (holds env condition) ↔ ∀ fault, ¬ Escapes env condition fault) ∧
    ∀ fault, Escapes env condition fault →
      holds env condition = .error (.fault fault) ∧
      (fault = .ofSignal .invalidOperation ∨ ∃ name, fault = .denied name) ∧
      ∃ r v, env.lookup? r = some v ∧ v.Contains Value.IsUncomparable := by
  refine ⟨⟨?_, isContained_holds⟩, fun fault hescapes =>
    ⟨hescapes.holds_eq, hescapes.fault_cases, hescapes.exists_lookup?⟩⟩
  intro hcontained fault hescapes
  exact not_isContained_of_fault hescapes.holds_eq hcontained

/-- An intake with two values. -/
def pairing (a b : Value) : Environment where
  intake := [(.text "a", a), (.text "b", b)]
  outputs := []

/-- A comparison of the two values. -/
def comparing (k : Comparator) (position : Nat) : Condition :=
  ⟨.reference ⟨.intake, "a", some 0⟩, k, .reference ⟨.intake, "b", some position⟩⟩

def signalingNaN : Value :=
  .decimal (.nan false true 0)

theorem clashing_conditions_escape :
    holds (pairing signalingNaN signalingNaN) (.text "intake.a == intake.b") =
      .error (.fault (.ofSignal .invalidOperation)) ∧
    ¬ IsContained (holds (pairing signalingNaN signalingNaN) (.text "intake.a == intake.b")) ∧
    holds (pairing (.decimal (.finite false 1 0)) (.float .nan)) (.text "intake.a > intake.b") =
      .error (.fault (.ofSignal .invalidOperation)) ∧
    ¬ IsContained
      (holds (pairing (.decimal (.finite false 1 0)) (.float .nan))
        (.text "intake.a > intake.b")) := by
  have hequal : Condition.ofText "intake.a == intake.b" = .ok (comparing .equal 12) := by cbv
  have hgreater : Condition.ofText "intake.a > intake.b" = .ok (comparing .greater 11) := by cbv
  have hstops : Value.Stops (.ofSignal .invalidOperation) signalingNaN signalingNaN :=
    .number rfl rfl (.inl rfl)
  have hsame : Escapes (pairing signalingNaN signalingNaN) (.text "intake.a == intake.b")
      (.ofSignal .invalidOperation) :=
    ⟨_, _, _, _, rfl, hequal, rfl, rfl, .equality rfl rfl hstops⟩
  have horder : Escapes (pairing (.decimal (.finite false 1 0)) (.float .nan))
      (.text "intake.a > intake.b") (.ofSignal .invalidOperation) :=
    ⟨_, _, _, _, rfl, hgreater, rfl, rfl, .unordered rfl rfl rfl (.inl ⟨rfl, rfl⟩)⟩
  exact ⟨hsame.holds_eq, not_isContained_of_fault hsame.holds_eq, horder.holds_eq,
    not_isContained_of_fault horder.holds_eq⟩

end ModelPlaybook.Expression
