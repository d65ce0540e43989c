import Mathlib
import ModelPlaybook.Proofs.Expression.Overflow
import ModelPlaybook.Proofs.Number.DecimalValue

/-!
# The exact value of an expression

An expression over whole numbers and decimals has a rational value.  Whole numbers are computed
without bounds and decimals in a context, so an evaluation gives this value if the context can hold
what the operations on decimals give.
-/

namespace ModelPlaybook

/-- The rational number that a finite number stands for. -/
def Number.value (x : Number) : ℚ :=
  x.exact.value

theorem Number.value_int (n : ℤ) : (Number.int n).value = n := by
  have hvalue := DecimalContext.value_settled n 0
  rw [zpow_zero, mul_one] at hvalue
  exact hvalue

theorem Number.value_decimal (d : Decimal) : (Number.decimal d).value = d.value :=
  rfl

theorem Number.isZero_decimal {d : Decimal} (hfinite : d.isFinite = true) (hne : d.value ≠ 0) :
    (Number.decimal d).isZero = .ok false := by
  obtain ⟨negative, c, e, rfl⟩ := Decimal.exists_finite hfinite
  have hc : c ≠ 0 := fun h => hne (value_eq_zero_iff.mpr h)
  simp [Number.isZero, Decimal.isSignaling, Decimal.isZero, hc]

theorem standardContext_precision : 1 ≤ standardContext.precision := by
  decide

namespace Expression

/-! ## Operators -/

/-- An operator on rational numbers. -/
def Operator.rational : Operator → ℚ → ℚ → ℚ
  | plus, p, q => p + q
  | minus, p, q => p - q
  | times, p, q => p * q
  | divide, p, q => p / q
  | other _, _, _ => 0

theorem exists_computed {r : Except DecimalSignal Decimal} {q : ℚ} (hr : DecimalContext.Gives r q) :
    ∃ d, computed (Number.liftDecimal r) = .ok (.decimal d) ∧ d.isFinite = true ∧ d.value = q := by
  obtain ⟨d, rfl, hfinite, hvalue⟩ := hr
  exact ⟨d, rfl, hfinite, hvalue⟩

namespace Operator

variable {operator : Operator}

theorem compute_decimals {x y : Decimal} (hoperator : operator ∈ [plus, minus, times, divide])
    (hx : x.isFinite = true) (hy : y.isFinite = true) (hdivisor : operator = divide → y.value ≠ 0)
    (hholds : standardContext.Holds (operator.rational x.value y.value)) :
    ∃ d, operator.compute (.decimal x) (.decimal y) = .ok (.decimal d) ∧ d.isFinite = true ∧
      d.value = operator.rational x.value y.value := by
  have hprecision := standardContext_precision
  cases operator with
  | plus => exact exists_computed (DecimalContext.gives_add hx hy hprecision hholds)
  | minus => exact exists_computed (DecimalContext.gives_sub hx hy hprecision hholds)
  | times => exact exists_computed (DecimalContext.gives_mul hx hy hprecision hholds)
  | divide =>
      have hne := hdivisor rfl
      obtain ⟨d, hd, hfinite, hvalue⟩ :=
        exists_computed (DecimalContext.gives_div hx hy hne hprecision hholds)
      refine ⟨d, ?_, hfinite, hvalue⟩
      simp only [compute, Number.isZero_decimal hy hne]
      exact hd
  | other symbol => simp at hoperator

/-- Beside a decimal a number is computed with as a decimal. -/
theorem apply_decimals {x y : Number} (hoperator : operator ∈ [plus, minus, times, divide])
    (hdecimal : (x.isDecimal || y.isDecimal) = true) (hx : x.toDecimal.isFinite = true)
    (hy : y.toDecimal.isFinite = true) (hdivisor : operator = divide → y.toDecimal.value ≠ 0)
    (hholds : standardContext.Holds (operator.rational x.toDecimal.value y.toDecimal.value)) :
    ∃ d, operator.apply x y = .ok (.decimal d) ∧ d.isFinite = true ∧
      d.value = operator.rational x.toDecimal.value y.toDecimal.value := by
  have hleft : operandBeside y x = .decimal x.toDecimal := by
    simp [operandBeside, hdecimal]
  have hright : operandBeside x y = .decimal y.toDecimal := by
    simp [operandBeside, Bool.or_comm, hdecimal]
  obtain ⟨d, hd, hfinite, hvalue⟩ := compute_decimals hoperator hx hy hdivisor hholds
  refine ⟨d, ?_, hfinite, hvalue⟩
  rw [apply, hleft, hright, hd]
  exact if_pos hfinite

/-- Whole numbers are not bounded. -/
theorem apply_ints {m n : ℤ} (hoperator : operator ∈ [plus, minus, times, divide])
    (hquotient : operator ≠ divide) :
    ∃ k : ℤ, operator.apply (.int m) (.int n) = .ok (.int k) ∧ (k : ℚ) = operator.rational m n := by
  cases operator with
  | plus => exact ⟨m + n, rfl, by push_cast; rfl⟩
  | minus => exact ⟨m - n, rfl, by push_cast; rfl⟩
  | times => exact ⟨m * n, rfl, by push_cast; rfl⟩
  | divide => exact absurd rfl hquotient
  | other symbol => simp at hoperator

end Operator

/-! ## Expressions -/

namespace Tree

variable {env : Environment} {tree : Tree}

/-- The exact value of an expression. -/
def exactValue (env : Environment) : Tree → ℚ
  | number x => x.value
  | reference target => (((env.lookup? target).bind finiteNumber?).map Number.value).getD 0
  | negate operand => -operand.exactValue env
  | binary operator left right => operator.rational (left.exactValue env) (right.exactValue env)
  | misplaced _ => 0

/-- An expression and everything below it. -/
def nodes : Tree → List Tree
  | negate operand => negate operand :: operand.nodes
  | binary operator left right => binary operator left right :: (left.nodes ++ right.nodes)
  | leaf => [leaf]

def isOperation : Tree → Bool
  | negate _ => true
  | binary .. => true
  | _ => false

/-- A decimal is among the fields that an expression refers to. -/
def HasDecimal (env : Environment) (tree : Tree) : Prop :=
  ∃ r ∈ tree.references, ∃ d, env.lookup? r = some (.decimal d)

/-- An expression over whole literals and over fields with whole numbers and finite decimals, in
which nothing is divided by zero or gives a double, and no result of an operation on decimals is out
of the reach of the context. -/
structure Lossless (env : Environment) (tree : Tree) : Prop where
  literals : ∀ x, number x ∈ tree.nodes → ∃ n, x = .int n
  fields : ∀ r, reference r ∈ tree.nodes →
    (∃ n, env.lookup? r = some (.int n)) ∨
      ∃ d, env.lookup? r = some (.decimal d) ∧ d.isFinite = true
  operators : ∀ operator left right, binary operator left right ∈ tree.nodes →
    operator ∈ [.plus, .minus, .times, .divide]
  wellPlaced : ∀ typeName, misplaced typeName ∉ tree.nodes
  quotients : ∀ left right, binary .divide left right ∈ tree.nodes →
    (binary .divide left right).HasDecimal env
  divisors : ∀ left right, binary .divide left right ∈ tree.nodes → right.exactValue env ≠ 0
  results : ∀ node ∈ tree.nodes, node.isOperation = true → node.HasDecimal env →
    standardContext.Holds (node.exactValue env)

theorem self_mem_nodes (tree : Tree) : tree ∈ tree.nodes := by
  cases tree <;> simp [nodes]

theorem left_nodes_subset (operator : Operator) (left right : Tree) :
    left.nodes ⊆ (binary operator left right).nodes := by
  intro node hnode
  exact List.mem_cons_of_mem _ (List.mem_append_left _ hnode)

theorem right_nodes_subset (operator : Operator) (left right : Tree) :
    right.nodes ⊆ (binary operator left right).nodes := by
  intro node hnode
  exact List.mem_cons_of_mem _ (List.mem_append_right _ hnode)

theorem Lossless.of_subset {part : Tree} (htree : tree.Lossless env)
    (hpart : part.nodes ⊆ tree.nodes) : part.Lossless env where
  literals x hx := htree.literals x (hpart hx)
  fields r hr := htree.fields r (hpart hr)
  operators operator left right h := htree.operators operator left right (hpart h)
  wellPlaced typeName h := htree.wellPlaced typeName (hpart h)
  quotients left right h := htree.quotients left right (hpart h)
  divisors left right h := htree.divisors left right (hpart h)
  results node h := htree.results node (hpart h)

/-- What an evaluation gives where nothing is lost: a decimal if there is one below, and otherwise
a whole number. -/
def GivesExactly (env : Environment) (tree : Tree) (x : Number) : Prop :=
  x.value = tree.exactValue env ∧
    ((tree.HasDecimal env ∧ ∃ d, x = .decimal d ∧ d.isFinite = true) ∨
      (¬ tree.HasDecimal env ∧ ∃ n, x = .int n))

namespace GivesExactly

variable {x y : Number}

theorem isFinite (hx : tree.GivesExactly env x) : x.isFinite = true := by
  obtain ⟨-, ⟨-, d, rfl, hfinite⟩ | ⟨-, n, rfl⟩⟩ := hx
  · exact hfinite
  · rfl

theorem isDecimal_iff (hx : tree.GivesExactly env x) :
    x.isDecimal = true ↔ tree.HasDecimal env := by
  obtain ⟨-, ⟨hdecimal, d, rfl, -⟩ | ⟨hdecimal, n, rfl⟩⟩ := hx
  · simpa [Number.isDecimal] using hdecimal
  · simpa [Number.isDecimal] using hdecimal

theorem toDecimal (hx : tree.GivesExactly env x) :
    x.toDecimal.isFinite = true ∧ x.toDecimal.value = tree.exactValue env := by
  obtain ⟨hvalue, ⟨-, d, rfl, hfinite⟩ | ⟨-, n, rfl⟩⟩ := hx
  · exact ⟨hfinite, hvalue⟩
  · exact ⟨rfl, hvalue⟩

end GivesExactly

theorem hasDecimal_binary {operator : Operator} {left right : Tree} :
    (binary operator left right).HasDecimal env ↔ left.HasDecimal env ∨ right.HasDecimal env := by
  simp only [HasDecimal, references, List.mem_append, or_and_right, exists_or]

theorem evaluate_reference {r : Reference} {v : Value} {x : Number}
    (hfound : env.lookup? r = some v) (hx : finiteNumber? v = some x) :
    (reference r).evaluate env = .ok x ∧ (reference r).exactValue env = x.value := by
  constructor
  · simp only [Tree.evaluate, Environment.lookup, hfound, bind, Except.bind, hx]
    rfl
  · simp [exactValue, hfound, hx]

theorem givesExactly_reference {r : Reference}
    (hfield : (∃ n, env.lookup? r = some (.int n)) ∨
      ∃ d, env.lookup? r = some (.decimal d) ∧ d.isFinite = true) :
    ∃ x, (reference r).evaluate env = .ok x ∧ (reference r).GivesExactly env x := by
  rcases hfield with ⟨n, hn⟩ | ⟨d, hd, hfinite⟩
  · obtain ⟨hevaluate, hvalue⟩ := evaluate_reference (x := .int n) hn rfl
    refine ⟨.int n, hevaluate, hvalue.symm, .inr ⟨?_, n, rfl⟩⟩
    rintro ⟨r', hr', d, hd⟩
    obtain rfl := List.mem_singleton.mp hr'
    rw [hn] at hd
    cases hd
  · have hnumber : finiteNumber? (.decimal d) = some (.decimal d) := by
      simp [finiteNumber?, numeric?, hfinite, Number.isFinite]
    obtain ⟨hevaluate, hvalue⟩ := evaluate_reference hd hnumber
    exact ⟨.decimal d, hevaluate, hvalue.symm,
      .inl ⟨⟨r, List.mem_singleton_self r, d, hd⟩, d, rfl, hfinite⟩⟩

/-- One step up from an operand: only the negative of a decimal is rounded. -/
theorem givesExactly_negate {operand : Tree} {x : Number}
    (hx : operand.evaluate env = .ok x) (hgives : operand.GivesExactly env x)
    (hholds : operand.HasDecimal env → standardContext.Holds (-operand.exactValue env)) :
    ∃ y, (negate operand).evaluate env = .ok y ∧ (negate operand).GivesExactly env y := by
  obtain ⟨hvalue, ⟨hdecimal, d, rfl, hfinite⟩ | ⟨hdecimal, n, rfl⟩⟩ := hgives
  · rw [Number.value_decimal] at hvalue
    rw [← hvalue] at hholds
    obtain ⟨d', hneg, hfinite', hvalue'⟩ :=
      DecimalContext.gives_neg hfinite standardContext_precision (hholds hdecimal)
    refine ⟨.decimal d', ?_, ?_, .inl ⟨hdecimal, d', rfl, hfinite'⟩⟩
    · simp only [Tree.evaluate, hx]
      simp [bind, Except.bind, Number.neg, hneg, Number.liftDecimal, pure, Except.pure]
    · rw [Number.value_decimal, hvalue', hvalue]
      rfl
  · refine ⟨.int (-n), ?_, ?_, .inr ⟨hdecimal, -n, rfl⟩⟩
    · simp only [Tree.evaluate, hx]
      rfl
    · rw [Number.value_int] at hvalue ⊢
      rw [exactValue, ← hvalue]
      push_cast
      rfl

/-- One step up from two operands: they are decimals both, or whole numbers both. -/
theorem givesExactly_binary {operator : Operator} {left right : Tree} {x y : Number}
    (hx : left.evaluate env = .ok x) (hgivesx : left.GivesExactly env x)
    (hy : right.evaluate env = .ok y) (hgivesy : right.GivesExactly env y)
    (hoperator : operator ∈ [.plus, .minus, .times, .divide])
    (hquotient : operator = .divide → (binary operator left right).HasDecimal env)
    (hdivisor : operator = .divide → right.exactValue env ≠ 0)
    (hholds : (binary operator left right).HasDecimal env →
      standardContext.Holds ((binary operator left right).exactValue env)) :
    ∃ z, (binary operator left right).evaluate env = .ok z ∧
      (binary operator left right).GivesExactly env z := by
  have happly : (binary operator left right).evaluate env = operator.apply x y := by
    simp only [Tree.evaluate, hx, hy]
    rfl
  rw [happly]
  by_cases hdecimal : (binary operator left right).HasDecimal env
  · obtain ⟨hxfinite, hxvalue⟩ := hgivesx.toDecimal
    obtain ⟨hyfinite, hyvalue⟩ := hgivesy.toDecimal
    have hkind : (x.isDecimal || y.isDecimal) = true := by
      rw [Bool.or_eq_true, hgivesx.isDecimal_iff, hgivesy.isDecimal_iff]
      exact hasDecimal_binary.mp hdecimal
    have hheld := hholds hdecimal
    rw [exactValue, ← hxvalue, ← hyvalue] at hheld
    rw [← hyvalue] at hdivisor
    obtain ⟨d, hd, hfinite, hvalue⟩ :=
      Operator.apply_decimals hoperator hkind hxfinite hyfinite hdivisor hheld
    refine ⟨.decimal d, hd, ?_, .inl ⟨hdecimal, d, rfl, hfinite⟩⟩
    rw [Number.value_decimal, hvalue, hxvalue, hyvalue]
    rfl
  · obtain ⟨hleft, hright⟩ := not_or.mp fun h => hdecimal (hasDecimal_binary.mpr h)
    obtain ⟨hxvalue, ⟨h, -⟩ | ⟨-, m, rfl⟩⟩ := hgivesx
    · exact absurd h hleft
    obtain ⟨hyvalue, ⟨h, -⟩ | ⟨-, n, rfl⟩⟩ := hgivesy
    · exact absurd h hright
    obtain ⟨k, hk, hvalue⟩ := Operator.apply_ints (m := m) (n := n) hoperator
      fun h => hdecimal (hquotient h)
    refine ⟨.int k, hk, ?_, .inr ⟨hdecimal, k, rfl⟩⟩
    rw [Number.value_int] at hxvalue hyvalue ⊢
    rw [hvalue, hxvalue, hyvalue]
    rfl

theorem Lossless.evaluate (htree : tree.Lossless env) :
    ∃ x, tree.evaluate env = .ok x ∧ tree.GivesExactly env x := by
  induction tree with
  | number x =>
      obtain ⟨n, rfl⟩ := htree.literals x (self_mem_nodes _)
      refine ⟨.int n, rfl, rfl, .inr ⟨?_, n, rfl⟩⟩
      rintro ⟨r, hr, -⟩
      cases hr
  | reference target => exact givesExactly_reference (htree.fields target (self_mem_nodes _))
  | negate operand ih =>
      have hbelow : operand.nodes ⊆ (negate operand).nodes := List.subset_cons_self _ _
      obtain ⟨x, hx, hgives⟩ := ih (htree.of_subset hbelow)
      apply givesExactly_negate hx hgives
      exact htree.results _ (self_mem_nodes _) rfl
  | binary operator left right ihleft ihright =>
      have hself := self_mem_nodes (binary operator left right)
      have hleft := left_nodes_subset operator left right
      have hright := right_nodes_subset operator left right
      obtain ⟨x, hx, hgivesx⟩ := ihleft (htree.of_subset hleft)
      obtain ⟨y, hy, hgivesy⟩ := ihright (htree.of_subset hright)
      apply givesExactly_binary hx hgivesx hy hgivesy (htree.operators _ _ _ hself)
      · rintro rfl
        exact htree.quotients left right hself
      · rintro rfl
        exact htree.divisors left right hself
      · exact htree.results _ hself rfl
  | misplaced typeName => exact absurd (self_mem_nodes _) (htree.wellPlaced typeName)

/-- An expression has its exact value where the context can hold what the operations on decimals
give. -/
theorem evaluate_exact (htree : tree.Lossless env) :
    ∃ x, tree.evaluate env = .ok x ∧ x.isFinite = true ∧ x.value = tree.exactValue env := by
  obtain ⟨x, hx, hgives⟩ := htree.evaluate
  exact ⟨x, hx, hgives.isFinite, hgives.1⟩

/-- Two decimals beyond the exponents of the context, and one with more digits than it keeps. -/
def distant : Environment where
  intake := [(.text "a", .decimal (.finite false 1 1000000)),
    (.text "b", .decimal (.finite false 8 1000000)),
    (.text "c", .decimal (.finite false 1000000000000000000000000000001 0))]
  outputs := []

def field (name : String) : Tree :=
  reference ⟨.intake, name, none⟩

def eighth : Tree :=
  binary .divide (field "a") (field "b")

def longSum : Tree :=
  binary .plus (number (.int 1000000000000000000000000000000)) (number (.int 3))

/-- This is `a / b * 8 + -(1000000000000000000000000000000 + 3 - c)`. -/
def meeting : Tree :=
  binary .plus (binary .times eighth (number (.int 8)))
    (negate (binary .minus longSum (field "c")))

theorem exactValue_eighth : eighth.exactValue distant = 1 / 8 := by
  have ha : (field "a").exactValue distant = (Decimal.finite false 1 1000000).value := rfl
  have hb : (field "b").exactValue distant = (Decimal.finite false 8 1000000).value := rfl
  have hpower := (zpow_ten_pos 1000000).ne'
  rw [eighth, exactValue, ha, hb, Operator.rational, Decimal.value, Decimal.value,
    mul_div_mul_right _ _ hpower]
  rfl

theorem exactValue_difference :
    (binary .minus longSum (field "c")).exactValue distant = 2 := by
  have hc : (field "c").exactValue distant =
      (Decimal.finite false 1000000000000000000000000000001 0).value := rfl
  have hsum : longSum.exactValue distant = 1000000000000000000000000000003 := by
    rw [longSum, exactValue, exactValue, exactValue, Number.value_int, Number.value_int,
      Operator.rational]
    norm_num
  rw [exactValue, hsum, hc, Operator.rational, Decimal.value, Decimal.signedCoefficient]
  norm_num

theorem exactValue_product :
    (binary .times eighth (number (.int 8))).exactValue distant = 1 := by
  rw [exactValue, exactValue_eighth, exactValue, Number.value_int, Operator.rational]
  norm_num

theorem exactValue_meeting : meeting.exactValue distant = -1 := by
  rw [meeting, exactValue, exactValue_product, exactValue, exactValue_difference,
    Operator.rational]
  norm_num

theorem nodes_meeting :
    meeting.nodes = [meeting, binary .times eighth (number (.int 8)), eighth, field "a", field "b",
      number (.int 8), negate (binary .minus longSum (field "c")),
      binary .minus longSum (field "c"), longSum, number (.int 1000000000000000000000000000000),
      number (.int 3), field "c"] :=
  rfl

theorem lossless_meeting : meeting.Lossless distant where
  literals x hx := by
    obtain rfl | rfl | rfl :
        x = .int 8 ∨ x = .int 1000000000000000000000000000000 ∨ x = .int 3 := by
      simpa [meeting, eighth, longSum, field, nodes] using hx
    all_goals exact ⟨_, rfl⟩
  fields r hr := by
    obtain rfl | rfl | rfl : r = ⟨.intake, "a", none⟩ ∨ r = ⟨.intake, "b", none⟩ ∨
        r = ⟨.intake, "c", none⟩ := by
      simpa [meeting, eighth, longSum, field, nodes] using hr
    all_goals exact .inr ⟨_, rfl, rfl⟩
  operators operator left right h := by
    have hoperator : operator = .plus ∨ operator = .times ∨ operator = .divide ∨
        operator = .minus := by
      rw [nodes_meeting] at h
      simp only [meeting, eighth, longSum, field, List.mem_cons, binary.injEq, reduceCtorEq,
        List.not_mem_nil, or_false, false_or] at h
      rcases h with ⟨h, -⟩ | ⟨h, -⟩ | ⟨h, -⟩ | ⟨h, -⟩ | ⟨h, -⟩ <;> simp [h]
    rcases hoperator with rfl | rfl | rfl | rfl <;> simp
  wellPlaced typeName h := by
    simp [meeting, eighth, longSum, field, nodes] at h
  quotients left right h := by
    obtain ⟨rfl, rfl⟩ : left = field "a" ∧ right = field "b" := by
      simpa [meeting, eighth, longSum, field, nodes] using h
    exact ⟨_, List.mem_cons_self, _, rfl⟩
  divisors left right h := by
    obtain ⟨rfl, rfl⟩ : left = field "a" ∧ right = field "b" := by
      simpa [meeting, eighth, longSum, field, nodes] using h
    have hb : (field "b").exactValue distant = (Decimal.finite false 8 1000000).value := rfl
    rw [hb]
    exact fun hzero => absurd (value_eq_zero_iff.mp hzero) (by decide)
  results node hnode hoperation hdecimal := by
    have hheld : ∀ negative c, ∀ e : ℤ, c ∈ [1, 2, 125] → e ∈ [-3, 0] →
        node.exactValue distant = Decimal.signedCoefficient negative c * 10 ^ e →
        standardContext.Holds (node.exactValue distant) := by
      intro negative c e hc he hvalue
      rw [hvalue]
      fin_cases hc <;> fin_cases he <;>
        exact DecimalContext.holds_value (by decide) (by decide) (by decide)
    -- The values are -1, 1, 1/8, -2 and 2; the sum of the literals has no decimal below it.
    simp only [nodes_meeting, List.mem_cons, List.not_mem_nil, or_false] at hnode
    rcases hnode with rfl | rfl | rfl | rfl | rfl | rfl | rfl | rfl | rfl | rfl | rfl | rfl
    · apply hheld true 1 0 (by simp) (by simp)
      exact exactValue_meeting.trans (by norm_num [Decimal.signedCoefficient])
    · apply hheld false 1 0 (by simp) (by simp)
      exact exactValue_product.trans (by norm_num [Decimal.signedCoefficient])
    · apply hheld false 125 (-3) (by simp) (by simp)
      exact exactValue_eighth.trans (by norm_num [Decimal.signedCoefficient])
    · cases hoperation
    · cases hoperation
    · cases hoperation
    · apply hheld true 2 0 (by simp) (by simp)
      exact (congrArg Neg.neg exactValue_difference).trans (by norm_num [Decimal.signedCoefficient])
    · apply hheld false 2 0 (by simp) (by simp)
      exact exactValue_difference.trans (by norm_num [Decimal.signedCoefficient])
    · obtain ⟨r, hr, -⟩ := hdecimal
      cases hr
    · cases hoperation
    · cases hoperation
    · cases hoperation

theorem meeting_evaluates :
    meeting.Lossless distant ∧
    ∃ x, meeting.evaluate distant = .ok x ∧ x.isFinite = true ∧ x.value = -1 := by
  obtain ⟨x, hx, hfinite, hvalue⟩ := evaluate_exact lossless_meeting
  exact ⟨lossless_meeting, x, hx, hfinite, hvalue.trans exactValue_meeting⟩

end Tree

end Expression

end ModelPlaybook
