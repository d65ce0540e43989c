import Mathlib
import ModelPlaybook.Proofs.Expression.ExactValue

/-!
# The kind of a result

An operation decides from its operands alone whether it gives a whole number, a double or a decimal.
The kinds are ranked: doubles prevail over whole numbers and decimals over both, and a quotient is
never a whole number.  So the rank of a result is the highest rank in the whole expression, wherever
it stands.
-/

namespace ModelPlaybook

namespace Number

/-- Whole numbers come first, then doubles, then decimals. -/
def rank : Number → ℕ
  | .int _ => 0
  | .float _ => 1
  | .decimal _ => 2

@[simp] theorem rank_int (n : ℤ) : (Number.int n).rank = 0 := rfl

@[simp] theorem rank_float (f : Binary64) : (Number.float f).rank = 1 := rfl

@[simp] theorem rank_decimal (d : Decimal) : (Number.decimal d).rank = 2 := rfl

variable {x y z : Number}

theorem rank_eq_zero_iff : x.rank = 0 ↔ ∃ n, x = .int n := by
  cases x <;> simp

theorem rank_eq_one_iff : x.rank = 1 ↔ ∃ f, x = .float f := by
  cases x <;> simp

theorem rank_eq_two_iff : x.rank = 2 ↔ ∃ d, x = .decimal d := by
  cases x <;> simp

theorem rank_of_neg (hz : x.neg = .ok z) : z.rank = x.rank := by
  cases x with
  | int n =>
      cases hz
      rfl
  | float f =>
      cases hz
      rfl
  | decimal d =>
      simp only [neg, liftDecimal] at hz
      split at hz
      · cases hz
        rfl
      · cases hz

/-- The rank of a result is that of its operands, or the least one that results on whole numbers
have. -/
theorem rank_of_combine {symbol : String} {onInts : ℤ → ℤ → Except Fault Number}
    {onFloats : Binary64 → Binary64 → Except Fault Number}
    {onDecimals : Decimal → Decimal → Except DecimalSignal Decimal} {least : ℕ}
    (hleast : least ≤ 1) (hints : ∀ a b z, onInts a b = .ok z → z.rank = least)
    (hfloats : ∀ a b z, onFloats a b = .ok z → z.rank = 1)
    (hz : combine symbol onInts onFloats onDecimals x y = .ok z) :
    z.rank = max least (max x.rank y.rank) := by
  have hlift : ∀ a b, liftDecimal (onDecimals a b) = .ok z → z.rank = 2 := by
    intro a b hz
    unfold liftDecimal at hz
    split at hz
    · cases hz
      rfl
    · cases hz
  unfold combine at hz
  split at hz
  · have hrank := hints _ _ _ hz
    simp [hrank]
  · have hrank := hfloats _ _ _ hz
    simp [hrank, hleast]
  · obtain ⟨_, -, hz⟩ := bind_eq_ok.mp hz
    have hrank := hfloats _ _ _ hz
    simp [hrank, hleast]
  · obtain ⟨_, -, hz⟩ := bind_eq_ok.mp hz
    have hrank := hfloats _ _ _ hz
    simp [hrank, hleast]
  · have hrank := hlift _ _ hz
    simp only [rank_decimal, hrank]
    omega
  · have hrank := hlift _ _ hz
    simp only [rank_decimal, rank_int, hrank]
    omega
  · have hrank := hlift _ _ hz
    simp only [rank_decimal, rank_int, hrank]
    omega
  · cases hz
  · cases hz

end Number

namespace Expression

open Number

/-! ## Operators -/

namespace Operator

variable {operator : Operator} {x y z : Number}

/-- The least rank that results of an operator have. -/
def rank : Operator → ℕ
  | divide => 1
  | _ => 0

theorem rank_le_one (operator : Operator) : operator.rank ≤ 1 := by
  cases operator <;> simp [rank]

theorem rank_of_compute (hz : operator.compute x y = .ok z) :
    z.rank = max operator.rank (max x.rank y.rank) := by
  have htotal : ∀ (f : Binary64 → Binary64 → Binary64) a b w,
      Except.ok (.float (f a b)) = (Except.ok w : Except Fault Number) → w.rank = 1 := by
    rintro f a b w ⟨⟩
    rfl
  cases operator with
  | plus | minus | times =>
      refine rank_of_combine (Nat.zero_le 1) ?_ (htotal _) (computed_eq_ok hz)
      rintro a b w ⟨⟩
      rfl
  | divide =>
      obtain ⟨isZero, -, hz⟩ := bind_eq_ok.mp hz
      split at hz
      · cases hz
      · refine rank_of_combine (le_refl 1) ?_ ?_ (computed_eq_ok hz)
        · intro a b w hw
          obtain ⟨q, -, hw⟩ := bind_eq_ok.mp hw
          cases hw
          rfl
        · intro a b w hw
          unfold floatQuotient at hw
          split at hw
          · cases hw
          · cases hw
            rfl
  | other symbol => cases hz

theorem max_rank_operandBeside (x y : Number) :
    max (operandBeside y x).rank (operandBeside x y).rank = max x.rank y.rank := by
  cases x <;> cases y <;> rfl

theorem rank_of_apply (hz : operator.apply x y = .ok z) :
    z.rank = max operator.rank (max x.rank y.rank) := by
  obtain ⟨result, hresult, hz⟩ := bind_eq_ok.mp hz
  have hrank := rank_of_compute hresult
  rw [max_rank_operandBeside] at hrank
  split at hz
  · cases hz
    exact hrank
  · cases hz

end Operator

/-! ## Expressions -/

namespace Tree

variable {env : Environment} {tree : Tree}

/-- The highest rank in an expression. -/
def rank (env : Environment) : Tree → ℕ
  | number x => x.rank
  | reference target =>
    match env.lookup? target with
    | some (.decimal _) => 2
    | some (.float _) => 1
    | _ => 0
  | negate operand => operand.rank env
  | binary operator left right => max operator.rank (max (left.rank env) (right.rank env))
  | misplaced _ => 0

theorem rank_reference {r : Reference} {x : Number} (hfound : env.lookup? r = some x.toValue) :
    (reference r).rank env = x.rank := by
  rw [rank, hfound]
  cases x <;> rfl

theorem exists_lookup?_of_evaluate {r : Reference} {x : Number}
    (hx : (reference r).evaluate env = .ok x) : env.lookup? r = some x.toValue := by
  obtain ⟨v, hv, -⟩ := bind_eq_ok.mp hx
  have hfound := Environment.lookup_eq_ok hv
  rw [hfound, ((evaluate_reference_eq_ok hfound).mp hx).2]

theorem rank_of_evaluate {x : Number} (hx : tree.evaluate env = .ok x) :
    x.rank = tree.rank env := by
  induction tree generalizing x with
  | number y =>
      cases hx
      rfl
  | reference target =>
      have hfound := exists_lookup?_of_evaluate hx
      exact (rank_reference hfound).symm
  | negate operand ih =>
      obtain ⟨y, hy, hx⟩ := bind_eq_ok.mp hx
      split at hx
      next z hz =>
        cases hx
        have hrank := rank_of_neg hz
        exact hrank.trans (ih hy)
      · cases hx
  | binary operator left right ihleft ihright =>
      obtain ⟨y, hy, hx⟩ := bind_eq_ok.mp hx
      obtain ⟨z, hz, hx⟩ := bind_eq_ok.mp hx
      have hrank := Operator.rank_of_apply hx
      rw [ihleft hy, ihright hz] at hrank
      exact hrank
  | misplaced typeName => cases hx

/-! ## What an expression holds -/

/-- A double as a literal or in a field, or a quotient. -/
def BringsFloat (env : Environment) : Tree → Prop
  | number x => ∃ f, x = .float f
  | reference target => ∃ f, env.lookup? target = some (.float f)
  | binary operator _ _ => operator = .divide
  | _ => False

def HasFloat (env : Environment) (tree : Tree) : Prop :=
  ∃ node ∈ tree.nodes, node.BringsFloat env

/-- Whole numbers are the only literals and fields, and nothing is divided. -/
structure IsWhole (env : Environment) (tree : Tree) : Prop where
  literals : ∀ x, number x ∈ tree.nodes → ∃ n, x = .int n
  fields : ∀ r ∈ tree.references, ∃ n, env.lookup? r = some (.int n)
  undivided : ∀ left right, binary .divide left right ∉ tree.nodes

/-- What holds of every expression that a text writes. -/
structure IsArithmetic (tree : Tree) : Prop where
  literals : ∀ x, number x ∈ tree.nodes → x.isDecimal = false
  operators : ∀ operator left right, binary operator left right ∈ tree.nodes →
    operator ∈ [.plus, .minus, .times, .divide]
  wellPlaced : ∀ typeName, misplaced typeName ∉ tree.nodes

theorem reference_mem_nodes_iff {r : Reference} :
    reference r ∈ tree.nodes ↔ r ∈ tree.references := by
  induction tree with
  | number x | misplaced typeName => simp [nodes, references]
  | reference target => simp [nodes, references]
  | negate operand ih => simp [nodes, references, ih]
  | binary operator left right ihleft ihright => simp [nodes, references, ihleft, ihright]

theorem references_subset {part : Tree} (hpart : part ∈ tree.nodes) :
    part.references ⊆ tree.references := by
  induction tree with
  | number x | reference target | misplaced typeName =>
      obtain rfl := List.mem_singleton.mp hpart
      exact List.Subset.refl _
  | negate operand ih =>
      rcases List.mem_cons.mp hpart with rfl | hbelow
      · exact List.Subset.refl _
      · exact ih hbelow
  | binary operator left right ihleft ihright =>
      rcases List.mem_cons.mp hpart with rfl | hbelow
      · exact List.Subset.refl _
      · rcases List.mem_append.mp hbelow with hleft | hright
        · exact List.subset_append_of_subset_left _ (ihleft hleft)
        · exact List.subset_append_of_subset_right _ (ihright hright)

theorem hasFloat_binary {operator : Operator} {left right : Tree} :
    (binary operator left right).HasFloat env ↔
      operator = .divide ∨ left.HasFloat env ∨ right.HasFloat env := by
  simp only [HasFloat, nodes, List.mem_cons, List.mem_append, or_and_right, exists_or,
    exists_eq_left, BringsFloat]

theorem IsArithmetic.of_subset {part : Tree} (htree : tree.IsArithmetic)
    (hpart : part.nodes ⊆ tree.nodes) : part.IsArithmetic where
  literals x hx := htree.literals x (hpart hx)
  operators operator left right h := htree.operators operator left right (hpart h)
  wellPlaced typeName h := htree.wellPlaced typeName (hpart h)

theorem rank_le_two (env : Environment) (tree : Tree) : tree.rank env ≤ 2 := by
  induction tree with
  | number x => cases x <;> simp [rank]
  | reference target =>
      unfold rank
      split <;> omega
  | negate operand ih => exact ih
  | binary operator left right ihleft ihright =>
      have hoperator := operator.rank_le_one
      simp only [rank]
      omega
  | misplaced typeName => simp [rank]

theorem hasFloat_negate {operand : Tree} :
    (negate operand).HasFloat env ↔ operand.HasFloat env := by
  simp only [HasFloat, nodes, List.mem_cons, or_and_right, exists_or, exists_eq_left, BringsFloat,
    false_or]

theorem rank_eq_two_iff (htree : tree.IsArithmetic) : tree.rank env = 2 ↔ tree.HasDecimal env := by
  induction tree with
  | number x =>
      have hliteral := htree.literals x (self_mem_nodes _)
      cases x <;> simp_all [rank, HasDecimal, references, Number.isDecimal]
  | reference target =>
      simp only [rank, HasDecimal, references, List.mem_singleton, exists_eq_left]
      split <;> simp_all
  | negate operand ih =>
      have hoperand := htree.of_subset (List.subset_cons_self _ _)
      exact ih hoperand
  | binary operator left right ihleft ihright =>
      have hleft := ihleft (htree.of_subset (left_nodes_subset operator left right))
      have hright := ihright (htree.of_subset (right_nodes_subset operator left right))
      have hoperator : operator.rank ≤ 1 := operator.rank_le_one
      have hleftBound := left.rank_le_two env
      have hrightBound := right.rank_le_two env
      rw [hasDecimal_binary, ← hleft, ← hright, rank]
      omega
  | misplaced typeName => simp [rank, HasDecimal, references]

theorem rank_eq_zero_iff (htree : tree.IsArithmetic) :
    tree.rank env = 0 ↔ ¬ tree.HasDecimal env ∧ ¬ tree.HasFloat env := by
  induction tree with
  | number x =>
      have hliteral := htree.literals x (self_mem_nodes _)
      cases x <;> simp_all [rank, HasDecimal, HasFloat, nodes, references, BringsFloat,
        Number.isDecimal]
  | reference target =>
      simp only [rank, HasDecimal, HasFloat, nodes, references, List.mem_singleton, exists_eq_left,
        BringsFloat]
      split <;> simp_all
  | negate operand ih =>
      have hoperand := htree.of_subset (List.subset_cons_self _ _)
      rw [hasFloat_negate]
      exact ih hoperand
  | binary operator left right ihleft ihright =>
      have hleft := ihleft (htree.of_subset (left_nodes_subset operator left right))
      have hright := ihright (htree.of_subset (right_nodes_subset operator left right))
      have hoperator : operator.rank = 0 ↔ operator ≠ .divide := by
        cases operator <;> simp [Operator.rank]
      rw [rank, Nat.max_eq_zero_iff, Nat.max_eq_zero_iff, hleft, hright, hoperator,
        hasDecimal_binary, hasFloat_binary, not_or, not_or, not_or]
      constructor
      · rintro ⟨hundivided, ⟨hld, hlf⟩, hrd, hrf⟩
        exact ⟨⟨hld, hrd⟩, hundivided, hlf, hrf⟩
      · rintro ⟨⟨hld, hrd⟩, hundivided, hlf, hrf⟩
        exact ⟨hundivided, ⟨hld, hlf⟩, hrd, hrf⟩
  | misplaced typeName => simp [rank, HasDecimal, HasFloat, nodes, references, BringsFloat]

end Tree

/-! ## Texts -/

theorem Operator.mem_of_additive? {l : Lexeme} {operator : Operator}
    (hl : l.additive? = some operator) : operator ∈ [plus, minus, times, divide] := by
  cases l <;> cases hl <;> simp

theorem Operator.mem_of_multiplicative? {l : Lexeme} {operator : Operator}
    (hl : l.multiplicative? = some operator) : operator ∈ [plus, minus, times, divide] := by
  cases l <;> cases hl <;> simp

namespace Tree

variable {env : Environment} {tree : Tree}

theorem IsArithmetic.binary {operator : Operator} {left right : Tree} (hleft : left.IsArithmetic)
    (hright : right.IsArithmetic) (hoperator : operator ∈ [.plus, .minus, .times, .divide]) :
    (binary operator left right).IsArithmetic where
  literals x hx := by
    have hbelow : number x ∈ left.nodes ∨ number x ∈ right.nodes := by simpa [nodes] using hx
    exact hbelow.elim (hleft.literals x) (hright.literals x)
  operators operator' left' right' h := by
    have hbelow : (operator' = operator ∧ left' = left ∧ right' = right) ∨
        Tree.binary operator' left' right' ∈ left.nodes ∨
          Tree.binary operator' left' right' ∈ right.nodes := by simpa [nodes] using h
    rcases hbelow with ⟨rfl, -⟩ | h | h
    · exact hoperator
    · exact hleft.operators operator' left' right' h
    · exact hright.operators operator' left' right' h
  wellPlaced typeName h := by
    have hbelow : misplaced typeName ∈ left.nodes ∨ misplaced typeName ∈ right.nodes := by
      simpa [nodes] using h
    exact hbelow.elim (hleft.wellPlaced typeName) (hright.wellPlaced typeName)

theorem IsArithmetic.negate {operand : Tree} (hoperand : operand.IsArithmetic) :
    (negate operand).IsArithmetic where
  literals x hx := hoperand.literals x (by simpa [nodes] using hx)
  operators operator left right h :=
    hoperand.operators operator left right (by simpa [nodes] using h)
  wellPlaced typeName h := hoperand.wellPlaced typeName (by simpa [nodes] using h)

end Tree

theorem Writes.isArithmetic {level : Level} {ts : List Token} {tree : Tree}
    (hwrites : Writes level ts tree) : tree.IsArithmetic := by
  induction hwrites with
  | @number t value ht =>
      refine ⟨?_, by simp [Tree.nodes], by simp [Tree.nodes]⟩
      intro x hx
      obtain rfl : x = value.toNumber := by simpa [Tree.nodes] using hx
      cases value <;> rfl
  | reference ht => exact ⟨by simp [Tree.nodes], by simp [Tree.nodes], by simp [Tree.nodes]⟩
  | parens ht hu hinner ih => exact ih
  | negate ht hoperand ih => exact ih.negate
  | ofFactor hfactor ih | ofProduct hproduct ih => exact ih
  | product ht hleft hright ihleft ihright =>
      exact ihleft.binary ihright (Operator.mem_of_multiplicative? ht)
  | sum ht hleft hright ihleft ihright =>
      exact ihleft.binary ihright (Operator.mem_of_additive? ht)

namespace Tree

variable {env : Environment} {tree : Tree}

theorem isArithmetic_of_ofText {text : String} (hread : ofText text = .ok tree) :
    tree.IsArithmetic := by
  obtain ⟨ts, used, -, -, hwrites⟩ := writes_of_ofText hread
  exact hwrites.isArithmetic

/-! ## Whole numbers -/

theorem IsWhole.not_hasDecimal (htree : tree.IsWhole env) : ¬ tree.HasDecimal env := by
  rintro ⟨r, hr, d, hd⟩
  obtain ⟨n, hn⟩ := htree.fields r hr
  rw [hn] at hd
  cases hd

theorem IsWhole.lossless (htree : tree.IsWhole env) (harithmetic : tree.IsArithmetic) :
    tree.Lossless env where
  literals := htree.literals
  fields r hr := .inl (htree.fields r (reference_mem_nodes_iff.mp hr))
  operators := harithmetic.operators
  wellPlaced := harithmetic.wellPlaced
  quotients left right h := absurd h (htree.undivided left right)
  divisors left right h := absurd h (htree.undivided left right)
  results node hnode _ hdecimal := by
    obtain ⟨r, hr, d, hd⟩ := hdecimal
    exact absurd ⟨r, references_subset hnode hr, d, hd⟩ htree.not_hasDecimal

theorem IsWhole.evaluate (htree : tree.IsWhole env) (harithmetic : tree.IsArithmetic) :
    ∃ n : ℤ, tree.evaluate env = .ok (.int n) ∧ (n : ℚ) = tree.exactValue env := by
  obtain ⟨x, hx, hvalue, ⟨hdecimal, -⟩ | ⟨-, n, rfl⟩⟩ := (htree.lossless harithmetic).evaluate
  · exact absurd hdecimal htree.not_hasDecimal
  · rw [Number.value_int] at hvalue
    exact ⟨n, hx, hvalue⟩

theorem exists_lookup?_of_mem {x : Number} (hx : tree.evaluate env = .ok x) {r : Reference}
    (hr : r ∈ tree.references) : ∃ y : Number, env.lookup? r = some y.toValue := by
  induction tree generalizing x with
  | number y | misplaced typeName => cases hr
  | reference target =>
      obtain rfl := List.mem_singleton.mp hr
      exact ⟨x, exists_lookup?_of_evaluate hx⟩
  | negate operand ih =>
      obtain ⟨y, hy, -⟩ := bind_eq_ok.mp hx
      exact ih hy hr
  | binary operator left right ihleft ihright =>
      obtain ⟨y, hy, hx⟩ := bind_eq_ok.mp hx
      obtain ⟨z, hz, -⟩ := bind_eq_ok.mp hx
      rcases List.mem_append.mp hr with hleft | hright
      · exact ihleft hy hleft
      · exact ihright hz hright

theorem isWhole_of_evaluate (htree : tree.IsArithmetic) {x : Number}
    (hx : tree.evaluate env = .ok x) (hdecimal : ¬ tree.HasDecimal env)
    (hfloat : ¬ tree.HasFloat env) : tree.IsWhole env where
  literals y hy := by
    have hliteral := htree.literals y hy
    cases y with
    | int n => exact ⟨n, rfl⟩
    | float f => exact absurd ⟨_, hy, f, rfl⟩ hfloat
    | decimal d => cases hliteral
  fields r hr := by
    obtain ⟨y, hy⟩ := exists_lookup?_of_mem hx hr
    cases y with
    | int n => exact ⟨n, hy⟩
    | float f => exact absurd ⟨_, reference_mem_nodes_iff.mpr hr, f, hy⟩ hfloat
    | decimal d => exact absurd ⟨r, hr, d, hy⟩ hdecimal
  undivided left right h := hfloat ⟨_, h, rfl⟩

/-! ## Results -/

/-- The kind of a result follows from what its expression holds, and a whole number is exact. -/
structure KindOfResult (env : Environment) (tree : Tree) (x : Number) : Prop where
  decimal_iff : (∃ d, x = .decimal d) ↔ tree.HasDecimal env
  float_iff : ¬ tree.HasDecimal env → ((∃ f, x = .float f) ↔ tree.HasFloat env)
  whole : ¬ tree.HasDecimal env → ¬ tree.HasFloat env →
    ∃ n : ℤ, x = .int n ∧ (n : ℚ) = tree.exactValue env

theorem kindOfResult_of_evaluate (htree : tree.IsArithmetic) {x : Number}
    (hx : tree.evaluate env = .ok x) : tree.KindOfResult env x where
  decimal_iff := by
    rw [← rank_eq_two_iff htree, ← rank_of_evaluate hx, Number.rank_eq_two_iff]
  float_iff hdecimal := by
    have hrank := rank_of_evaluate hx
    have htwo : tree.rank env ≠ 2 := (rank_eq_two_iff htree).not.mpr hdecimal
    have hzero : tree.rank env = 0 ↔ ¬ tree.HasDecimal env ∧ ¬ tree.HasFloat env :=
      rank_eq_zero_iff htree
    have hbound := tree.rank_le_two env
    rw [← Number.rank_eq_one_iff, hrank]
    constructor
    · intro hone
      by_contra hfloat
      have := hzero.mpr ⟨hdecimal, hfloat⟩
      omega
    · intro hfloat
      have : tree.rank env ≠ 0 := fun h => (hzero.mp h).2 hfloat
      omega
  whole hdecimal hfloat := by
    obtain ⟨n, hn, hvalue⟩ := (isWhole_of_evaluate htree hx hdecimal hfloat).evaluate htree
    rw [hx] at hn
    exact ⟨n, Except.ok.inj hn, hvalue⟩

/-- The result of an expression is a decimal just if a field that it refers to is one, and otherwise
a double just if it holds one or divides; else it is the whole number that the expression stands
for.  Over whole numbers alone there is always a result. -/
theorem kind_of_text_result {text : String} (hread : ofText text = .ok tree) (env : Environment) :
    (∀ x, tree.evaluate env = .ok x → tree.KindOfResult env x) ∧
      (tree.IsWhole env →
        ∃ n : ℤ, tree.evaluate env = .ok (.int n) ∧ (n : ℚ) = tree.exactValue env) := by
  have htree := isArithmetic_of_ofText hread
  exact ⟨fun x hx => kindOfResult_of_evaluate htree hx, fun hwhole => hwhole.evaluate htree⟩

/-- The expression that `7 - -(intake.n * 2)` writes. -/
def raising : Tree :=
  .binary .minus (.number (.int 7))
    (.negate (.binary .times (.reference ⟨.intake, "n", some 6⟩) (.number (.int 2))))

def holding (v : Value) : Environment where
  intake := [(.text "n", v)]
  outputs := []

theorem ofText_raising : ofText "7 - -(intake.n * 2)" = .ok raising := by
  have hsolid : Text.isAllBlank "7 - -(intake.n * 2)" = false := by cbv
  have hts : tokens .arithmetic "7 - -(intake.n * 2)" =
      .ok [⟨.number (.int 7), 0⟩, ⟨.minus, 2⟩, ⟨.minus, 4⟩, ⟨.leftParen, 5⟩,
        ⟨.field .intake "n", 6⟩, ⟨.star, 15⟩, ⟨.number (.int 2), 17⟩, ⟨.rightParen, 18⟩,
        ⟨.ending, 19⟩] := by cbv
  have hfield : Writes .product [⟨.field .intake "n", 6⟩] (.reference ⟨.intake, "n", some 6⟩) :=
    .ofFactor (.reference rfl)
  have htwo : Writes .factor [⟨.number (.int 2), 17⟩] (.number (.int 2)) :=
    @Writes.number ⟨.number (.int 2), 17⟩ (.int 2) rfl
  have hseven : Writes .sum [⟨.number (.int 7), 0⟩] (.number (.int 7)) :=
    .ofProduct (.ofFactor (@Writes.number ⟨.number (.int 7), 0⟩ (.int 7) rfl))
  have hproduct := Writes.ofProduct (@Writes.product ⟨.star, 15⟩ _ _ .times _ _ rfl hfield htwo)
  have hnegative := Writes.ofFactor (@Writes.negate ⟨.minus, 4⟩ _ _ rfl
    (@Writes.parens ⟨.leftParen, 5⟩ ⟨.rightParen, 18⟩ _ _ rfl rfl hproduct))
  have hwrites := @Writes.sum ⟨.minus, 2⟩ _ _ .minus _ _ rfl hseven hnegative
  rw [ofText, hsolid, hts]
  exact ofTokens_of_writes hwrites rfl

theorem raising_kinds :
    ofText "7 - -(intake.n * 2)" = .ok raising ∧
      (∃ n : ℤ, raising.evaluate (holding (.int (10 ^ 30))) = .ok (.int n) ∧
        (n : ℚ) = raising.exactValue (holding (.int (10 ^ 30)))) ∧
      (raising.evaluate (holding (.decimal (.finite false 15 (-1)))) =
          .ok (.decimal (.finite false 100 (-1))) ∧
        raising.KindOfResult (holding (.decimal (.finite false 15 (-1))))
          (.decimal (.finite false 100 (-1)))) := by
  have hwhole : raising.IsWhole (holding (.int (10 ^ 30))) := by
    refine ⟨?_, ?_, ?_⟩
    · intro x hx
      have hliteral : x = .int 7 ∨ x = .int 2 := by simpa [raising, nodes] using hx
      rcases hliteral with rfl | rfl
      · exact ⟨7, rfl⟩
      · exact ⟨2, rfl⟩
    · intro r hr
      obtain rfl := List.mem_singleton.mp hr
      exact ⟨10 ^ 30, rfl⟩
    · simp [raising, nodes]
  have hdecimal : raising.evaluate (holding (.decimal (.finite false 15 (-1)))) =
      .ok (.decimal (.finite false 100 (-1))) := by cbv
  exact ⟨ofText_raising, (kind_of_text_result ofText_raising _).2 hwhole, hdecimal,
    (kind_of_text_result ofText_raising _).1 _ hdecimal⟩

end Tree

end Expression

end ModelPlaybook
