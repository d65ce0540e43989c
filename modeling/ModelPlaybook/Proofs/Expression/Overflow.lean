import Mathlib
import ModelPlaybook.Proofs.Expression.Consultation
import ModelPlaybook.Proofs.Expression.Reader
import ModelPlaybook.Proofs.Expression.Scanning
import ModelPlaybook.Proofs.Number.DecimalRange

/-!
# What escapes an evaluation

An expression that a text writes has a finite value or fails with an error of the language, with one
exception.  The negative of a decimal is rounded, and nothing looks after this rounding: a field can
hold a decimal that is too large for it.  Results of operations never are too large, so only a minus
sign right before a reference lets the overflow out.
-/

namespace ModelPlaybook

/-! ## Numbers -/

/-- A decimal is within the standard context; other numbers are not limited by it. -/
def Number.Fits : Number → Prop
  | .decimal d => d.Fits standardContext
  | _ => True

namespace Number

theorem fits_of_combine {symbol : String} {onInts : Int → Int → Except Fault Number}
    {onFloats : Binary64 → Binary64 → Except Fault Number}
    {onDecimals : Decimal → Decimal → Except DecimalSignal Decimal} {x y z : Number}
    (hints : ∀ a b z, onInts a b = .ok z → z.Fits)
    (hfloats : ∀ a b z, onFloats a b = .ok z → z.Fits)
    (hdecimals : ∀ a b d, onDecimals a b = .ok d → d.Fits standardContext)
    (hz : combine symbol onInts onFloats onDecimals x y = .ok z) : z.Fits := by
  have hlift : ∀ a b, liftDecimal (onDecimals a b) = .ok z → z.Fits := by
    intro a b hz
    cases hd : onDecimals a b with
    | error signal =>
        rw [hd] at hz
        cases hz
    | ok d =>
        rw [hd] at hz
        cases hz
        exact hdecimals a b d hd
  unfold combine at hz
  split at hz
  · exact hints _ _ _ hz
  · exact hfloats _ _ _ hz
  · obtain ⟨_, -, hz⟩ := bind_eq_ok.mp hz
    exact hfloats _ _ _ hz
  · obtain ⟨_, -, hz⟩ := bind_eq_ok.mp hz
    exact hfloats _ _ _ hz
  · exact hlift _ _ hz
  · exact hlift _ _ hz
  · exact hlift _ _ hz
  · cases hz
  · cases hz

/-- The case of an operation that whole numbers and doubles always have a result of. -/
theorem fits_of_combine_total {symbol : String} {onInts : Int → Int → Int}
    {onFloats : Binary64 → Binary64 → Binary64}
    {onDecimals : Decimal → Decimal → Except DecimalSignal Decimal} {x y z : Number}
    (hdecimals : ∀ {a b d}, onDecimals a b = .ok d → d.Fits standardContext)
    (hz : combine symbol (fun a b => .ok (.int (onInts a b)))
      (fun a b => .ok (.float (onFloats a b))) onDecimals x y = .ok z) : z.Fits := by
  refine fits_of_combine ?_ ?_ (fun _ _ _ => hdecimals) hz
  · rintro a b z ⟨⟩
    trivial
  · rintro a b z ⟨⟩
    trivial

theorem fits_of_div {x y z : Number} (hz : x.div y = .ok z) : z.Fits := by
  refine fits_of_combine ?_ ?_ (fun _ _ _ => DecimalContext.fits_of_div) hz
  · intro a b z hz
    obtain ⟨q, -, hz⟩ := bind_eq_ok.mp hz
    cases hz
    trivial
  · intro a b z hz
    unfold floatQuotient at hz
    split at hz
    · cases hz
    · cases hz
      trivial

/-- The negative of a finite number fails for one reason alone, and it fits. -/
theorem neg_cases {x : Number} (hfinite : x.isFinite = true) :
    (∃ y, x.neg = .ok y ∧ y.isFinite = true ∧ y.Fits) ∨
      ∃ d, x = .decimal d ∧ ¬ x.Fits ∧ x.neg = .error (.ofSignal .overflow) ∧
        standardContext.neg d = .error .overflow := by
  cases x with
  | int n => exact .inl ⟨_, rfl, rfl, trivial⟩
  | float x => exact .inl ⟨_, rfl, (Binary64.isFinite_neg x).trans hfinite, trivial⟩
  | decimal d =>
      cases hneg : standardContext.neg d with
      | ok d' =>
          refine .inl ⟨.decimal d', ?_, DecimalContext.isFinite_of_neg hfinite hneg,
            DecimalContext.fits_of_neg hneg⟩
          simp only [neg, hneg, liftDecimal]
      | error signal =>
          obtain rfl := DecimalContext.eq_overflow_of_neg hfinite hneg
          refine .inr ⟨d, rfl, fun hfits => ?_, ?_, hneg⟩
          · obtain ⟨d', hd'⟩ := DecimalContext.exists_neg_of_fits hfinite hfits
            rw [hneg] at hd'
            cases hd'
          · simp only [neg, hneg, liftDecimal]

end Number

namespace Expression

theorem computed_eq_ok {α : Type} {r : Except Fault α} {a : α} (h : computed r = .ok a) :
    r = .ok a := by
  cases r with
  | ok b =>
      cases h
      rfl
  | error fault => cases h

theorem Operator.fits_of_compute {operator : Operator} {x y z : Number}
    (hz : operator.compute x y = .ok z) : z.Fits := by
  cases operator with
  | plus => exact Number.fits_of_combine_total DecimalContext.fits_of_add (computed_eq_ok hz)
  | minus => exact Number.fits_of_combine_total DecimalContext.fits_of_sub (computed_eq_ok hz)
  | times => exact Number.fits_of_combine_total DecimalContext.fits_of_mul (computed_eq_ok hz)
  | divide =>
      obtain ⟨isZero, -, hz⟩ := bind_eq_ok.mp hz
      split at hz
      · cases hz
      · exact Number.fits_of_div (computed_eq_ok hz)
  | other symbol => cases hz

theorem Operator.apply_eq_ok {operator : Operator} {x y z : Number}
    (hz : operator.apply x y = .ok z) : z.isFinite = true ∧ z.Fits := by
  obtain ⟨result, hresult, hz⟩ := bind_eq_ok.mp hz
  split at hz
  next hfinite =>
    cases hz
    exact ⟨hfinite, fits_of_compute hresult⟩
  · cases hz

theorem finiteNumber?_eq_some {v : Value} {x : Number} (hx : finiteNumber? v = some x) :
    x.isFinite = true ∧ v = x.toValue := by
  obtain ⟨hnumber, hfinite⟩ := Option.filter_eq_some_iff.mp hx
  refine ⟨hfinite, ?_⟩
  unfold numeric? at hnumber
  split at hnumber
  · cases hnumber
    rfl
  · cases hnumber
    rfl
  · split at hnumber
    · cases hnumber
      rfl
    · cases hnumber
  · cases hnumber

theorem finiteNumber?_toValue {x : Number} (hfinite : x.isFinite = true) :
    finiteNumber? x.toValue = some x := by
  cases x with
  | int n => rfl
  | float x => exact Option.filter_eq_some_iff.mpr ⟨rfl, hfinite⟩
  | decimal d =>
      have hd : d.isFinite = true := hfinite
      exact Option.filter_eq_some_iff.mpr ⟨by simp [numeric?, Number.toValue, hd], hfinite⟩

/-! ## Trees -/

theorem evaluate_reference_eq_ok {env : Environment} {target : Reference} {v : Value} {x : Number}
    (hlookup : env.lookup? target = some v) :
    (Tree.reference target).evaluate env = .ok x ↔ x.isFinite = true ∧ v = x.toValue := by
  have hv : env.lookup target = .ok v := by
    simp only [Environment.lookup, hlookup]
  constructor
  · intro hx
    obtain ⟨w, hw, hx⟩ := bind_eq_ok.mp hx
    obtain rfl : v = w := by simpa [hv] using hw
    split at hx
    next y hy =>
      cases hx
      exact finiteNumber?_eq_some hy
    next => cases hx
  · rintro ⟨hfinite, rfl⟩
    refine bind_eq_ok.mpr ⟨_, hv, ?_⟩
    simp only [finiteNumber?_toValue hfinite]
    rfl

/-- The reference that a tree is. -/
def Tree.bare : Tree → List Reference
  | reference target => [target]
  | _ => []

/-- The references that stand right behind a minus sign. -/
def Tree.negated : Tree → List Reference
  | negate operand => operand.bare ++ operand.negated
  | binary _ left right => left.negated ++ right.negated
  | _ => []

/-- A tree whose literals are finite and no decimals, and of which no part is misplaced. -/
def Tree.Proper : Tree → Prop
  | number value => value.isFinite = true ∧ value.Fits
  | reference _ => True
  | negate operand => operand.Proper
  | binary _ left right => left.Proper ∧ right.Proper
  | misplaced _ => False

/-- A reference points at a finite decimal that is too large to have a negative. -/
def Environment.Overflows (env : Environment) (r : Reference) : Prop :=
  ∃ d, env.lookup? r = some (.decimal d) ∧ d.isFinite = true ∧
    standardContext.neg d = .error .overflow

theorem Environment.lookup_eq_ok {env : Environment} {r : Reference} {v : Value}
    (hv : env.lookup r = .ok v) : env.lookup? r = some v := by
  unfold lookup at hv
  split at hv
  next w hw =>
    cases hv
    exact hw
  · cases hv

theorem Environment.isExpressionError_of_lookup {env : Environment} {r : Reference}
    {failure : Failure} (hfailure : env.lookup r = .error failure) :
    failure.isExpressionError = true := by
  unfold lookup at hfailure
  split at hfailure
  · cases hfailure
  · cases hfailure
    rfl

/-- A value is finite, and it fits unless it is what a reference points at. -/
theorem Tree.finite_of_evaluate {env : Environment} {tree : Tree} {x : Number}
    (hproper : tree.Proper) (hx : tree.evaluate env = .ok x) :
    x.isFinite = true ∧ (x.Fits ∨ ∃ r ∈ tree.bare, env.lookup? r = some x.toValue) := by
  induction tree generalizing x with
  | number value =>
      cases hx
      exact ⟨hproper.1, .inl hproper.2⟩
  | reference target =>
      obtain ⟨v, hv, hx⟩ := bind_eq_ok.mp hx
      split at hx
      next y hy =>
        cases hx
        obtain ⟨hfinite, rfl⟩ := finiteNumber?_eq_some hy
        exact ⟨hfinite, .inr ⟨target, List.mem_singleton_self _, Environment.lookup_eq_ok hv⟩⟩
      · cases hx
  | negate operand ih =>
      obtain ⟨y, hy, hx⟩ := bind_eq_ok.mp hx
      obtain ⟨hfinite, -⟩ := ih hproper hy
      rcases Number.neg_cases hfinite with ⟨z, hz, hzfinite, hzfits⟩ | ⟨d, -, -, hz, -⟩
      · rw [hz] at hx
        cases hx
        exact ⟨hzfinite, .inl hzfits⟩
      · rw [hz] at hx
        cases hx
  | binary operator left right ihleft ihright =>
      obtain ⟨y, -, hx⟩ := bind_eq_ok.mp hx
      obtain ⟨z, -, hx⟩ := bind_eq_ok.mp hx
      obtain ⟨hfinite, hfits⟩ := Operator.apply_eq_ok hx
      exact ⟨hfinite, .inl hfits⟩
  | misplaced typeName => cases hproper

/-- A failure is an error of the language, or the overflow of a reference behind a minus sign. -/
theorem Tree.contained_of_evaluate {env : Environment} {tree : Tree} {failure : Failure}
    (hproper : tree.Proper) (hfailure : tree.evaluate env = .error failure) :
    failure.isExpressionError = true ∨
      failure = .fault (.ofSignal .overflow) ∧ ∃ r ∈ tree.negated, env.Overflows r := by
  induction tree with
  | number value => cases hfailure
  | reference target =>
      rcases bind_eq_error.mp hfailure with hfailure | ⟨v, -, hfailure⟩
      · exact .inl (Environment.isExpressionError_of_lookup hfailure)
      · split at hfailure
        · cases hfailure
        · cases hfailure
          exact .inl rfl
  | negate operand ih =>
      rcases bind_eq_error.mp hfailure with hfailure | ⟨y, hy, hfailure⟩
      · rcases ih hproper hfailure with herror | ⟨hfault, r, hr, hoverflows⟩
        · exact .inl herror
        · exact .inr ⟨hfault, r, List.mem_append_right _ hr, hoverflows⟩
      · have hoperand : operand.Proper := hproper
        obtain ⟨hfinite, hbare⟩ := finite_of_evaluate hoperand hy
        rcases Number.neg_cases hfinite with ⟨z, hz, -⟩ | ⟨d, rfl, hlarge, hz, hneg⟩
        · rw [hz] at hfailure
          cases hfailure
        · rw [hz] at hfailure
          cases hfailure
          -- What does not fit is no result, so the operand is a reference.
          obtain ⟨r, hr, hlookup⟩ := hbare.resolve_left hlarge
          exact .inr ⟨rfl, r, List.mem_append_left _ hr, d, hlookup, hfinite, hneg⟩
  | binary operator left right ihleft ihright =>
      rcases bind_eq_error.mp hfailure with hfailure | ⟨y, -, hfailure⟩
      · rcases ihleft hproper.1 hfailure with herror | ⟨hfault, r, hr, hoverflows⟩
        · exact .inl herror
        · exact .inr ⟨hfault, r, List.mem_append_left _ hr, hoverflows⟩
      · rcases bind_eq_error.mp hfailure with hfailure | ⟨z, -, hfailure⟩
        · rcases ihright hproper.2 hfailure with herror | ⟨hfault, r, hr, hoverflows⟩
          · exact .inl herror
          · exact .inr ⟨hfault, r, List.mem_append_right _ hr, hoverflows⟩
        · obtain ⟨cause, rfl⟩ := Operator.apply_error hfailure
          exact .inl rfl
  | misplaced typeName => cases hproper

/-! ## Texts -/

theorem Literal.isFinite_of_ofChars {position : Nat} {digits : List Char} {value : Literal}
    (hvalue : ofChars position digits = .ok value) : value.toNumber.isFinite = true := by
  unfold ofChars at hvalue
  split at hvalue
  · cases hvalue
  · split at hvalue
    · split at hvalue
      · simp only at hvalue
        split at hvalue
        next hfinite =>
          cases hvalue
          exact hfinite
        · cases hvalue
      · cases hvalue
    · split at hvalue
      · cases hvalue
      · cases hvalue
        rfl

theorem isFinite_of_mem_tokens {dialect : Dialect} {text : String} {ts : List Token} {t : Token}
    {value : Literal} (hts : tokens dialect text = .ok ts) (ht : t ∈ ts)
    (hvalue : t.lexeme = .number value) : value.toNumber.isFinite = true := by
  rcases foundAt_of_mem_tokens hts ht with hending | ⟨c, rest, extra, hfound⟩
  · rw [hending] at hvalue
    cases hvalue
  · rw [hvalue] at hfound
    cases hfound with
    | number hstarts hvalue => exact Literal.isFinite_of_ofChars hvalue
    | single hstarts hopened hsingle => exact absurd rfl ((kind_of_ofSingle? hsingle).1 value)

theorem Writes.proper {level : Level} {ts : List Token} {tree : Tree}
    (hwrites : Writes level ts tree)
    (hfinite : ∀ t ∈ ts, ∀ value, t.lexeme = .number value → value.toNumber.isFinite = true) :
    tree.Proper := by
  induction hwrites with
  | @number t value ht =>
      refine ⟨hfinite t (List.mem_singleton_self t) value ht, ?_⟩
      cases value <;> trivial
  | reference ht => trivial
  | parens ht hu hinner ih => exact ih fun t ht => hfinite t (by simp [ht])
  | negate ht hoperand ih => exact ih fun t ht => hfinite t (List.mem_cons_of_mem _ ht)
  | ofFactor hfactor ih | ofProduct hproduct ih => exact ih hfinite
  | product ht hleft hright ihleft ihright | sum ht hleft hright ihleft ihright =>
      exact ⟨ihleft fun t ht => hfinite t (by simp [ht]),
        ihright fun t ht => hfinite t (by simp [ht])⟩

theorem Tree.proper_of_ofText {text : String} {tree : Tree} (hread : ofText text = .ok tree) :
    tree.Proper := by
  obtain ⟨ts, used, hts, hused, hwrites⟩ := writes_of_ofText hread
  exact hwrites.proper fun t ht value hvalue => isFinite_of_mem_tokens hts (hused ht) hvalue

theorem evaluate_text (env : Environment) (text : String) :
    evaluate env (.text text) =
      match Tree.ofText text with
      | .ok tree => tree.evaluate env
      | .error fault => .error (.malformed fault) := by
  simp only [evaluate, Tree.ofValue, Value.text?]
  cases Tree.ofText text <;> rfl

/-- The expression of a text has a finite value, or fails with an error of the language, or else a
reference right behind a minus sign points at a decimal that is too large to have a negative. -/
theorem evaluate_finite_or_contained (env : Environment) (text : String) :
    (∃ x, evaluate env (.text text) = .ok x ∧ x.isFinite = true) ∨
      (∃ failure, evaluate env (.text text) = .error failure ∧
        failure.isExpressionError = true) ∨
      evaluate env (.text text) = .error (.fault (.ofSignal .overflow)) ∧
        ∃ tree, Tree.ofText text = .ok tree ∧ ∃ r ∈ tree.negated, env.Overflows r := by
  rw [evaluate_text]
  cases hread : Tree.ofText text with
  | error fault => exact .inr (.inl ⟨_, rfl, rfl⟩)
  | ok tree =>
      have hproper := Tree.proper_of_ofText hread
      cases hevaluate : tree.evaluate env with
      | ok x => exact .inl ⟨x, hevaluate, (Tree.finite_of_evaluate hproper hevaluate).1⟩
      | error failure =>
          rcases Tree.contained_of_evaluate hproper hevaluate with herror | ⟨rfl, hoverflows⟩
          · exact .inr (.inl ⟨failure, hevaluate, herror⟩)
          · exact .inr (.inr ⟨hevaluate, tree, rfl, hoverflows⟩)

/-- An intake with a decimal that has one digit, a million places before the point. -/
def immense : Environment where
  intake := [(.text "a", .decimal (.finite false 1 1000000))]
  outputs := []

/-- The negative of such a value is neither a finite number nor an error of the language. -/
theorem negated_immense_escapes :
    ¬ ((∃ x, evaluate immense (.text "-intake.a") = .ok x ∧ x.isFinite = true) ∨
      ∃ failure, evaluate immense (.text "-intake.a") = .error failure ∧
        failure.isExpressionError = true) := by
  have hread : Tree.ofText "-intake.a" = .ok (.negate (.reference ⟨.intake, "a", some 1⟩)) := by
    have hblank : Text.isAllBlank "-intake.a" = false := by decide
    have hts : tokens .arithmetic "-intake.a" =
        .ok [⟨.minus, 0⟩, ⟨.field .intake "a", 1⟩, ⟨.ending, 9⟩] := by cbv
    have hwrites : Writes .sum [⟨.minus, 0⟩, ⟨.field .intake "a", 1⟩]
        (.negate (.reference ⟨.intake, "a", some 1⟩)) :=
      .ofProduct (.ofFactor (.negate rfl (.reference rfl)))
    rw [Tree.ofText, hblank, hts]
    exact Tree.ofTokens_of_writes hwrites rfl
  have hlookup : Tree.evaluate immense (.reference ⟨.intake, "a", some 1⟩) =
      .ok (.decimal (.finite false 1 1000000)) := rfl
  have hlog : Text.decimalLog 1 = 0 := by decide
  have hrounding : standardContext.neg (.finite false 1 1000000) = .error .overflow := by
    simp [DecimalContext.neg_finite, DecimalContext.finish, DecimalContext.leastExponent,
      standardContext, Decimal.adjusted, hlog]
  have hneg : (Number.decimal (.finite false 1 1000000)).neg = .error (.ofSignal .overflow) := by
    simp only [Number.neg, hrounding, Number.liftDecimal]
  have hescapes : evaluate immense (.text "-intake.a") = .error (.fault (.ofSignal .overflow)) := by
    rw [evaluate_text, hread]
    refine bind_eq_error.mpr (.inr ⟨_, hlookup, ?_⟩)
    rw [hneg]
  rw [hescapes]
  rintro (⟨x, ⟨⟩, -⟩ | ⟨failure, ⟨⟩, herror⟩)
  cases herror

end Expression

end ModelPlaybook
