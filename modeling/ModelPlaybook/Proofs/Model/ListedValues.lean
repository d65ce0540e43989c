import Mathlib
import ModelPlaybook.Proofs.Expression.ConditionFailures
import ModelPlaybook.Proofs.Expression.StrictComparison
import ModelPlaybook.Proofs.Model.InputViolations

/-!
# Listed values

A manifest can list the values of an input.  A given value is looked for in the list by the equality
of values, which is looser than the strict comparison of conditions: a truth value matches the
number zero or one, an infinite float the infinite decimal, a container its read-only form, and a
NaN or a stand-in for a blocked name matches itself.  On all other pairs the two agree.
-/

namespace ModelPlaybook

/-! ## Equal numbers -/

namespace Number

variable {x y : Number}

theorem eq_infinite (hfinite : x.isFinite = false) (hnan : x.isNaN = false) :
    (∃ s, x = .float (.infinite s)) ∨ ∃ s, x = .decimal (.infinite s) := by
  cases x with
  | int n => cases hfinite
  | float f =>
      cases f with
      | infinite s => exact .inl ⟨s, rfl⟩
      | finite => cases hfinite
      | nan => cases hnan
  | decimal d =>
      cases d with
      | infinite s => exact .inr ⟨s, rfl⟩
      | finite => cases hfinite
      | nan => cases hnan

theorem not_isFinite_of_isNaN (hx : x.isNaN = true) : x.isFinite = false := by
  apply Bool.eq_false_of_not_eq_true
  intro hfinite
  rw [(notNaN_of_isFinite hfinite).2] at hx
  cases hx

theorem equals_toValue (x y : Number) :
    x.toValue.equals y.toValue = liftSignal (x.holds .equal y) := by
  obtain ⟨a, ha, hx⟩ := x.exists_scalar
  obtain ⟨b, hb, hy⟩ := y.exists_scalar
  rw [ha, hb, Value.equals_eq_equalsIn rfl rfl]
  simp only [Value.equalsIn, Scalar.equals, hx, hy, holds, Comparator.isEquality, Bool.not_true,
    Bool.false_and, Bool.false_eq_true, if_false]
  cases x.compare? y <;> rfl

theorem not_equals_of_isNaN (hx : x.isNaN = true) (y : Number) :
    x.toValue.equals y.toValue ≠ .ok true := by
  rw [equals_toValue, Ne, liftSignal_eq_ok, holds]
  cases hcompare : x.compare? y with
  | none => split <;> simp [Comparator.isEquality, Comparator.holdsUnordered]
  | some o =>
      rw [(notNaN_of_compare? hcompare).1] at hx
      cases hx

theorem compare?_eq_symm (hcompare : x.compare? y = some .eq) : y.compare? x = some .eq := by
  have hfinite := isFinite_eq_of_compare? hcompare
  by_cases hx : x.isFinite = true
  · have hvalue : x.value = y.value := value_eq_of_compare? hcompare hx
    rw [compare?_eq (hfinite ▸ hx) hx, hvalue, compare_eq_iff_eq.mpr rfl]
  · have hinfinite := Bool.eq_false_of_not_eq_true hx
    obtain ⟨hxNaN, hyNaN⟩ := notNaN_of_compare? hcompare
    rcases eq_infinite hinfinite hxNaN with ⟨s, rfl⟩ | ⟨s, rfl⟩
    all_goals rcases eq_infinite (hfinite ▸ hinfinite) hyNaN with ⟨t, rfl⟩ | ⟨t, rfl⟩
    all_goals cases s <;> cases t <;> first | rfl | cases hcompare

theorem holds_equal_eq_ok_true_iff :
    x.holds .equal y = .ok true ↔
      (x.isSignaling = false ∧ y.isSignaling = false) ∧ x.compare? y = some .eq := by
  by_cases hsignaling : (x.isSignaling || y.isSignaling) = true
  · simp only [holds, if_pos hsignaling]
    simp only [Bool.or_eq_true] at hsignaling
    rcases hsignaling with hx | hy <;> simp [*]
  · simp only [holds, if_neg hsignaling]
    cases x.compare? y with
    | none => simp [Comparator.isEquality, Comparator.holdsUnordered]
    | some o => simp_all [Comparator.isEquality, Comparator.holds]

end Number

/-- The number that a truth value counts as. -/
def Number.ofBool (b : Bool) : Number :=
  .int (if b then 1 else 0)

theorem Number.ofBool_value_injective : Function.Injective fun b => (ofBool b).value := by
  intro b c hvalue
  cases b <;> cases c <;> simp [ofBool, value_int] at hvalue ⊢

/-! ## Equal values of different kinds -/

theorem Scalar.number?_cases {a : Scalar} {m : Number} (ha : a.number? = some m) :
    (∃ b, a = .bool b ∧ m = .ofBool b) ∨ Value.scalar a = m.toValue := by
  cases a with
  | bool b =>
      obtain rfl := Option.some.inj ha
      exact .inl ⟨b, rfl, rfl⟩
  | int n | float x | decimal d =>
      obtain rfl := Option.some.inj ha
      exact .inr rfl
  | _ => cases ha

theorem Scalar.equals_cases {a b : Scalar} (hequal : a.equals b = .ok true) :
    (a.number? = Option.none ∧ b.number? = Option.none ∧ a.kind = b.kind) ∨
      ∃ m n, a.number? = some m ∧ b.number? = some n ∧ m.compare? n = some .eq := by
  unfold equals at hequal
  split at hequal
  next m n hm hn =>
    split at hequal
    next => cases hequal
    next => exact .inr ⟨m, n, hm, hn, beq_iff_eq.mp (Except.ok.inj hequal)⟩
  next =>
    split at hequal <;> first | exact .inl ⟨rfl, rfl, rfl⟩ | cases hequal

namespace Value

open Expression

/-- Two values that match in a list although strict comparison tells them apart. -/
inductive Apart : Value → Value → Prop where
  | truth (b : Bool) (x : Number) : Apart (.bool b) x.toValue
  | infinities (s t : Bool) : Apart (.float (.infinite s)) (.decimal (.infinite t))
  | maps (xs ys : Entries) : Apart (.map xs) (.frozenMap ys)
  | sets (xs ys : List Value) : Apart (.set xs) (.frozenSet ys)
  -- objects are told apart by their origins alone, whatever their types are called
  | objects {s t : String} (o p : Origin) (htype : s ≠ t) : Apart (.foreign s o) (.foreign t p)
  | standIns (s name : String) (n : Nat) :
      Apart (.foreign s (.blocked name n)) (.foreign s (.blocked name n))
  | nans {x y : Number} (hx : x.isNaN = true) (hy : y.isNaN = true) : Apart x.toValue y.toValue
  | symm {v d : Value} (happart : Apart v d) : Apart d v

theorem apart_of_numbers {x y : Number} (hcompare : x.compare? y = some .eq)
    (hkind : x.toValue.kind ≠ y.toValue.kind)
    (hnumbers : numeric? x.toValue = Option.none ∨ numeric? y.toValue = Option.none) :
    Apart x.toValue y.toValue := by
  have hfinite := Number.isFinite_eq_of_compare? hcompare
  have hinfinite : x.isFinite = false := by
    apply Bool.eq_false_of_not_eq_true
    intro hx
    rcases hnumbers with hnone | hnone
    · rw [numeric?_toValue hx] at hnone
      cases hnone
    · rw [numeric?_toValue (hfinite ▸ hx)] at hnone
      cases hnone
  obtain ⟨hx, hy⟩ := Number.notNaN_of_compare? hcompare
  rcases Number.eq_infinite hinfinite hx with ⟨s, rfl⟩ | ⟨s, rfl⟩
  · rcases Number.eq_infinite (hfinite ▸ hinfinite) hy with ⟨t, rfl⟩ | ⟨t, rfl⟩
    · exact absurd rfl hkind
    · exact .infinities s t
  · rcases Number.eq_infinite (hfinite ▸ hinfinite) hy with ⟨t, rfl⟩ | ⟨t, rfl⟩
    · exact .symm (.infinities t s)
    · exact absurd rfl hkind

theorem apart_of_scalars {a b : Scalar} (hequal : a.equals b = .ok true) (hkind : a.kind ≠ b.kind)
    (hnumbers : numeric? (.scalar a) = Option.none ∨ numeric? (.scalar b) = Option.none) :
    Apart (.scalar a) (.scalar b) := by
  rcases Scalar.equals_cases hequal with ⟨-, -, hsame⟩ | ⟨m, n, hm, hn, hcompare⟩
  · exact absurd hsame hkind
  rcases Scalar.number?_cases hm with ⟨s, rfl, rfl⟩ | ha
  · rcases Scalar.number?_cases hn with ⟨t, rfl, rfl⟩ | hb
    · exact absurd rfl hkind
    · rw [hb]
      exact .truth s n
  · rcases Scalar.number?_cases hn with ⟨t, rfl, rfl⟩ | hb
    · rw [ha]
      exact .symm (.truth t m)
    · have hkinds : (scalar a).kind ≠ (scalar b).kind := hkind
      rw [ha, hb] at hkinds hnumbers ⊢
      exact apart_of_numbers hcompare hkinds hnumbers

variable {v d : Value}

/-- Two values that are equal are no stand-ins. -/
theorem equals_eq_ok_iff {same : Bool} :
    v.equals d = .ok same ↔
      (v.blocks? = Option.none ∧ d.blocks? = Option.none) ∧ equalsIn false v d = .ok same := by
  rw [equals, unlessBlocked]
  cases hname : v.blocks?.or d.blocks? with
  | none => simp [Option.or_eq_none_iff.mp hname]
  | some name =>
      have hblocked : ¬ (v.blocks? = Option.none ∧ d.blocks? = Option.none) := by
        rw [← Option.or_eq_none_iff, hname]
        exact Option.some_ne_none name
      simp [hblocked]

theorem apart_of_equals (hequal : v.equals d = .ok true) (hkind : v.kind ≠ d.kind)
    (hnumbers : numeric? v = Option.none ∨ numeric? d = Option.none) : Apart v d := by
  obtain ⟨-, hequal⟩ := equals_eq_ok_iff.mp hequal
  cases v with
  | scalar a =>
      cases d with
      | scalar b => exact apart_of_scalars (liftSignal_eq_ok.mp hequal) hkind hnumbers
      | _ => cases hequal
  | list xs | tuple xs | bytes content | derived text =>
      cases d <;> first | exact absurd rfl hkind | cases hequal
  | map xs =>
      cases d with
      | map ys => exact absurd rfl hkind
      | frozenMap ys => exact .maps xs ys
      | _ => cases hequal
  | frozenMap xs =>
      cases d with
      | map ys => exact .symm (.maps ys xs)
      | frozenMap ys => exact absurd rfl hkind
      | _ => cases hequal
  | set xs =>
      cases d with
      | set ys => exact absurd rfl hkind
      | frozenSet ys => exact .sets xs ys
      | _ => cases hequal
  | frozenSet xs =>
      cases d with
      | set ys => exact .symm (.sets ys xs)
      | frozenSet ys => exact absurd rfl hkind
      | _ => cases hequal
  | «foreign» s o =>
      cases d with
      | «foreign» t p =>
          have htype : s ≠ t := by
            rintro rfl
            exact hkind rfl
          exact .objects o p htype
      | _ => cases hequal

theorem isIdentical_cases (hidentical : v.isIdentical d = true) :
    (∃ x y : Number, v = x.toValue ∧ d = y.toValue ∧ x.isNaN = true ∧ y.isNaN = true) ∨
      ∃ s t o, v = .foreign s o ∧ d = .foreign t o := by
  cases v with
  | scalar a =>
      cases d with
      | scalar b =>
          change a.isIdentical b = true at hidentical
          unfold Scalar.isIdentical at hidentical
          split at hidentical
          next o p => exact .inl ⟨.float (.nan o), .float (.nan p), rfl, rfl, rfl, rfl⟩
          next s i m o t j n p =>
            exact .inl ⟨.decimal (.nan s i m o), .decimal (.nan t j n p), rfl, rfl, rfl, rfl⟩
          next => cases hidentical
      | _ => cases hidentical
  | «foreign» s o =>
      cases d with
      | «foreign» t p =>
          change o.isSame p = true at hidentical
          obtain rfl : o = p := by simp [Origin.isSame] at hidentical; exact hidentical.1
          exact .inr ⟨s, t, o, rfl, rfl⟩
      | _ => cases hidentical
  | _ => cases hidentical

theorem apart_or_equals_of_isIdentical (hidentical : v.isIdentical d = true) :
    Apart v d ∨ v.equals d = .ok true ∧ v.kind = d.kind := by
  rcases isIdentical_cases hidentical with ⟨x, y, rfl, rfl, hx, hy⟩ | ⟨s, t, o, rfl, rfl⟩
  · exact .inl (.nans hx hy)
  by_cases htype : s = t
  · subst htype
    cases hblocks : blocks? (.foreign s o) with
    | none => exact .inr ⟨equals_eq_ok_iff.mpr ⟨⟨hblocks, hblocks⟩, congrArg _ hidentical⟩, rfl⟩
    | some name =>
        cases o with
        | blocked name' n => exact .inl (.standIns s name' n)
        | _ => cases hblocks
  · exact .inl (.objects o o htype)

/-- Values that are apart are both NaNs, or a stand-in, or of two types and not both numbers. -/
theorem Apart.reason (happart : Apart v d) :
    (∃ x y : Number, v = x.toValue ∧ d = y.toValue ∧ x.isNaN = true ∧ y.isNaN = true) ∨
      (∃ name, v.blocks? = some name ∧ d.blocks? = some name) ∨
        (v.kind ≠ d.kind ∧ (numeric? v = Option.none ∨ numeric? d = Option.none)) := by
  induction happart with
  | truth b x =>
      have hkind : (bool b).kind ≠ x.toValue.kind := by
        cases x <;> simp [kind, Scalar.kind, Number.toValue]
      exact .inr (.inr ⟨hkind, .inl rfl⟩)
  | infinities s t => exact .inr (.inr ⟨by simp [kind, Scalar.kind], .inr rfl⟩)
  | maps xs ys => exact .inr (.inr ⟨by simp [kind], .inl rfl⟩)
  | sets xs ys => exact .inr (.inr ⟨by simp [kind], .inl rfl⟩)
  | objects o p htype => exact .inr (.inr ⟨by simpa [kind] using htype, .inl rfl⟩)
  | standIns s name n => exact .inr (.inl ⟨name, rfl, rfl⟩)
  | nans hx hy => exact .inl ⟨_, _, rfl, rfl, hx, hy⟩
  | symm happart ih =>
      rcases ih with ⟨x, y, hx, hy, hxNaN, hyNaN⟩ | ⟨name, hv, hd⟩ | ⟨hkind, hnumbers⟩
      · exact .inl ⟨y, x, hy, hx, hyNaN, hxNaN⟩
      · exact .inr (.inl ⟨name, hd, hv⟩)
      · exact .inr (.inr ⟨hkind.symm, hnumbers.symm⟩)

theorem matches_iff : v.Matches d ↔ v.isIdentical d = true ∨ v.equals d = .ok true := by
  rw [Matches, isMatch_eq]
  by_cases hidentical : v.isIdentical d = true
  · simp [hidentical]
  · simp [hidentical]

theorem compares_equal_iff :
    Compares .equal v d ↔ v.equals d = .ok true ∧
      (v.kind = d.kind ∨ ¬ (numeric? v = Option.none ∨ numeric? d = Option.none)) := by
  rw [Compares, compareBySymbol_symbol]
  by_cases hnumbers : numeric? v = Option.none ∨ numeric? d = Option.none
  · rw [compareStrictly_equality hnumbers rfl, typedEquality]
    by_cases hkind : v.kind = d.kind
    · rw [if_pos hkind]
      cases v.equals d <;> simp [hkind, escaping, Except.map]
    · simp [hkind, hnumbers, Except.map]
  · rw [and_iff_left (.inr hnumbers)]
    obtain ⟨hv, hd⟩ := not_or.mp hnumbers
    obtain ⟨m, hm⟩ := Option.ne_none_iff_exists'.mp hv
    obtain ⟨n, hn⟩ := Option.ne_none_iff_exists'.mp hd
    rw [compareStrictly, hm, hn, eq_toValue_of_numeric? hm, eq_toValue_of_numeric? hn,
      Number.equals_toValue]
    cases hholds : m.holds .equal n <;> simp [hholds, escaping, liftSignal]

/-- Strict comparison agrees with the search of a list but for the values that are apart. -/
theorem compares_equal_iff_matches : Compares .equal v d ↔ v.Matches d ∧ ¬ Apart v d := by
  rw [matches_iff, compares_equal_iff]
  constructor
  · rintro ⟨hequal, htyped⟩
    refine ⟨.inr hequal, fun happart => ?_⟩
    rcases happart.reason with ⟨x, y, rfl, rfl, hx, -⟩ | ⟨name, hv, -⟩ | ⟨hkind, hnumbers⟩
    · exact Number.not_equals_of_isNaN hx y hequal
    · have hfree : v.blocks? = Option.none := (equals_eq_ok_iff.mp hequal).1.1
      simp [hfree] at hv
    · exact htyped.elim hkind fun hboth => hboth hnumbers
  · rintro ⟨hmatches, hnot⟩
    rcases hmatches with hidentical | hequal
    · obtain happart | ⟨hequal, hkind⟩ := apart_or_equals_of_isIdentical hidentical
      · exact absurd happart hnot
      · exact ⟨hequal, .inl hkind⟩
    · refine ⟨hequal, ?_⟩
      by_contra htyped
      obtain ⟨hkind, hnumbers⟩ := not_or.mp htyped
      exact hnot (apart_of_equals hequal hkind (not_not.mp hnumbers))

theorem numbers_match_symm {x y : Number} (hmatches : x.toValue.Matches y.toValue) :
    y.toValue.Matches x.toValue := by
  rw [matches_iff, isIdentical_comm, Number.equals_toValue, liftSignal_eq_ok,
    Number.holds_equal_eq_ok_true_iff]
  rw [matches_iff, Number.equals_toValue, liftSignal_eq_ok,
    Number.holds_equal_eq_ok_true_iff] at hmatches
  exact hmatches.imp_right fun hequal => ⟨hequal.1.symm, Number.compare?_eq_symm hequal.2⟩

/-- What matches a number or a truth value counts as a number too, and as the same one unless none
of the two is finite. -/
theorem exists_number_of_matches {a : Scalar} {m : Number} (ha : a.number? = some m)
    (hmatches : d.Matches (scalar a)) :
    ∃ b n, d = .scalar b ∧ b.number? = some n ∧ m.isFinite = n.isFinite ∧
      (m.isFinite = true → m.value = n.value) := by
  rcases matches_iff.mp hmatches with hidentical | hequal
  · rcases isIdentical_cases hidentical with ⟨y, x, rfl, hx, hyNaN, hxNaN⟩ | ⟨s, t, o, -, ⟨⟩⟩
    obtain ⟨a', ha', hnumber⟩ := x.exists_scalar
    obtain ⟨b, hb, hy⟩ := y.exists_scalar
    obtain rfl : a = a' := Value.scalar.inj (hx.trans ha')
    obtain rfl := Option.some.inj (ha.symm.trans hnumber)
    have hinfinite : m.isFinite = false := Number.not_isFinite_of_isNaN hxNaN
    refine ⟨b, y, hb, hy, hinfinite.trans (Number.not_isFinite_of_isNaN hyNaN).symm, ?_⟩
    intro hfinite
    rw [hinfinite] at hfinite
    cases hfinite
  · obtain ⟨-, hequal⟩ := equals_eq_ok_iff.mp hequal
    cases d with
    | scalar b =>
        rcases Scalar.equals_cases (liftSignal_eq_ok.mp hequal) with
          ⟨-, hnone, -⟩ | ⟨n, m', hn, hm, hcompare⟩
        · rw [ha] at hnone
          cases hnone
        · obtain rfl := Option.some.inj (ha.symm.trans hm)
          have hturned := Number.compare?_eq_symm hcompare
          exact ⟨b, n, rfl, hn, Number.isFinite_eq_of_compare? hturned,
            Number.value_eq_of_compare? hturned⟩
    | map xs | frozenMap xs | set xs | frozenSet xs =>
        simp [equalsIn, entries?, elements?] at hequal
    | _ => cases hequal

theorem matches_bool {b : Bool} (hmatches : d.Matches (bool b)) :
    d = .bool b ∨ ∃ x : Number, d = x.toValue ∧ x.isFinite = true ∧
      x.value = (Number.ofBool b).value := by
  obtain ⟨a, n, rfl, hn, hfinite, hvalue⟩ := exists_number_of_matches rfl hmatches
  rcases Scalar.number?_cases hn with ⟨c, rfl, rfl⟩ | ha
  · have hsame : b = c := Number.ofBool_value_injective (hvalue rfl)
    exact .inl (hsame ▸ rfl)
  · exact .inr ⟨n, ha, hfinite.symm, (hvalue rfl).symm⟩

theorem matches_number {x : Number} (hmatches : d.Matches x.toValue) :
    (∃ y : Number, d = y.toValue) ∨
      ∃ b, d = .bool b ∧ x.isFinite = true ∧ x.value = (Number.ofBool b).value := by
  obtain ⟨a, hx, ha⟩ := x.exists_scalar
  rw [hx] at hmatches
  obtain ⟨s, n, rfl, hn, hfinite, hvalue⟩ := exists_number_of_matches ha hmatches
  rcases Scalar.number?_cases hn with ⟨b, rfl, rfl⟩ | hs
  · exact .inr ⟨b, rfl, hfinite, hvalue hfinite⟩
  · exact .inl ⟨n, hs⟩

end Value

/-! ## Values of inputs -/

namespace Model

open Expression

/-- What it means that a value is found among listed ones. -/
structure TakenFrom (v : Value) (values : List Value) : Prop where
  matched : ∃ d ∈ values, d.Matches v
  compares_turned_iff : (∃ d ∈ values, Compares .equal d v) ↔
    ∃ d ∈ values, d.Matches v ∧ ¬ d.Apart v
  compares_iff : (∃ d ∈ values, Compares .equal v d) ↔ ∃ d ∈ values, v.Matches d ∧ ¬ v.Apart d
  truth (b : Bool) (hv : v = .bool b) : .bool b ∈ values ∨
    ∃ x : Number, x.toValue ∈ values ∧ x.isFinite = true ∧ x.value = (Number.ofBool b).value
  number (x : Number) (hv : v = x.toValue) :
    (∃ y : Number, y.toValue ∈ values ∧ x.toValue.Matches y.toValue) ∨
      ∃ b, .bool b ∈ values ∧ x.isFinite = true ∧ x.value = (Number.ofBool b).value

theorem takenFrom_of_matches {v d : Value} {values : List Value} (hd : d ∈ values)
    (hmatches : d.Matches v) : TakenFrom v values where
  matched := ⟨d, hd, hmatches⟩
  compares_turned_iff :=
    exists_congr fun e => and_congr_right fun _ => Value.compares_equal_iff_matches
  compares_iff := exists_congr fun e => and_congr_right fun _ => Value.compares_equal_iff_matches
  truth b hv := by
    subst hv
    rcases Value.matches_bool hmatches with rfl | ⟨x, rfl, hx⟩
    · exact .inl hd
    · exact .inr ⟨x, hd, hx⟩
  number x hv := by
    subst hv
    rcases Value.matches_number hmatches with ⟨y, rfl⟩ | ⟨b, rfl, hx⟩
    · exact .inl ⟨y, hd, Value.numbers_match_symm hmatches⟩
    · exact .inr ⟨b, hd, hx⟩

theorem exists_matches_of_kept {spec : InputSpec} {inputs : Entries} {v : Value}
    {values : List Value} (htype : spec.type = InputType.enum.name)
    (hvalues : spec.values = some values) (hfound : inputs.get? spec.id = some v)
    (hkept : spec.violationIn? inputs = .ok none) :
    ∃ d ∈ values, d.Matches v := by
  have hname := InputType.ofName?_eq_some_iff.mpr htype
  simp only [InputSpec.violationIn?, hfound, InputSpec.violation?, hname, hvalues] at hkept
  split at hkept
  next hnone => cases hnone
  next hempty => cases hkept
  next values' hne hsome =>
    obtain rfl := Option.some.inj hsome
    obtain ⟨listed, hlisted, hkept⟩ := bind_eq_ok.mp hkept
    cases listed with
    | false =>
        obtain ⟨given, -, hkept⟩ := bind_eq_ok.mp hkept
        obtain ⟨allowed, -, hkept⟩ := bind_eq_ok.mp hkept
        cases hkept
    | true =>
        obtain ⟨front, d, back, rfl, -, hmatches⟩ := Value.isAmong_eq_ok_true_iff.mp hlisted
        exact ⟨d, List.mem_append_cons_self, hmatches⟩

/-- An accepted value matches a listed one, and then some listed value compares equal unless each
that matches is apart from it.  A truth value is accepted where it is listed or the number that it
counts as is, and a number where one that matches is listed or a truth value counting as it. -/
theorem Manifest.accepted_value_taken {m : Manifest} {inputs : Entries} {spec : InputSpec}
    {v : Value} {values : List Value} (haccepts : m.Accepts inputs) (hspec : spec ∈ m.inputs)
    (htype : spec.type = InputType.enum.name) (hvalues : spec.values = some values)
    (hfound : inputs.get? spec.id = some v) : TakenFrom v values := by
  have hkept := Manifest.accepts_iff.mp haccepts spec hspec
  obtain ⟨d, hd, hmatches⟩ := exists_matches_of_kept htype hvalues hfound hkept
  exact takenFrom_of_matches hd hmatches

/-- A loan term in years, from a list of two. -/
def loanTerm : InputSpec :=
  ⟨"term", "enum", "", some [.int 1, .int 15], []⟩

def financing : Manifest where
  id := "financing"
  name := "Financing"
  version := "1"
  description := ""
  inputs := [loanTerm]
  outputs := []
  extra := []

theorem financing_accepts_true : financing.Accepts [(.text "term", .bool true)] := by
  rw [Manifest.accepts_iff]
  intro spec hspec
  obtain rfl := List.mem_singleton.mp hspec
  exact toOption_eq_some.mp (by decide +kernel)

theorem true_taken_for_one :
    financing.Accepts [(.text "term", .bool true)] ∧ loanTerm.type = InputType.enum.name ∧
      TakenFrom (.bool true) [.int 1, .int 15] :=
  ⟨financing_accepts_true, rfl,
    Manifest.accepted_value_taken financing_accepts_true List.mem_cons_self rfl rfl rfl⟩

/-- No listed value need compare equal to an accepted one. -/
theorem true_accepted_unlisted :
    ¬ ∀ (m : Manifest) (inputs : Entries) (spec : InputSpec) (v : Value) (values : List Value),
      m.Accepts inputs → spec ∈ m.inputs → spec.type = InputType.enum.name →
        spec.values = some values → values ≠ [] → inputs.get? spec.id = some v →
          ∃ d ∈ values, Compares .equal v d := by
  intro hclaim
  obtain ⟨d, hd, hequal⟩ := hclaim financing _ loanTerm (.bool true) _ financing_accepts_true
    List.mem_cons_self rfl rfl (by simp) rfl
  have hapart : ∀ n : Int, ¬ Compares .equal (.bool true) (.int n) := by
    intro n hn
    exact (Value.compares_equal_iff_matches.mp hn).2 (.truth true (.int n))
  rcases List.mem_cons.mp hd with rfl | hd
  · exact hapart 1 hequal
  · obtain rfl := List.mem_singleton.mp hd
    exact hapart 15 hequal

end Model

end ModelPlaybook
