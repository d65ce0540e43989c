import Mathlib.Logic.Function.Defs
import ModelPlaybook.Proofs.Failing
import ModelPlaybook.Proofs.Value.TurnedEquality
import ModelPlaybook.Value.Order

/-!
# When comparisons stop

An order between a decimal and something that is no number stops with a decimal signal.  Comparing
two values for equality stops just if the comparison comes to a signaling NaN or to a stand-in for
a blocked name.  A comparison of containers goes through their parts in order and ends at the first
difference, so not all of these inside are met.
-/

namespace ModelPlaybook

theorem liftSignal_eq_ok {α : Type} {r : Except DecimalSignal α} {a : α} :
    liftSignal r = .ok a ↔ r = .ok a := by
  cases r <;> simp [liftSignal]

theorem liftSignal_eq_error {α : Type} {r : Except DecimalSignal α} {f : Fault} :
    liftSignal r = .error f ↔ ∃ s, r = .error s ∧ f = .ofSignal s := by
  cases r <;> simp [liftSignal, eq_comm]

/-! ## Numbers -/

namespace Number

theorem toValue_injective : Function.Injective Number.toValue := by
  intro x y hxy
  cases x <;> cases y <;> simp_all [Number.toValue]

theorem notNaN_of_isFinite {x : Number} (hx : x.isFinite = true) :
    x.isSignaling = false ∧ x.isNaN = false := by
  cases x with
  | int n => exact ⟨rfl, rfl⟩
  | float x => cases x with
    | nan o => cases hx
    | _ => exact ⟨rfl, rfl⟩
  | decimal d => cases d with
    | finite => exact ⟨rfl, rfl⟩
    | _ => cases hx

theorem isNaN_of_isSignaling {n : Number} (hn : n.isSignaling = true) : n.isNaN = true := by
  cases n with
  | decimal d =>
      cases d with
      | nan => rfl
      | _ => cases hn
  | _ => cases hn

theorem exists_scalar (x : Number) : ∃ a, x.toValue = .scalar a ∧ a.number? = some x := by
  cases x with
  | int n => exact ⟨.int n, rfl, rfl⟩
  | float f => exact ⟨.float f, rfl, rfl⟩
  | decimal d => exact ⟨.decimal d, rfl, rfl⟩

theorem holds_eq_error_iff {k : Comparator} {m n : Number} {s : DecimalSignal}
    (hm : m.isSignaling = false) (hn : n.isSignaling = false) :
    m.holds k n = .error s ↔ s = .invalidOperation ∧ k.isEquality = false ∧
      (m.isDecimal = true ∨ n.isDecimal = true) ∧ (m.isNaN = true ∨ n.isNaN = true) := by
  have hstops : (!k.isEquality && (m.isDecimal || n.isDecimal) && (m.isNaN || n.isNaN)) = true ↔
      k.isEquality = false ∧ (m.isDecimal = true ∨ n.isDecimal = true) ∧
        (m.isNaN = true ∨ n.isNaN = true) := by
    simp [and_assoc]
  rw [← hstops]
  simp only [holds, hm, hn, Bool.or_self, Bool.false_eq_true, if_false]
  split
  · rename_i hyes
    simp [hyes, eq_comm]
  · rename_i hno
    cases m.compare? n with
    | none => simp [hno]
    | some o => simp [hno]

end Number

theorem Decimal.notNaN_of_isFinite {d : Decimal} (hd : d.isFinite = true) :
    d.isSignaling = false ∧ d.isNaN = false :=
  Number.notNaN_of_isFinite (x := .decimal d) hd

/-- A finite decimal and a double that is no number have no order. -/
theorem Number.holds_eq_error_of_unordered {k : Comparator} {d : Decimal} {f : Binary64}
    (horder : k.isEquality = false) (hd : d.isFinite = true) (hf : f.isNaN = true) :
    (Number.decimal d).holds k (.float f) = .error .invalidOperation ∧
      (Number.float f).holds k (.decimal d) = .error .invalidOperation := by
  have hdecimal : (Number.decimal d).isSignaling = false := (Decimal.notNaN_of_isFinite hd).1
  have hfloat : (Number.float f).isSignaling = false := rfl
  constructor
  · rw [Number.holds_eq_error_iff hdecimal hfloat]
    exact ⟨rfl, horder, .inl rfl, .inr hf⟩
  · rw [Number.holds_eq_error_iff hfloat hdecimal]
    exact ⟨rfl, horder, .inr rfl, .inl hf⟩

namespace Value

/-! ## Matching -/

def Matches (a b : Value) : Prop :=
  a.isMatch b = .ok true

def Differs (a b : Value) : Prop :=
  a.isMatch b = .ok false

theorem isMatch_eq (a b : Value) :
    a.isMatch b = if a.isIdentical b then .ok true else a.equals b := by
  simp [isMatch, matching, equals]

theorem isMatch_eq_error_iff {a b : Value} {f : Fault} :
    a.isMatch b = .error f ↔ a.isIdentical b = false ∧ a.equals b = .error f := by
  rw [isMatch_eq]
  by_cases hsame : a.isIdentical b = true
  · simp [hsame]
  · simp [hsame]

theorem equals_eq_equalsIn {x y : Value} (hx : x.blocks? = Option.none)
    (hy : y.blocks? = Option.none) : x.equals y = equalsIn false x y := by
  simp [equals, unlessBlocked, hx, hy]

section

variable {α ε : Type} {test : α → Except ε Bool}

theorem findFirst_eq_error_iff {xs : List α} {e : ε} :
    findFirst test xs = .error e ↔
      ∃ front x back, xs = front ++ x :: back ∧ (∀ y ∈ front, test y = .ok false) ∧
        test x = .error e := by
  induction xs with
  | nil => simp [findFirst]
  | cons x xs ih =>
      rw [findFirst, bind_eq_error]
      constructor
      · rintro (htest | ⟨found, htest, hrest⟩)
        · exact ⟨[], x, xs, rfl, by simp, htest⟩
        · cases found with
          | true => simp [pure, Except.pure] at hrest
          | false =>
              obtain ⟨front, y, back, rfl, hfront, hy⟩ := ih.mp hrest
              exact ⟨x :: front, y, back, rfl, by simpa [htest] using hfront, hy⟩
      · rintro ⟨front, y, back, hxs, hfront, hy⟩
        cases front with
        | nil =>
            obtain ⟨rfl, -⟩ := List.cons.inj hxs
            exact .inl hy
        | cons z front =>
            obtain ⟨rfl, rfl⟩ := List.cons.inj hxs
            have hrest := ih.mpr ⟨front, y, back, rfl, fun w hw => hfront w (by simp [hw]), hy⟩
            exact .inr ⟨false, hfront x (by simp), hrest⟩

theorem findFirst_eq_some_iff {xs : List α} {x : α} :
    findFirst test xs = .ok (some x) ↔
      ∃ front back, xs = front ++ x :: back ∧ (∀ y ∈ front, test y = .ok false) ∧
        test x = .ok true := by
  induction xs with
  | nil => simp [findFirst]
  | cons y xs ih =>
      rw [findFirst, bind_eq_ok]
      constructor
      · rintro ⟨found, htest, hrest⟩
        cases found with
        | true =>
            simp [pure, Except.pure] at hrest
            subst hrest
            exact ⟨[], xs, rfl, by simp, htest⟩
        | false =>
            obtain ⟨front, back, rfl, hfront, hx⟩ := ih.mp hrest
            exact ⟨y :: front, back, rfl, by simpa [htest] using hfront, hx⟩
      · rintro ⟨front, back, hxs, hfront, hx⟩
        cases front with
        | nil =>
            obtain ⟨rfl, -⟩ := List.cons.inj hxs
            exact ⟨true, hx, rfl⟩
        | cons z front =>
            obtain ⟨rfl, rfl⟩ := List.cons.inj hxs
            have hrest := ih.mpr ⟨front, back, rfl, fun w hw => hfront w (by simp [hw]), hx⟩
            exact ⟨false, hfront y (by simp), hrest⟩

theorem findFirst_eq_none_iff {xs : List α} :
    findFirst test xs = .ok Option.none ↔ ∀ x ∈ xs, test x = .ok false := by
  induction xs with
  | nil => simp [findFirst]
  | cons x xs ih =>
      rw [findFirst, bind_eq_ok, List.forall_mem_cons, ← ih]
      constructor
      · rintro ⟨found, htest, hrest⟩
        cases found with
        | true => simp [pure, Except.pure] at hrest
        | false => exact ⟨htest, hrest⟩
      · rintro ⟨htest, hrest⟩
        exact ⟨false, htest, hrest⟩

theorem checkAll_eq_error_iff {xs : List α} {e : ε} :
    checkAll test xs = .error e ↔
      ∃ front x back, xs = front ++ x :: back ∧ (∀ y ∈ front, test y = .ok true) ∧
        test x = .error e := by
  induction xs with
  | nil => simp [checkAll]
  | cons x xs ih =>
      rw [checkAll, bind_eq_error]
      constructor
      · rintro (htest | ⟨passed, htest, hrest⟩)
        · exact ⟨[], x, xs, rfl, by simp, htest⟩
        · cases passed with
          | false => simp [pure, Except.pure] at hrest
          | true =>
              obtain ⟨front, y, back, rfl, hfront, hy⟩ := ih.mp hrest
              exact ⟨x :: front, y, back, rfl, by simpa [htest] using hfront, hy⟩
      · rintro ⟨front, y, back, hxs, hfront, hy⟩
        cases front with
        | nil =>
            obtain ⟨rfl, -⟩ := List.cons.inj hxs
            exact .inl hy
        | cons z front =>
            obtain ⟨rfl, rfl⟩ := List.cons.inj hxs
            have hrest := ih.mpr ⟨front, y, back, rfl, fun w hw => hfront w (by simp [hw]), hy⟩
            exact .inr ⟨true, hfront x (by simp), hrest⟩

end

/-! ## Parts of containers -/

theorem allEqual_eq_error_iff {xs ys : List Value} {f : Fault} :
    allEqual false xs ys = .error f ↔
      checkAll (fun pair => pair.1.isMatch pair.2) (xs.zip ys) = .error f := by
  induction xs generalizing ys with
  | nil => simp [allEqual, checkAll]
  | cons x xs ih =>
      cases ys with
      | nil => simp [allEqual, checkAll]
      | cons y ys =>
          rw [allEqual, List.zip_cons_cons, checkAll, bind_eq_error, bind_eq_error]
          apply or_congr Iff.rfl
          apply exists_congr
          intro passed
          cases passed with
          | true => simp [ih, isMatch]
          | false => simp [isMatch, pure, Except.pure]

/-- The entries of two mappings, those that are gone through before those among which they are
looked up.  A read-only mapping on the right comes first. -/
def entriesInOrder? (x y : Value) : Option (Entries × Entries) :=
  match x.entries?, y.entries? with
  | some xs, some ys => some (if y.isFrozenMap then (ys, xs) else (xs, ys))
  | _, _ => Option.none

/-- The comparison of two containers comes to a pair of their parts.  The parts stand in the same
place, or the first one is looked up among those of the other container; and nothing before them has
ended the comparison or the search. -/
inductive Reaches : Value → Value → Value → Value → Prop where
  | list {xs ys : List Value} {front back : List (Value × Value)} {a b : Value}
      (hlength : xs.length = ys.length) (hpairs : xs.zip ys = front ++ (a, b) :: back)
      (hfront : ∀ pair ∈ front, pair.1.Matches pair.2) : Reaches (.list xs) (.list ys) a b
  | tuple {xs ys : List Value} {front back : List (Value × Value)} {a b : Value}
      (hpairs : xs.zip ys = front ++ (a, b) :: back)
      (hfront : ∀ pair ∈ front, pair.1.Matches pair.2) : Reaches (.tuple xs) (.tuple ys) a b
  | key {x y a b u t : Value} {before behind front back : Entries}
      (hentries : entriesInOrder? x y =
        some (before ++ (a, u) :: behind, front ++ (b, t) :: back))
      (hlength : (before ++ (a, u) :: behind).length = (front ++ (b, t) :: back).length)
      (hbefore : ∀ entry ∈ before, holdsEntry (front ++ (b, t) :: back) entry = .ok true)
      (hfront : ∀ entry ∈ front, a.Differs entry.1) : Reaches x y a b
  | value {x y k l a b : Value} {before behind front back : Entries}
      (hentries : entriesInOrder? x y =
        some (before ++ (k, a) :: behind, front ++ (l, b) :: back))
      (hlength : (before ++ (k, a) :: behind).length = (front ++ (l, b) :: back).length)
      (hbefore : ∀ entry ∈ before, holdsEntry (front ++ (l, b) :: back) entry = .ok true)
      (hfront : ∀ entry ∈ front, k.Differs entry.1) (hkey : k.Matches l) : Reaches x y a b
  | element {x y a b : Value} {before behind front back : List Value}
      (hx : x.elements? = some (before ++ a :: behind))
      (hy : y.elements? = some (front ++ b :: back))
      (hlength : (before ++ a :: behind).length = (front ++ b :: back).length)
      (hbefore : ∀ c ∈ before, holdsElement (front ++ b :: back) c = .ok true)
      (hfront : ∀ c ∈ front, a.Differs c) : Reaches x y a b

theorem blocks?_of_entries? {x : Value} {entries : Entries} (hx : x.entries? = some entries) :
    x.blocks? = Option.none := by
  cases x with
  | «foreign» name origin => cases hx
  | _ => rfl

theorem blocks?_of_elements? {x : Value} {items : List Value} (hx : x.elements? = some items) :
    x.blocks? = Option.none := by
  cases x with
  | «foreign» name origin => cases hx
  | _ => rfl

theorem exists_entriesInOrder {x y : Value} {entries others : Entries}
    (hx : x.entries? = some entries) (hy : y.entries? = some others) :
    ∃ xs ys, entriesInOrder? x y = some (xs, ys) := by
  simp only [entriesInOrder?, hx, hy]
  exact ⟨_, _, rfl⟩

theorem equals_of_entriesInOrder {x y : Value} {xs ys : Entries}
    (hentries : entriesInOrder? x y = some (xs, ys)) :
    x.equals y = if xs.length = ys.length then checkAll (holdsEntry ys) xs else .ok false := by
  unfold entriesInOrder? at hentries
  split at hentries
  next us ws hx hy =>
    rw [equals_eq_equalsIn (blocks?_of_entries? hx) (blocks?_of_entries? hy),
      equalsIn_of_entries hx hy, goesFirst]
    have hturned : checkAll (fun entry => hasEntry entry.1 entry.2 us) ws =
        checkAll (holdsEntry us) ws :=
      checkAll_hasEntry hx hy fun a _ b _ => equalsIn_turned a b
    cases hfrozen : y.isFrozenMap with
    | true =>
        simp only [hfrozen, if_true, Option.some.injEq, Prod.mk.injEq] at hentries
        obtain ⟨rfl, rfl⟩ := hentries
        simp [hturned, eq_comm]
    | false =>
        simp only [hfrozen, Bool.false_eq_true, if_false, Option.some.injEq,
          Prod.mk.injEq] at hentries
        obtain ⟨rfl, rfl⟩ := hentries
        simp [entriesWithin_eq]
  next => cases hentries

theorem equals_of_elements {x y : Value} {xs ys : List Value} (hx : x.elements? = some xs)
    (hy : y.elements? = some ys) :
    x.equals y = if xs.length = ys.length then checkAll (holdsElement ys) xs else .ok false := by
  rw [equals_eq_equalsIn (blocks?_of_elements? hx) (blocks?_of_elements? hy),
    equalsIn_of_elements hx hy, elementsWithin_eq]
  simp

theorem holdsEntry_eq_error_iff {ys : Entries} {k v : Value} {f : Fault} :
    holdsEntry ys (k, v) = .error f ↔
      (∃ front l t back, ys = front ++ (l, t) :: back ∧
        (∀ entry ∈ front, k.Differs entry.1) ∧ k.isMatch l = .error f) ∨
      ∃ front l t back, ys = front ++ (l, t) :: back ∧
        (∀ entry ∈ front, k.Differs entry.1) ∧ k.Matches l ∧ v.isMatch t = .error f := by
  rw [holdsEntry, bind_eq_error, findFirst_eq_error_iff]
  apply or_congr
  · constructor
    · rintro ⟨front, ⟨l, t⟩, back, hys, hfront, hmatch⟩
      exact ⟨front, l, t, back, hys, hfront, hmatch⟩
    · rintro ⟨front, l, t, back, hys, hfront, hmatch⟩
      exact ⟨front, (l, t), back, hys, hfront, hmatch⟩
  · constructor
    · rintro ⟨found, hfound, hmatch⟩
      cases found with
      | none => simp [pure, Except.pure] at hmatch
      | some other =>
          obtain ⟨front, back, hys, hfront, hkey⟩ := findFirst_eq_some_iff.mp hfound
          exact ⟨front, other.1, other.2, back, hys, hfront, hkey, hmatch⟩
    · rintro ⟨front, l, t, back, hys, hfront, hkey, hmatch⟩
      have hfound := findFirst_eq_some_iff.mpr ⟨front, back, hys, hfront, hkey⟩
      exact ⟨some (l, t), hfound, hmatch⟩

theorem holdsElement_eq_error_iff {ys : List Value} {x : Value} {f : Fault} :
    holdsElement ys x = .error f ↔
      ∃ front y back, ys = front ++ y :: back ∧ (∀ c ∈ front, x.Differs c) ∧
        x.isMatch y = .error f := by
  rw [holdsElement, bind_eq_error, findFirst_eq_error_iff]
  constructor
  · rintro (hfound | ⟨found, hfound, hrest⟩)
    · exact hfound
    · cases found <;> simp [pure, Except.pure] at hrest
  · exact .inl

/-- A comparison of containers stops where a comparison of parts that it comes to stops. -/
theorem Reaches.equals_eq {x y a b : Value} {f : Fault} (hreaches : Reaches x y a b)
    (hmatch : a.isMatch b = .error f) : x.equals y = .error f := by
  cases hreaches with
  | list hlength hpairs hfront =>
      rw [equals_eq_equalsIn rfl rfl, equalsIn, if_pos hlength, allEqual_eq_error_iff,
        checkAll_eq_error_iff]
      exact ⟨_, _, _, hpairs, hfront, hmatch⟩
  | tuple hpairs hfront =>
      rw [equals_eq_equalsIn rfl rfl, equalsIn, allEqual_eq_error_iff, checkAll_eq_error_iff]
      exact ⟨_, _, _, hpairs, hfront, hmatch⟩
  | key hentries hlength hbefore hfront =>
      rw [equals_of_entriesInOrder hentries, if_pos hlength, checkAll_eq_error_iff]
      refine ⟨_, _, _, rfl, hbefore, ?_⟩
      exact holdsEntry_eq_error_iff.mpr (.inl ⟨_, _, _, _, rfl, hfront, hmatch⟩)
  | value hentries hlength hbefore hfront hkey =>
      rw [equals_of_entriesInOrder hentries, if_pos hlength, checkAll_eq_error_iff]
      refine ⟨_, _, _, rfl, hbefore, ?_⟩
      exact holdsEntry_eq_error_iff.mpr (.inr ⟨_, _, _, _, rfl, hfront, hkey, hmatch⟩)
  | element hx hy hlength hbefore hfront =>
      rw [equals_of_elements hx hy, if_pos hlength, checkAll_eq_error_iff]
      refine ⟨_, _, _, rfl, hbefore, ?_⟩
      exact holdsElement_eq_error_iff.mpr ⟨_, _, _, rfl, hfront, hmatch⟩

theorem exists_reaches_of_entries {x y : Value} {entries others : Entries} {f : Fault}
    (hx : x.entries? = some entries) (hy : y.entries? = some others)
    (hequals : x.equals y = .error f) :
    ∃ a b, Reaches x y a b ∧ a.isMatch b = .error f := by
  obtain ⟨xs, ys, hentries⟩ := exists_entriesInOrder hx hy
  rw [equals_of_entriesInOrder hentries] at hequals
  by_cases hlength : xs.length = ys.length
  · rw [if_pos hlength, checkAll_eq_error_iff] at hequals
    obtain ⟨before, ⟨k, v⟩, behind, rfl, hbefore, hentry⟩ := hequals
    rw [holdsEntry_eq_error_iff] at hentry
    rcases hentry with ⟨front, l, t, back, rfl, hfront, hmatch⟩ |
      ⟨front, l, t, back, rfl, hfront, hkey, hmatch⟩
    · exact ⟨k, l, .key hentries hlength hbefore hfront, hmatch⟩
    · exact ⟨v, t, .value hentries hlength hbefore hfront hkey, hmatch⟩
  · simp [hlength] at hequals

theorem exists_reaches_of_elements {x y : Value} {xs ys : List Value} {f : Fault}
    (hx : x.elements? = some xs) (hy : y.elements? = some ys) (hequals : x.equals y = .error f) :
    ∃ a b, Reaches x y a b ∧ a.isMatch b = .error f := by
  rw [equals_of_elements hx hy] at hequals
  by_cases hlength : xs.length = ys.length
  · rw [if_pos hlength, checkAll_eq_error_iff] at hequals
    obtain ⟨before, a, behind, rfl, hbefore, helement⟩ := hequals
    rw [holdsElement_eq_error_iff] at helement
    obtain ⟨front, b, back, rfl, hfront, hmatch⟩ := helement
    exact ⟨a, b, .element hx hy hlength hbefore hfront, hmatch⟩
  · simp [hlength] at hequals

theorem exists_reaches_of_equals_eq {x y : Value} {f : Fault} (hx : x.blocks? = Option.none)
    (hy : y.blocks? = Option.none) (hequals : x.equals y = .error f) :
    (∃ a b, x = .scalar a ∧ y = .scalar b ∧ liftSignal (a.equals b) = .error f) ∨
      ∃ a b, Reaches x y a b ∧ a.isMatch b = .error f := by
  have hraw := (equals_eq_equalsIn hx hy).symm.trans hequals
  cases x with
  | scalar a =>
      cases y with
      | scalar b => exact .inl ⟨a, b, rfl, rfl, hraw⟩
      | _ => cases hraw
  | list xs =>
      cases y with
      | list ys =>
          rw [equalsIn] at hraw
          by_cases hlength : xs.length = ys.length
          · rw [if_pos hlength, allEqual_eq_error_iff, checkAll_eq_error_iff] at hraw
            obtain ⟨front, ⟨a, b⟩, back, hpairs, hfront, hmatch⟩ := hraw
            exact .inr ⟨a, b, .list hlength hpairs hfront, hmatch⟩
          · simp [hlength] at hraw
      | _ => cases hraw
  | tuple xs =>
      cases y with
      | tuple ys =>
          rw [equalsIn, allEqual_eq_error_iff, checkAll_eq_error_iff] at hraw
          obtain ⟨front, ⟨a, b⟩, back, hpairs, hfront, hmatch⟩ := hraw
          exact .inr ⟨a, b, .tuple hpairs hfront, hmatch⟩
      | _ => cases hraw
  | map xs | frozenMap xs =>
      cases hy : y.entries? with
      | none => simp [equalsIn, hy] at hraw
      | some ys => exact .inr (exists_reaches_of_entries rfl hy hequals)
  | set xs | frozenSet xs =>
      cases hy : y.elements? with
      | none => simp [equalsIn, hy] at hraw
      | some ys => exact .inr (exists_reaches_of_elements rfl hy hequals)
  | bytes content | derived expression => cases y <;> cases hraw
  | «foreign» typeName origin => cases y <;> cases hraw

/-! ## What stops a comparison -/

/-- The comparison of two values comes to a signaling NaN or to a stand-in, and stops with a
fault. -/
inductive Stops : Fault → Value → Value → Prop where
  | number {a b : Scalar} {m n : Number} (ha : a.number? = some m) (hb : b.number? = some n)
      (hsignaling : m.isSignaling = true ∨ n.isSignaling = true) :
      Stops (.ofSignal .invalidOperation) (.scalar a) (.scalar b)
  | standIn {x y : Value} {name : String} (hname : x.blocks?.or y.blocks? = some name) :
      Stops (.denied name) x y
  | part {f : Fault} {x y a b : Value} (hreaches : Reaches x y a b)
      (hother : a.isIdentical b = false) (hstops : Stops f a b) : Stops f x y

theorem exists_mem_of_entriesInOrder {x y : Value} {xs ys : Entries} {entry other : Value × Value}
    (hentries : entriesInOrder? x y = some (xs, ys)) (hentry : entry ∈ xs) (hother : other ∈ ys) :
    (entry.1 ∈ x.parts ∧ entry.2 ∈ x.parts ∧ other.1 ∈ y.parts ∧ other.2 ∈ y.parts) ∨
      entry.1 ∈ y.parts ∧ entry.2 ∈ y.parts ∧ other.1 ∈ x.parts ∧ other.2 ∈ x.parts := by
  unfold entriesInOrder? at hentries
  split at hentries
  next us ws hx hy =>
    split at hentries
    · obtain ⟨rfl, rfl⟩ := Prod.mk.inj (Option.some.inj hentries)
      obtain ⟨hk, hv⟩ := mem_parts_of_entries hy hentry
      obtain ⟨hl, hw⟩ := mem_parts_of_entries hx hother
      exact .inr ⟨hk, hv, hl, hw⟩
    · obtain ⟨rfl, rfl⟩ := Prod.mk.inj (Option.some.inj hentries)
      obtain ⟨hk, hv⟩ := mem_parts_of_entries hx hentry
      obtain ⟨hl, hw⟩ := mem_parts_of_entries hy hother
      exact .inl ⟨hk, hv, hl, hw⟩
  next => cases hentries

theorem Reaches.mem_parts {x y a b : Value} (hreaches : Reaches x y a b) :
    (a ∈ x.parts ∧ b ∈ y.parts) ∨ a ∈ y.parts ∧ b ∈ x.parts := by
  cases hreaches with
  | list hlength hpairs hfront | tuple hpairs hfront =>
      have hpair : (a, b) ∈ List.zip _ _ := hpairs ▸ List.mem_append_cons_self
      exact .inl (List.of_mem_zip hpair)
  | key hentries hlength hbefore hfront =>
      rcases exists_mem_of_entriesInOrder hentries List.mem_append_cons_self
        List.mem_append_cons_self with ⟨ha, -, hb, -⟩ | ⟨ha, -, hb, -⟩
      · exact .inl ⟨ha, hb⟩
      · exact .inr ⟨ha, hb⟩
  | value hentries hlength hbefore hfront hkey =>
      rcases exists_mem_of_entriesInOrder hentries List.mem_append_cons_self
        List.mem_append_cons_self with ⟨-, ha, -, hb⟩ | ⟨-, ha, -, hb⟩
      · exact .inl ⟨ha, hb⟩
      · exact .inr ⟨ha, hb⟩
  | element hx hy hlength hbefore hfront =>
      exact .inl ⟨mem_parts_of_elements hx List.mem_append_cons_self,
        mem_parts_of_elements hy List.mem_append_cons_self⟩

theorem scalar_equals_eq_error_iff {a b : Scalar} {s : DecimalSignal} :
    a.equals b = .error s ↔ s = .invalidOperation ∧
      ∃ m n, a.number? = some m ∧ b.number? = some n ∧
        (m.isSignaling = true ∨ n.isSignaling = true) := by
  cases ha : a.number? with
  | none =>
      simp only [Scalar.equals, ha, reduceCtorEq, false_and, exists_false, and_false, iff_false]
      split <;> simp
  | some m =>
      cases hb : b.number? with
      | none =>
          simp only [Scalar.equals, ha, hb, reduceCtorEq, false_and, exists_false, and_false,
            iff_false]
          split <;> simp
      | some n =>
          have hequals : a.equals b =
              if m.isSignaling || n.isSignaling then .error .invalidOperation
              else .ok (m.compare? n == some .eq) := by
            simp only [Scalar.equals, ha, hb]
          rw [hequals]
          by_cases hsignaling : (m.isSignaling || n.isSignaling) = true
          · rw [if_pos hsignaling]
            constructor
            · rintro ⟨⟩
              exact ⟨rfl, m, n, rfl, rfl, by simpa using hsignaling⟩
            · rintro ⟨rfl, -⟩
              rfl
          · rw [if_neg hsignaling]
            constructor
            · rintro ⟨⟩
            · rintro ⟨-, m', n', ⟨⟩, ⟨⟩, hother⟩
              exact absurd (by simpa using hother) hsignaling

theorem liftSignal_scalar_equals_eq_error_iff {a b : Scalar} {f : Fault} :
    liftSignal (a.equals b) = .error f ↔ f = .ofSignal .invalidOperation ∧
      ∃ m n, a.number? = some m ∧ b.number? = some n ∧
        (m.isSignaling = true ∨ n.isSignaling = true) := by
  rw [liftSignal_eq_error]
  constructor
  · rintro ⟨s, hs, rfl⟩
    obtain ⟨rfl, hnumbers⟩ := scalar_equals_eq_error_iff.mp hs
    exact ⟨rfl, hnumbers⟩
  · rintro ⟨rfl, hnumbers⟩
    exact ⟨_, scalar_equals_eq_error_iff.mpr ⟨rfl, hnumbers⟩, rfl⟩

/-- Equality stops with a fault just if the comparison comes to what stops it so. -/
theorem stops_of_equals_eq {x y : Value} {f : Fault} (hequals : x.equals y = .error f) :
    Stops f x y := by
  cases hname : x.blocks?.or y.blocks? with
  | some name =>
      rw [equals, unlessBlocked, hname] at hequals
      cases hequals
      exact .standIn hname
  | none =>
      obtain ⟨hx, hy⟩ := Option.or_eq_none_iff.mp hname
      rcases exists_reaches_of_equals_eq hx hy hequals with
        ⟨a, b, rfl, rfl, hscalar⟩ | ⟨a, b, hreaches, hmatch⟩
      · obtain ⟨rfl, m, n, ha, hb, hsignaling⟩ := liftSignal_scalar_equals_eq_error_iff.mp hscalar
        exact .number ha hb hsignaling
      · obtain ⟨hother, hparts⟩ := isMatch_eq_error_iff.mp hmatch
        exact .part hreaches hother (stops_of_equals_eq hparts)
termination_by sizeOf x + sizeOf y
decreasing_by
  rcases hreaches.mem_parts with ⟨ha, hb⟩ | ⟨ha, hb⟩
  all_goals
    have ha := sizeOf_lt_of_mem_parts ha
    have hb := sizeOf_lt_of_mem_parts hb
    omega

theorem equals_eq_error_iff {x y : Value} {f : Fault} : x.equals y = .error f ↔ Stops f x y := by
  refine ⟨stops_of_equals_eq, fun hstops => ?_⟩
  induction hstops with
  | number ha hb hsignaling =>
      exact liftSignal_scalar_equals_eq_error_iff.mpr ⟨rfl, _, _, ha, hb, hsignaling⟩
  | standIn hname => rw [equals, unlessBlocked, hname]
  | part hreaches hother hstops ih =>
      exact hreaches.equals_eq (isMatch_eq_error_iff.mpr ⟨hother, ih⟩)

/-- A signaling NaN stops with a decimal signal, and a stand-in with a denial. -/
theorem Stops.fault_cases {f : Fault} {x y : Value} (hstops : Stops f x y) :
    f = .ofSignal .invalidOperation ∨ ∃ name, f = .denied name := by
  induction hstops with
  | number ha hb hsignaling => exact .inl rfl
  | standIn hname => exact .inr ⟨_, rfl⟩
  | part hreaches hother hstops ih => exact ih

/-- Something inside a value, or the value itself, has a property. -/
inductive Contains (P : Value → Prop) : Value → Prop where
  | self {x : Value} (hx : P x) : Contains P x
  | part {x a : Value} (ha : a ∈ x.parts) (hcontains : Contains P a) : Contains P x

/-- A value that is no number although it is of a number's type, or a stand-in. -/
def IsUncomparable (x : Value) : Prop :=
  (∃ n, x.number? = some n ∧ n.isNaN = true) ∨ ∃ name, x.blocks? = some name

theorem Stops.contains {f : Fault} {x y : Value} (hstops : Stops f x y) :
    x.Contains IsUncomparable ∨ y.Contains IsUncomparable := by
  induction hstops with
  | number ha hb hsignaling =>
      rcases hsignaling with hm | hn
      · exact .inl (.self (.inl ⟨_, ha, Number.isNaN_of_isSignaling hm⟩))
      · exact .inr (.self (.inl ⟨_, hb, Number.isNaN_of_isSignaling hn⟩))
  | @standIn x y name hname =>
      rcases Option.or_eq_some_iff.mp hname with hx | ⟨-, hy⟩
      · exact .inl (.self (.inr ⟨name, hx⟩))
      · exact .inr (.self (.inr ⟨name, hy⟩))
  | part hreaches hother hstops ih =>
      rcases hreaches.mem_parts with ⟨ha, hb⟩ | ⟨ha, hb⟩
      · exact ih.imp (.part ha) (.part hb)
      · exact ih.symm.imp (.part hb) (.part ha)

end Value

end ModelPlaybook
