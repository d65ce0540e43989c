import Mathlib
import ModelPlaybook.Value.Equality

/-!
# Equality of turned operands

Two mappings are compared by going through the entries of one of them, and which one it is depends
on which of them is read-only on the right.  Comparing turned operands is comparing them in their
own order: so the equality of containers is a check of the parts of the first in the second one.
-/

namespace ModelPlaybook

theorem Origin.isSame_comm (o p : Origin) : o.isSame p = p.isSame o := by
  by_cases hop : o = p
  · rw [hop]
  · simp [isSame, hop, Ne.symm hop]

theorem Scalar.isIdentical_comm (a b : Scalar) : a.isIdentical b = b.isIdentical a := by
  cases a with
  | float x =>
      cases b with
      | float y => cases x <;> cases y <;> first | rfl | exact Origin.isSame_comm _ _
      | decimal e => cases x <;> cases e <;> rfl
      | _ => cases x <;> rfl
  | decimal d =>
      cases b with
      | float y => cases d <;> cases y <;> rfl
      | decimal e => cases d <;> cases e <;> first | rfl | exact Origin.isSame_comm _ _
      | _ => cases d <;> rfl
  | _ =>
      cases b with
      | float y => cases y <;> rfl
      | decimal e => cases e <;> rfl
      | _ => rfl

namespace Value

/-! ## Parts of containers -/

/-- The parts of a container. -/
def parts : Value → List Value
  | .list items => items
  | .tuple items => items
  | .map entries => entries.flatMap fun entry => [entry.1, entry.2]
  | .frozenMap entries => entries.flatMap fun entry => [entry.1, entry.2]
  | .set items => items
  | .frozenSet items => items
  | _ => []

theorem sizeOf_lt_of_mem_parts {a x : Value} (ha : a ∈ x.parts) : sizeOf a < sizeOf x := by
  cases x with
  | list items | tuple items | set items | frozenSet items =>
      have hitem : sizeOf a < sizeOf items := List.sizeOf_lt_of_mem ha
      simp
      omega
  | map entries | frozenMap entries =>
      obtain ⟨entry, hentry, hside⟩ := List.mem_flatMap.mp ha
      have hsize : sizeOf entry < sizeOf entries := List.sizeOf_lt_of_mem hentry
      obtain ⟨k, v⟩ := entry
      simp at hside hsize
      rcases hside with rfl | rfl <;> simp <;> omega
  | _ => simp [parts] at ha

theorem mem_parts_of_entries {x k v : Value} {entries : Entries} (hx : x.entries? = some entries)
    (hentry : (k, v) ∈ entries) : k ∈ x.parts ∧ v ∈ x.parts := by
  have hboth : ∀ a, a = k ∨ a = v → a ∈ entries.flatMap fun entry => [entry.1, entry.2] := by
    intro a ha
    exact List.mem_flatMap.mpr ⟨(k, v), hentry, by simpa using ha⟩
  cases x with
  | map entries' | frozenMap entries' =>
      obtain rfl := Option.some.inj hx
      exact ⟨hboth k (.inl rfl), hboth v (.inr rfl)⟩
  | _ => cases hx

theorem mem_parts_of_elements {x a : Value} {items : List Value} (hx : x.elements? = some items)
    (ha : a ∈ items) : a ∈ x.parts := by
  cases x with
  | set items' | frozenSet items' =>
      obtain rfl := Option.some.inj hx
      exact ha
  | _ => cases hx

/-- Whether the first entry with the same key has a matching value. -/
def holdsEntry (ys : Entries) (entry : Value × Value) : Except Fault Bool := do
  match ← findFirst (fun other => entry.1.isMatch other.1) ys with
  | some (_, w) => entry.2.isMatch w
  | Option.none => pure false

def holdsElement (ys : List Value) (x : Value) : Except Fault Bool := do
  match ← findFirst (fun y => x.isMatch y) ys with
  | some _ => pure true
  | Option.none => pure false

theorem entriesWithin_eq (xs ys : Entries) : entriesWithin xs ys = checkAll (holdsEntry ys) xs := by
  induction xs with
  | nil => rfl
  | cons entry xs ih =>
      obtain ⟨k, v⟩ := entry
      rw [entriesWithin, checkAll, holdsEntry]
      unfold isMatch
      cases findFirst (fun other => matching false k other.1 (equalsIn false k other.1)) ys with
      | error f => rfl
      | ok found =>
          cases found with
          | none => rfl
          | some other =>
              simp only [bind, Except.bind]
              cases matching false v other.2 (equalsIn false v other.2) with
              | error f => rfl
              | ok passed => cases passed <;> simp [ih]

theorem elementsWithin_eq (xs ys : List Value) :
    elementsWithin xs ys = checkAll (holdsElement ys) xs := by
  induction xs with
  | nil => rfl
  | cons x xs ih =>
      rw [elementsWithin, checkAll, holdsElement]
      unfold isMatch
      cases findFirst (fun y => matching false x y (equalsIn false x y)) ys with
      | error f => rfl
      | ok found =>
          cases found with
          | none => rfl
          | some y => simp [bind, Except.bind, pure, Except.pure, ih]

/-! ## Turned operands -/

theorem isIdentical_comm (a b : Value) : a.isIdentical b = b.isIdentical a := by
  cases a with
  | scalar a =>
      cases b with
      | scalar b => exact Scalar.isIdentical_comm a b
      | _ => rfl
  | «foreign» s o =>
      cases b with
      | «foreign» t p => exact Origin.isSame_comm o p
      | _ => rfl
  | _ => cases b <;> rfl

/-- Operands match turned if they match when they are turned back. -/
theorem matching_turned {a b : Value} (hturned : equalsIn true a b = equalsIn false b a) :
    matching true a b (equalsIn true a b) = b.isMatch a := by
  rw [isMatch, matching, matching, hturned, isIdentical_comm a b]
  simp

theorem allEqual_turned {xs ys : List Value}
    (hturned : ∀ x ∈ xs, ∀ y ∈ ys, equalsIn true x y = equalsIn false y x) :
    allEqual true xs ys = allEqual false ys xs := by
  induction xs generalizing ys with
  | nil => cases ys <;> rfl
  | cons x xs ih =>
      cases ys with
      | nil => rfl
      | cons y ys =>
          have hfirst : equalsIn true x y = equalsIn false y x := hturned x (by simp) y (by simp)
          have hrest : allEqual true xs ys = allEqual false ys xs :=
            ih fun u hu w hw => hturned u (by simp [hu]) w (by simp [hw])
          rw [allEqual, allEqual, matching_turned hfirst, hrest]
          rfl

theorem hasEntry_eq {xs : Entries} {key value : Value}
    (hkeys : ∀ entry ∈ xs, equalsIn true entry.1 key = equalsIn false key entry.1)
    (hvalues : ∀ entry ∈ xs, equalsIn true entry.2 value = equalsIn false value entry.2) :
    hasEntry key value xs = holdsEntry xs (key, value) := by
  induction xs with
  | nil => rfl
  | cons entry xs ih =>
      obtain ⟨k, v⟩ := entry
      obtain ⟨hkey, hkeys⟩ := List.forall_mem_cons.mp hkeys
      obtain ⟨hvalue, hvalues⟩ := List.forall_mem_cons.mp hvalues
      rw [hasEntry, matching_turned hkey, matching_turned hvalue, ih hkeys hvalues, holdsEntry,
        holdsEntry, findFirst]
      cases key.isMatch k with
      | error f => rfl
      | ok found => cases found <;> rfl

theorem hasElement_eq {xs : List Value} {y : Value}
    (hturned : ∀ x ∈ xs, equalsIn true x y = equalsIn false y x) :
    hasElement y xs = holdsElement xs y := by
  induction xs with
  | nil => rfl
  | cons x xs ih =>
      obtain ⟨hfirst, hrest⟩ := List.forall_mem_cons.mp hturned
      rw [hasElement, matching_turned hfirst, ih hrest, holdsElement, holdsElement, findFirst]
      cases y.isMatch x with
      | error f => rfl
      | ok found => cases found <;> rfl

theorem checkAll_congr {α ε : Type} {test test' : α → Except ε Bool} {xs : List α}
    (hsame : ∀ x ∈ xs, test x = test' x) : checkAll test xs = checkAll test' xs := by
  induction xs with
  | nil => rfl
  | cons x xs ih =>
      obtain ⟨hx, hxs⟩ := List.forall_mem_cons.mp hsame
      rw [checkAll, checkAll, hx, ih hxs]

theorem equalsIn_of_entries {turned : Bool} {x y : Value} {xs ys : Entries}
    (hx : x.entries? = some xs) (hy : y.entries? = some ys) :
    equalsIn turned x y =
      if xs.length ≠ ys.length then .ok false
      else if goesFirst turned x y then entriesWithin xs ys
      else checkAll (fun entry => hasEntry entry.1 entry.2 xs) ys := by
  cases x with
  | map entries | frozenMap entries =>
      obtain rfl := Option.some.inj hx
      simp only [equalsIn, hy]
  | _ => cases hx

theorem equalsIn_of_elements {turned : Bool} {x y : Value} {xs ys : List Value}
    (hx : x.elements? = some xs) (hy : y.elements? = some ys) :
    equalsIn turned x y =
      if xs.length ≠ ys.length then .ok false
      else if turned then checkAll (fun y => hasElement y xs) ys
      else elementsWithin xs ys := by
  cases x with
  | set items | frozenSet items =>
      obtain rfl := Option.some.inj hx
      simp only [equalsIn, hy]
  | _ => cases hx

theorem checkAll_hasEntry {x y : Value} {xs ys : Entries} (hx : x.entries? = some xs)
    (hy : y.entries? = some ys)
    (hparts : ∀ a ∈ x.parts, ∀ b ∈ y.parts, equalsIn true a b = equalsIn false b a) :
    checkAll (fun entry => hasEntry entry.1 entry.2 xs) ys = checkAll (holdsEntry xs) ys := by
  apply checkAll_congr
  intro other hother
  obtain ⟨hl, hw⟩ := mem_parts_of_entries hy hother
  apply hasEntry_eq
  · intro entry hentry
    exact hparts _ (mem_parts_of_entries hx hentry).1 _ hl
  · intro entry hentry
    exact hparts _ (mem_parts_of_entries hx hentry).2 _ hw

theorem equalsIn_turned_of_entries {x y : Value} {xs ys : Entries} (hx : x.entries? = some xs)
    (hy : y.entries? = some ys)
    (hparts : ∀ a ∈ x.parts, ∀ b ∈ y.parts, equalsIn true a b = equalsIn false b a)
    (hback : ∀ b ∈ y.parts, ∀ a ∈ x.parts, equalsIn true b a = equalsIn false a b) :
    equalsIn true x y = equalsIn false y x := by
  have hlength : xs.length ≠ ys.length ↔ ys.length ≠ xs.length := ne_comm
  have hfirst : goesFirst true x y = x.isFrozenMap := rfl
  have hfirst' : goesFirst false y x = !x.isFrozenMap := rfl
  rw [equalsIn_of_entries hx hy, equalsIn_of_entries hy hx, hfirst, hfirst']
  cases x.isFrozenMap with
  | true =>
      have hentries := checkAll_hasEntry hy hx hback
      simp only [hlength, entriesWithin_eq, hentries, Bool.not_true, Bool.false_eq_true, if_true,
        if_false]
  | false =>
      have hentries := checkAll_hasEntry hx hy hparts
      simp only [hlength, entriesWithin_eq, hentries, Bool.not_false, Bool.false_eq_true, if_true,
        if_false]

theorem equalsIn_turned_of_elements {x y : Value} {xs ys : List Value} (hx : x.elements? = some xs)
    (hy : y.elements? = some ys)
    (hparts : ∀ a ∈ x.parts, ∀ b ∈ y.parts, equalsIn true a b = equalsIn false b a) :
    equalsIn true x y = equalsIn false y x := by
  have hlength : xs.length ≠ ys.length ↔ ys.length ≠ xs.length := ne_comm
  have helements : checkAll (fun b => hasElement b xs) ys = checkAll (holdsElement xs) ys :=
    checkAll_congr fun b hb => hasElement_eq fun a ha =>
      hparts a (mem_parts_of_elements hx ha) b (mem_parts_of_elements hy hb)
  rw [equalsIn_of_elements hx hy, equalsIn_of_elements hy hx]
  simp only [hlength, elementsWithin_eq, helements, Bool.false_eq_true, if_true, if_false]

/-- Turned operands are compared as they are when they are turned back. -/
theorem equalsIn_turned (a b : Value) : equalsIn true a b = equalsIn false b a := by
  have hparts : ∀ x ∈ a.parts, ∀ y ∈ b.parts, equalsIn true x y = equalsIn false y x :=
    fun x hx y hy => equalsIn_turned x y
  have hback : ∀ y ∈ b.parts, ∀ x ∈ a.parts, equalsIn true y x = equalsIn false x y :=
    fun y hy x hx => equalsIn_turned y x
  cases a with
  | scalar s => cases b <;> rfl
  | list xs =>
      cases b with
      | list ys =>
          have hlength : xs.length = ys.length ↔ ys.length = xs.length := eq_comm
          have hitems : allEqual true xs ys = allEqual false ys xs := allEqual_turned hparts
          simp only [equalsIn, hitems, hlength]
      | _ => rfl
  | tuple xs =>
      cases b with
      | tuple ys => exact allEqual_turned hparts
      | _ => rfl
  | map xs | frozenMap xs =>
      cases hb : b.entries? with
      | none => cases b <;> first | rfl | cases hb
      | some ys => exact equalsIn_turned_of_entries rfl hb hparts hback
  | set xs | frozenSet xs =>
      cases hb : b.elements? with
      | none => cases b <;> first | rfl | cases hb
      | some ys => exact equalsIn_turned_of_elements rfl hb hparts
  | bytes xs =>
      cases b with
      | bytes ys => exact congrArg Except.ok BEq.comm
      | _ => rfl
  | derived s =>
      cases b with
      | derived t => exact congrArg Except.ok BEq.comm
      | _ => rfl
  | «foreign» s o =>
      cases b with
      | «foreign» t p => exact congrArg Except.ok (Origin.isSame_comm o p)
      | _ => rfl
termination_by sizeOf a + sizeOf b
decreasing_by
  all_goals
    have ha := sizeOf_lt_of_mem_parts hx
    have hb := sizeOf_lt_of_mem_parts hy
    omega

end Value

end ModelPlaybook
