import Mathlib
import ModelPlaybook.Proofs.Value.MissingKeys
import ModelPlaybook.Script.Trial

/-!
# Augmented assignment

Augmented assignment gives and raises what the operator under it does, with one exception: a failed
look-up in the course of the operation passes for an operator that has no assigning form.
-/

namespace ModelPlaybook

namespace Script

variable {α β : Type}

/-! ## Computations step by step -/

namespace Run

theorem bind_of_ok {r : Run α} {f : α → Run β} {a : α} {m m' : Machine} (h : r m = .ok a m') :
    (r >>= f) m = f a m' := by
  simp only [bind, EStateM.bind, h]

theorem bind_of_error {r : Run α} {f : α → Run β} {stop : Stop} {m m' : Machine}
    (h : r m = .error stop m') : (r >>= f) m = .error stop m' := by
  simp only [bind, EStateM.bind, h]

theorem read_eq (a : Address) (m : Machine) :
    Run.read a m = .ok (m.cells[a]?.getD (.list [])) m := by
  cases h : m.cells[a]? <;>
    simp [Run.read, bind, EStateM.bind, get, getThe, MonadStateOf.get, EStateM.get, h] <;> rfl

/-- A computation that gives something and leaves everything as it is. -/
def Looks (r : Run α) : Prop :=
  ∀ m, ∃ a, r m = .ok a m

namespace Looks

theorem pure (a : α) : Looks (Pure.pure a) :=
  fun _ => ⟨a, rfl⟩

theorem bind {r : Run α} {f : α → Run β} (hr : Looks r) (hf : ∀ a, Looks (f a)) :
    Looks (r >>= f) := by
  intro m
  obtain ⟨a, ha⟩ := hr m
  rw [bind_of_ok ha]
  exact hf a m

theorem read (a : Address) : Looks (Run.read a) :=
  fun m => ⟨_, read_eq a m⟩

theorem anyM {p : α → Run Bool} (hp : ∀ a, Looks (p a)) (as : List α) : Looks (as.anyM p) := by
  induction as with
  | nil => exact pure false
  | cons a as ih =>
      refine (hp a).bind fun b => ?_
      cases b with
      | true => exact pure true
      | false => exact ih

end Looks

end Run

namespace Object

theorem looks_madeBy? (o : Object) : Run.Looks o.madeBy? := by
  unfold madeBy?
  split
  all_goals first
    | exact .pure _
    | skip
  refine (Run.Looks.read _).bind fun c => ?_
  split <;> exact .pure _

theorem looks_bases (kind : Object) : Run.Looks kind.bases := by
  unfold bases
  split
  · refine (Run.Looks.read _).bind fun c => ?_
    split <;> exact .pure _
  · exact .pure _

theorem looks_isKindWithin (ancestor : Object) (fuel : Nat) (o : Object) :
    Run.Looks (isKindWithin ancestor fuel o) := by
  induction fuel generalizing o with
  | zero => exact .pure false
  | succ fuel ih =>
      unfold isKindWithin
      split
      · exact .pure _
      · split
        · exact .pure true
        · exact (looks_bases o).bind fun bases => .anyM ih bases

theorem looks_isOf (o kind : Object) : Run.Looks (o.isOf kind) := by
  refine (looks_madeBy? o).bind fun maker => ?_
  cases maker with
  | none => exact .pure false
  | some k => exact looks_isKindWithin kind kindDepth k

/-- Whether an object is of a kind, in a state of the script. -/
def IsOf (o : Object) (kind : Kind) (m : Machine) : Prop :=
  o.isOf (.kind kind) m = .ok true m

theorem isOf_of_not_isOf {o : Object} {kind : Kind} {m : Machine} (h : ¬ o.IsOf kind m) :
    o.isOf (.kind kind) m = .ok false m := by
  obtain ⟨b, hb⟩ := looks_isOf o (.kind kind) m
  cases b with
  | true => exact absurd hb h
  | false => exact hb

end Object

namespace Run

/-- A computation ends with an error of a kind. -/
def Raises (r : Run α) (kind : Kind) (m : Machine) : Prop :=
  ∃ error m', r m = .error (.raised error) m' ∧ error.IsOf kind m'

variable {r other : Run α} {kind : Kind} {m m' : Machine}

theorem unlessRaised_of_error {error : Object} (h : r m = .error (.raised error) m') :
    r.unlessRaised kind other m =
      (error.isOf (.kind kind) >>= fun b => if b then other else throw (.raised error)) m' := by
  simp only [unlessRaised, tryCatch, tryCatchThe, MonadExceptOf.tryCatch, EStateM.tryCatch, h]
  rfl

theorem unlessRaised_of_raised {error : Object} (h : r m = .error (.raised error) m')
    (hkind : error.IsOf kind m') : r.unlessRaised kind other m = other m' := by
  rw [unlessRaised_of_error h, bind_of_ok hkind]
  rfl

theorem unlessRaised_of_not_raises (h : ¬ r.Raises kind m) :
    r.unlessRaised kind other m = r m := by
  cases hr : r m with
  | ok a m' =>
      simp only [unlessRaised, tryCatch, tryCatchThe, MonadExceptOf.tryCatch, EStateM.tryCatch, hr]
  | error stop m' =>
      cases stop with
      | exhausted =>
          simp only [unlessRaised, tryCatch, tryCatchThe, MonadExceptOf.tryCatch, EStateM.tryCatch,
            hr]
          rfl
      | raised error =>
          have hkind : ¬ error.IsOf kind m' := fun hkind => h ⟨error, m', hr, hkind⟩
          rw [unlessRaised_of_error hr, bind_of_ok (Object.isOf_of_not_isOf hkind)]
          rfl

end Run

/-! ## What is told of an error -/

theorem outcome_of_ok {r : Run α} {a : α} {m m' : Machine} (h : r m = .ok a m') :
    r.outcome m = .ok (.ok a) m' := by
  simp only [Run.outcome, tryCatch, tryCatchThe, MonadExceptOf.tryCatch, EStateM.tryCatch,
    Run.bind_of_ok h]
  rfl

theorem outcome_of_error {r : Run α} {error : Object} {m m' : Machine}
    (h : r m = .error (.raised error) m') : r.outcome m = .ok (.error error) m' := by
  simp only [Run.outcome, tryCatch, tryCatchThe, MonadExceptOf.tryCatch, EStateM.tryCatch,
    Run.bind_of_error h]
  rfl

/-- An ordinary error that ends a computation is told by its description. -/
theorem conclude_of_raised {r : Run α} {error : Object} {description : String}
    {m m' m'' : Machine} (h : r m = .error (.raised error) m')
    (hkind : error.IsOf (.error "Exception") m')
    (hdescribe : describe error m' = .ok description m'') :
    conclude r m = (.raised description, m'') := by
  unfold conclude
  dsimp only
  rw [Run.bind_of_ok (outcome_of_error h)]
  dsimp only
  rw [Run.bind_of_ok hkind]
  simp only [if_true]
  rw [Run.bind_of_ok hdescribe]
  rfl

/-- An error of a kind with a text, as the script has just made it. -/
def Machine.raising (m : Machine) (fault : Fault) : Machine :=
  let made : Cell := .error (.kind (.error fault.kind.name)) [.text fault.text] (some fault.text) []
  { m with cells := m.cells.push made }

theorem raiseFault_eq (fault : Fault) (m : Machine) :
    (Run.raiseFault fault : Run α) m =
      .error (.raised (.cell m.cells.size)) (m.raising fault) :=
  rfl

theorem read_raising (fault : Fault) (m : Machine) :
    Run.read m.cells.size (m.raising fault) =
      .ok (.error (.kind (.error fault.kind.name)) [.text fault.text] (some fault.text) [])
        (m.raising fault) := by
  rw [Run.read_eq]
  simp [Machine.raising]

theorem isOf_raising (fault : Fault) (kind : String) (m : Machine) :
    Object.isOf (.cell m.cells.size) (.kind (.error kind)) (m.raising fault) =
      .ok (Kind.isWithin (.error fault.kind.name) (.error kind)) (m.raising fault) := by
  have hmade : Object.madeBy? (.cell m.cells.size) (m.raising fault) =
      .ok (some (.kind (.error fault.kind.name))) (m.raising fault) :=
    Run.bind_of_ok (read_raising fault m)
  exact Run.bind_of_ok hmade

theorem describe_raising (fault : Fault) (htext : fault.text ≠ "") (m : Machine) :
    describe (.cell m.cells.size) (m.raising fault) =
      .ok (fault.kind.name ++ ": " ++ fault.text) (m.raising fault) := by
  have hname : Object.typeName (.cell m.cells.size) (m.raising fault) =
      .ok fault.kind.name (m.raising fault) :=
    Run.bind_of_ok (read_raising fault m)
  have htold : Object.plainText (.cell m.cells.size) (m.raising fault) =
      .ok fault.text (m.raising fault) :=
    Run.bind_of_ok (read_raising fault m)
  have hnoted : noted (.cell m.cells.size) (m.raising fault) =
      .ok fault.text (m.raising fault) :=
    Run.bind_of_ok (outcome_of_ok htold)
  unfold describe
  rw [Run.bind_of_ok hname, Run.bind_of_ok hnoted]
  simp only [htext, if_false]
  rfl

/-! ## The operator under an assignment -/

theorem assignWith_of_outside {op : BinaryOperator} (hop : op ∉ BinaryOperator.assignable)
    (ev : Evaluator) (target o : Object) :
    assignWith ev op target o = Run.raiseFault (unsupportedAssignment op.assigningSymbol) := by
  simp [assignWith, hop]

theorem assignWith_of_assignable {op : BinaryOperator} (hop : op ∈ BinaryOperator.assignable)
    (ev : Evaluator) (target o : Object) :
    assignWith ev op target o = (Object.combine ⟨op, true⟩ ev target o).unlessRaised
      (.error "KeyError") (Run.raiseFault (unsupportedAssignment op.assigningSymbol)) := by
  simp [assignWith, hop]

theorem looks_listItems? (o : Object) : Run.Looks o.listItems? := by
  unfold Object.listItems?
  split
  · refine (Run.Looks.read _).bind fun c => ?_
    split <;> exact .pure _
  · exact .pure _

/-- A list that something is added to by assignment takes over its items, and is then the result. -/
theorem combine_list_add {ev : Evaluator} {a : Address} {xs : List Object} {m : Machine}
    (hlist : m.cells[a]? = some (.list xs)) (o : Object) :
    Object.combine ⟨.add, true⟩ ev (.cell a) o m =
      (ev.extend a o >>= fun _ => Run.anew (.cell a)) m := by
  have hitems : Object.listItems? (.cell a) m = .ok (some xs) m := by
    refine (Run.bind_of_ok (Run.read_eq a m)).trans ?_
    rw [hlist]
    rfl
  obtain ⟨ys, hys⟩ := looks_listItems? o m
  have hcombined : Object.combined ⟨.add, true⟩ ev (.cell a) o m =
      (ev.extend a o >>= fun _ => pure (.cell a)) m := by
    unfold Object.combined
    dsimp only
    rw [Run.bind_of_ok hitems, Run.bind_of_ok hys]
    rfl
  simp only [Object.combine, bind, EStateM.bind] at hcombined ⊢
  rw [hcombined]
  cases ev.extend a o m <;> rfl

/-! ## Transparency -/

/-- How the assigning form of an operator on values relates to the operator. -/
structure TransparentOnValues (symbol : String) (target v : Value) : Prop where
  /-- A symbol outside the table is not supported. -/
  outside : BinaryOperator.ofAssigningSymbol? symbol = none →
    assignBySymbol symbol target v = .error (unsupportedAssignment symbol)
  /-- A symbol of the table gives and raises what its operator does, exactly if that misses no
  key. -/
  faithful : ∀ op, BinaryOperator.ofAssigningSymbol? symbol = some op →
    (assignBySymbol symbol target v = (Application.mk op true).apply target v ↔
      MissesNoKey ((Application.mk op true).apply target v))
  /-- A missing key, which only the directives of a filled text can name, passes for a symbol
  outside the table. -/
  mistaken : ∀ op fault, BinaryOperator.ofAssigningSymbol? symbol = some op →
    (Application.mk op true).apply target v = .error fault → fault.kind = .key →
      (Application.mk op true).LacksItem target v fault ∧
        assignBySymbol symbol target v = .error (unsupportedAssignment symbol)

theorem transparentOnValues (symbol : String) (target v : Value) :
    TransparentOnValues symbol target v where
  outside hsymbol := by
    simp [assignBySymbol, hsymbol]
  faithful op hsymbol := by
    simp only [assignBySymbol, hsymbol]
    cases happly : (Application.mk op true).apply target v with
    | ok r => simpa using MissesNoKey.ok r
    | error fault =>
        by_cases hkey : fault.kind = .key
        · have hother : unsupportedAssignment symbol ≠ fault := by
            rintro rfl
            cases hkey
          have hmisses : ¬ MissesNoKey (.error fault : Except Fault Value) :=
            fun h => h fault rfl hkey
          simp [hkey, hother, hmisses]
        · simpa [hkey] using MissesNoKey.error hkey
  mistaken op fault hsymbol happly hkey := by
    refine ⟨Application.missesItem_apply ⟨op, true⟩ target v fault happly hkey, ?_⟩
    simp [assignBySymbol, hsymbol, happly, hkey]

/-- How the assigning form of an operator on objects relates to the operator. -/
structure TransparentOnObjects (ev : Evaluator) (op : BinaryOperator) (target o : Object)
    (m : Machine) : Prop where
  outside : op ∉ BinaryOperator.assignable →
    assignWith ev op target o m =
      Run.raiseFault (unsupportedAssignment op.assigningSymbol) m
  /-- An operator of the table gives, changes and raises what it does by itself, exactly if it
  raises no error of a failed look-up. -/
  faithful : op ∈ BinaryOperator.assignable →
    (assignWith ev op target o m = Object.combine ⟨op, true⟩ ev target o m ↔
      ¬ (Object.combine ⟨op, true⟩ ev target o).Raises (.error "KeyError") m)
  mistaken : op ∈ BinaryOperator.assignable → ∀ error m',
    Object.combine ⟨op, true⟩ ev target o m = .error (.raised error) m' →
      error.IsOf (.error "KeyError") m' →
        assignWith ev op target o m =
          Run.raiseFault (unsupportedAssignment op.assigningSymbol) m'
  /-- Whatever was to follow, an error that the operator raises is the one that is told. -/
  told : op ∈ BinaryOperator.assignable → ∀ {γ : Type} (next : Object → Run γ) error m',
    Object.combine ⟨op, true⟩ ev target o m = .error (.raised error) m' →
      ¬ error.IsOf (.error "KeyError") m' → error.IsOf (.error "Exception") m' →
        ∀ description m'', describe error m' = .ok description m'' →
          conclude (assignWith ev op target o >>= next) m = (.raised description, m'')
  /-- A failed look-up is told as an operator that is not supported. -/
  mistold : op ∈ BinaryOperator.assignable → ∀ {γ : Type} (next : Object → Run γ) error m',
    Object.combine ⟨op, true⟩ ev target o m = .error (.raised error) m' →
      error.IsOf (.error "KeyError") m' →
        (conclude (assignWith ev op target o >>= next) m).1 =
          .raised ("NotImplementedError: Augmented assignment " ++ op.assigningSymbol ++
            " is not supported")
  /-- An error that comes up while a list takes over the items of an iterator is one that the
  operator raises. -/
  consuming : op = .add → ∀ a xs error m', target = .cell a → m.cells[a]? = some (.list xs) →
    ev.extend a o m = .error (.raised error) m' →
      Object.combine ⟨op, true⟩ ev target o m = .error (.raised error) m'

theorem raising_ne (fault : Fault) (m : Machine) : m.raising fault ≠ m := by
  intro h
  have hsize : (m.raising fault).cells.size = m.cells.size := congrArg (·.cells.size) h
  simp [Machine.raising] at hsize

theorem conclude_raiseFault {r : Run α} {symbol : String} {m m' : Machine}
    (h : r m = Run.raiseFault (unsupportedAssignment symbol) m') :
    (conclude r m).1 =
      .raised ("NotImplementedError: Augmented assignment " ++ symbol ++ " is not supported") := by
  rw [raiseFault_eq] at h
  have hkind : Object.IsOf (.cell m'.cells.size) (.error "Exception")
      (m'.raising (unsupportedAssignment symbol)) :=
    isOf_raising (unsupportedAssignment symbol) "Exception" m'
  have htext : (unsupportedAssignment symbol).text ≠ "" := by
    simp [unsupportedAssignment]
  have hwords : "NotImplementedError" ++ ": " ++ "Augmented assignment " =
      "NotImplementedError: Augmented assignment " := by
    decide
  rw [conclude_of_raised h hkind (describe_raising _ htext m')]
  simp only [unsupportedAssignment, FaultKind.name, ← hwords, String.append_assoc]

theorem transparentOnObjects (ev : Evaluator) (op : BinaryOperator) (target o : Object)
    (m : Machine) : TransparentOnObjects ev op target o m where
  outside hop := by
    rw [assignWith_of_outside hop]
  faithful hop := by
    rw [assignWith_of_assignable hop]
    refine ⟨?_, Run.unlessRaised_of_not_raises⟩
    rintro heq ⟨error, m', herror, hkey⟩
    rw [Run.unlessRaised_of_raised herror hkey, herror, raiseFault_eq] at heq
    have hstate : m'.raising (unsupportedAssignment op.assigningSymbol) = m' := by
      injection heq
    exact raising_ne _ _ hstate
  mistaken hop error m' herror hkey := by
    rw [assignWith_of_assignable hop, Run.unlessRaised_of_raised herror hkey]
  told hop γ next error m' herror hkey hexception description m'' hdescribe := by
    have hraises : ¬ (Object.combine ⟨op, true⟩ ev target o).Raises (.error "KeyError") m := by
      rintro ⟨error', m₁, herror', hkey'⟩
      rw [herror] at herror'
      cases herror'
      exact hkey hkey'
    have hassign : assignWith ev op target o m = .error (.raised error) m' := by
      rw [assignWith_of_assignable hop, Run.unlessRaised_of_not_raises hraises, herror]
    exact conclude_of_raised (Run.bind_of_error hassign) hexception hdescribe
  mistold hop γ next error m' herror hkey := by
    have hassign : assignWith ev op target o m =
        .error (.raised (.cell m'.cells.size))
          (m'.raising (unsupportedAssignment op.assigningSymbol)) := by
      rw [assignWith_of_assignable hop, Run.unlessRaised_of_raised herror hkey, raiseFault_eq]
    exact conclude_raiseFault (Run.bind_of_error hassign)
  consuming hop a xs error m' htarget hlist hextend := by
    subst hop
    subst htarget
    rw [combine_list_add hlist, Run.bind_of_error hextend]

/-- Augmented assignment is transparent, on values and on objects of a script, unless a look-up in
the course of the operation fails. -/
theorem assignment_transparent_unless_key_missing (symbol : String) (u v : Value) (ev : Evaluator)
    (op : BinaryOperator) (target o : Object) (m : Machine) :
    TransparentOnValues symbol u v ∧ TransparentOnObjects ev op target o m :=
  ⟨transparentOnValues symbol u v, transparentOnObjects ev op target o m⟩

/-- A state in which an empty mapping is the only object. -/
def emptyMapping : Machine where
  cells := #[.dict []]
  log := []
  registered := []
  handled := []
  next := 0

/-- A text is filled whose directive names a missing key.  The operator raises a failed look-up,
for which the assignment puts that it is not supported. -/
theorem missing_key_mistaken :
    (Application.mk .mod true).apply (.text "%(a)s") (.map []) = .error ⟨.key, "'a'"⟩ ∧
      assignBySymbol "%=" (.text "%(a)s") (.map []) =
        .error ⟨.notImplemented, "Augmented assignment %= is not supported"⟩ ∧
      (Object.combine ⟨.mod, true⟩ .exhausted (.text "%(a)s") (.cell 0)).Raises
        (.error "KeyError") emptyMapping ∧
      (conclude (assignWith .exhausted .mod (.text "%(a)s") (.cell 0)) emptyMapping).1 =
        .raised "NotImplementedError: Augmented assignment %= is not supported" := by
  have hraises : (Object.combine ⟨.mod, true⟩ .exhausted (.text "%(a)s") (.cell 0)).Raises
      (.error "KeyError") emptyMapping := by
    let raised : Cell := .error (.kind (.error "KeyError")) [.text "a"] none []
    refine ⟨.cell 1, { emptyMapping with cells := #[.dict [], raised], next := 1 }, ?_, ?_⟩
    · cbv
    · cbv
  refine ⟨?_, ?_, hraises, ?_⟩
  · exact fault?_eq_some_iff.mp (by decide +kernel)
  · exact fault?_eq_some_iff.mp (by decide +kernel)
  · cbv

end Script

end ModelPlaybook
