import ModelPlaybook.Proofs.Sandbox.Protocol

/-!
# The first offence

Something has a plain form just if all that it holds is a scalar, a sequence, or a mapping with text
keys, of which nothing breaks off.  Otherwise the error is about the first offence in depth-first
order, where the key of an entry comes between the value of the entry before and its own, and a
break comes behind all that was given before it.  The message on a key or a value starts with the
path there, while a break passes as it is.  So nothing but scalars, lists and mappings with text
keys leaves a sandbox.
-/

namespace ModelPlaybook

namespace Cargo

/-! ## What is held -/

/-- Something holds itself, and what its items and the values of its entries hold. -/
inductive Holds : Cargo → Cargo → Prop where
  | self (c : Cargo) : Holds c c
  | item {typeName : String} {items : List Cargo} {break? : Option Fault} {x u : Cargo}
      (hx : x ∈ items) (hu : Holds x u) : Holds (.sequence typeName items break?) u
  | entry {typeName : String} {entries : List (Value × Cargo)} {break? : Option Fault}
      {entry : Value × Cargo} {u : Cargo} (hentry : entry ∈ entries) (hu : Holds entry.2 u) :
      Holds (.mapping typeName entries break?) u

/-- A scalar, a sequence, or a mapping with text keys, which do not break off. -/
inductive IsAllowed : Cargo → Prop where
  | scalar (s : Scalar) : IsAllowed (.scalar s)
  | sequence (typeName : String) (items : List Cargo) : IsAllowed (.sequence typeName items none)
  | mapping (typeName : String) {entries : List (Value × Cargo)}
      (hkeys : ∀ entry ∈ entries, ∃ name, entry.1 = .text name) :
      IsAllowed (.mapping typeName entries none)

variable {c u : Cargo}

theorem sizeOf_lt_of_item {typeName : String} {items : List Cargo} {break? : Option Fault}
    {x : Cargo} (hx : x ∈ items) : sizeOf x < sizeOf (sequence typeName items break?) := by
  have hitem : sizeOf x < sizeOf items := List.sizeOf_lt_of_mem hx
  simp
  omega

theorem sizeOf_lt_of_entry {typeName : String} {entries : List (Value × Cargo)}
    {break? : Option Fault} {entry : Value × Cargo} (hentry : entry ∈ entries) :
    sizeOf entry.2 < sizeOf (mapping typeName entries break?) := by
  have hsize : sizeOf entry < sizeOf entries := List.sizeOf_lt_of_mem hentry
  obtain ⟨k, x⟩ := entry
  simp at hsize ⊢
  omega

theorem IsPlain.isAllowed (hc : c.IsPlain) : c.IsAllowed := by
  cases hc with
  | scalar s => exact .scalar s
  | sequence typeName hitems => exact .sequence typeName _
  | mapping typeName hkeys hvalues => exact .mapping typeName hkeys

theorem IsPlain.of_holds (hc : c.IsPlain) (hu : c.Holds u) : u.IsPlain := by
  induction hu with
  | self c => exact hc
  | item hx hu ih =>
      cases hc with
      | sequence typeName hitems => exact ih (hitems _ hx)
  | entry hentry hu ih =>
      cases hc with
      | mapping typeName hkeys hvalues => exact ih (hvalues _ hentry)

theorem isPlain_of_forall_holds {c : Cargo} (hc : ∀ u, c.Holds u → u.IsAllowed) : c.IsPlain := by
  cases hc c (.self c) with
  | scalar s => exact .scalar s
  | sequence typeName items =>
      refine .sequence typeName fun x hx => ?_
      have hsize : sizeOf x < sizeOf (sequence typeName items none) := sizeOf_lt_of_item hx
      exact isPlain_of_forall_holds fun u hu => hc u (.item hx hu)
  | @mapping typeName entries hkeys =>
      refine .mapping typeName hkeys fun entry hentry => ?_
      have hsize : sizeOf entry.2 < sizeOf (mapping typeName entries none) :=
        sizeOf_lt_of_entry hentry
      exact isPlain_of_forall_holds fun u hu => hc u (.entry hentry hu)
termination_by sizeOf c

theorem isPlain_iff_holds : c.IsPlain ↔ ∀ u, c.Holds u → u.IsAllowed :=
  ⟨fun hc _ hu => (hc.of_holds hu).isAllowed, isPlain_of_forall_holds⟩

theorem exists_toPlain_iff {path : String} :
    (∃ w, c.toPlain path = .ok w) ↔ ∀ u, c.Holds u → u.IsAllowed := by
  rw [← isPlain_iff_holds]
  constructor
  · rintro ⟨w, hw⟩
    exact (isPlain_of_toPlain hw).1
  · exact fun hc => hc.exists_toPlain path

/-! ## What a plain form keeps -/

/-- A plain form has the same scalars, items and entries, in lists and mappings. -/
inductive Mirrors : Cargo → Value → Prop where
  | scalar (s : Scalar) : Mirrors (.scalar s) (.scalar s)
  | list {typeName : String} {items : List Cargo} {ys : List Value}
      (hys : List.Forall₂ Mirrors items ys) : Mirrors (.sequence typeName items none) (.list ys)
  | map {typeName : String} {entries : List (Value × Cargo)} {plains : Entries}
      (hkeys : entries.map Prod.fst = plains.map Prod.fst)
      (hvalues : List.Forall₂ Mirrors (entries.map Prod.snd) (plains.map Prod.snd)) :
      Mirrors (.mapping typeName entries none) (.map plains)

theorem ascends_mirrors : Ascends Mirrors where
  scalar s := .scalar s
  sequence hys := .list hys
  mapping _ hkeys hvalues := .map hkeys hvalues

/-! ## Places -/

/-- A step from a mapping to a value, or from a sequence to an item. -/
inductive Step where
  | key (name : String)
  | index (i : Nat)

/-- The path after a step: a dot before a key, brackets around an index. -/
def Step.extend (path : String) : Step → String
  | key name => entryPath path name
  | index i => itemPath path i

def spell (path : String) (steps : List Step) : String :=
  steps.foldl Step.extend path

theorem spell_snoc (path : String) (steps : List Step) (step : Step) :
    spell path (steps ++ [step]) = step.extend (spell path steps) := by
  simp [spell]

/-- Steps lead to something that is held. -/
inductive Leads : Cargo → List Step → Cargo → Prop where
  | stop (c : Cargo) : Leads c [] c
  | index {typeName : String} {items : List Cargo} {break? : Option Fault} {x u : Cargo} {i : Nat}
      {steps : List Step} (hx : items[i]? = some x) (hu : Leads x steps u) :
      Leads (.sequence typeName items break?) (.index i :: steps) u
  | key {typeName : String} {entries : List (Value × Cargo)} {break? : Option Fault} {x u : Cargo}
      {name : String} {steps : List Step} (hx : (.text name, x) ∈ entries) (hu : Leads x steps u) :
      Leads (.mapping typeName entries break?) (.key name :: steps) u

theorem Leads.holds {steps : List Step} (hleads : c.Leads steps u) : c.Holds u := by
  induction hleads with
  | stop c => exact .self c
  | index hx hu ih => exact .item (List.mem_of_getElem? hx) ih
  | key hx hu ih => exact .entry hx ih

/-- What a traversal looks at: something itself, a key of it, or whether it breaks off. -/
inductive Look where
  | subject
  | key (k : Value)
  | ending

/-- A look at something to which some steps lead. -/
structure Visit where
  steps : List Step
  subject : Cargo
  look : Look

/-- The looks that there are at something. -/
inductive Offers : Cargo → Look → Prop where
  | subject (c : Cargo) : Offers c .subject
  | key {typeName : String} {entries : List (Value × Cargo)} {break? : Option Fault}
      {entry : Value × Cargo} (hentry : entry ∈ entries) :
      Offers (.mapping typeName entries break?) (.key entry.1)
  | items (typeName : String) (items : List Cargo) (break? : Option Fault) :
      Offers (.sequence typeName items break?) .ending
  | entries (typeName : String) (entries : List (Value × Cargo)) (break? : Option Fault) :
      Offers (.mapping typeName entries break?) .ending

mutual

/-- What the traversal of something looks at, in order, where some steps lead there. -/
def visits (steps : List Step) : Cargo → List Visit
  | .scalar s => [⟨steps, .scalar s, .subject⟩]
  | .sequence typeName items break? =>
    ⟨steps, .sequence typeName items break?, .subject⟩ ::
      (itemVisits steps 0 items ++ [⟨steps, .sequence typeName items break?, .ending⟩])
  | .mapping typeName entries break? =>
    ⟨steps, .mapping typeName entries break?, .subject⟩ ::
      (entryVisits steps (.mapping typeName entries break?) entries ++
        [⟨steps, .mapping typeName entries break?, .ending⟩])
  | .other typeName => [⟨steps, .other typeName, .subject⟩]
termination_by structural c => c

def itemVisits (steps : List Step) (i : Nat) : List Cargo → List Visit
  | [] => []
  | x :: xs => visits (steps ++ [.index i]) x ++ itemVisits steps (i + 1) xs
termination_by structural xs => xs

/-- The visits of entries that are left of a mapping; what has no text key has no path. -/
def entryVisits (steps : List Step) (mapping : Cargo) : List (Value × Cargo) → List Visit
  | [] => []
  | (k, x) :: rest =>
    ⟨steps, mapping, .key k⟩ ::
      (match k.text? with
        | some name => visits (steps ++ [.key name]) x
        | none => []) ++ entryVisits steps mapping rest
termination_by structural xs => xs

end

/-- The fault with which something breaks off. -/
def break? : Cargo → Option Fault
  | .sequence _ _ break? => break?
  | .mapping _ _ break? => break?
  | _ => none

/-- What is wrong where a traversal looks. -/
def Visit.fault? (path : String) (visit : Visit) : Option PlainFault :=
  match visit.look, visit.subject with
  | .subject, .other typeName => some (.type (spell path visit.steps) typeName)
  | .subject, _ => none
  | .key k, _ => if k.text?.isSome then none else some (.key (spell path visit.steps) k.typeName)
  | .ending, c => c.break?.map .broken

/-! ## The fault of a traversal -/

theorem fault?_whole {α : Type} {parts : Except PlainFault α} {f : α → Value}
    {break? : Option Fault} :
    ModelPlaybook.fault? (do
      let plains ← parts
      ensureWhole break?
      pure (f plains)) = (ModelPlaybook.fault? parts).or (break?.map .broken) := by
  cases parts with
  | error fault => rfl
  | ok plains => cases break? <;> rfl

-- The steps before a part lead into it, so they are arbitrary in the induction.
mutual

theorem fault?_toPlain (path : String) (steps : List Step) (c : Cargo) :
    ModelPlaybook.fault? (c.toPlain (spell path steps)) =
      (c.visits steps).findSome? (·.fault? path) := by
  match c with
  | .scalar s => rfl
  | .sequence typeName items break? =>
      rw [toPlain, fault?_whole, fault?_plainItems, visits, List.findSome?_cons,
        List.findSome?_append]
      cases break? <;> rfl
  | .mapping typeName entries break? =>
      rw [toPlain, fault?_whole, fault?_plainEntries path steps (.mapping typeName entries break?),
        visits, List.findSome?_cons, List.findSome?_append]
      cases break? <;> rfl
  | .other typeName => rfl
termination_by structural c

theorem fault?_plainItems (path : String) (steps : List Step) (i : Nat) (items : List Cargo) :
    ModelPlaybook.fault? (plainItems (spell path steps) i items) =
      (itemVisits steps i items).findSome? (·.fault? path) := by
  match items with
  | [] => rfl
  | x :: xs =>
      have hpath : itemPath (spell path steps) i = spell path (steps ++ [.index i]) :=
        (spell_snoc path steps (.index i)).symm
      rw [plainItems, fault?_both, hpath, fault?_toPlain, fault?_plainItems, itemVisits,
        List.findSome?_append]
termination_by structural items

theorem fault?_plainEntries (path : String) (steps : List Step) (mapping : Cargo)
    (entries : List (Value × Cargo)) :
    ModelPlaybook.fault? (plainEntries (spell path steps) entries) =
      (entryVisits steps mapping entries).findSome? (·.fault? path) := by
  match entries with
  | [] => rfl
  | (k, x) :: rest =>
      have hrest := fault?_plainEntries path steps mapping rest
      rw [plainEntries, entryVisits]
      cases hname : k.text? with
      | some name =>
          have hpath : entryPath (spell path steps) name = spell path (steps ++ [.key name]) :=
            (spell_snoc path steps (.key name)).symm
          have hkey : (⟨steps, mapping, .key k⟩ : Visit).fault? path = none := by
            simp [Visit.fault?, hname]
          simp only [fault?_both, hpath, fault?_toPlain, hrest, List.cons_append,
            List.findSome?_cons, hkey, List.findSome?_append]
      | none =>
          have hkey : (⟨steps, mapping, .key k⟩ : Visit).fault? path =
              some (.key (spell path steps) k.typeName) := by
            simp [Visit.fault?, hname]
          simp only [ModelPlaybook.fault?, List.cons_append, List.findSome?_cons, hkey]
termination_by structural entries

end

/-! ## The whole traversal -/

theorem mem_itemVisits {visit : Visit} {prior : List Step} {first : Nat} {items : List Cargo} :
    visit ∈ itemVisits prior first items ↔
      ∃ i, ∃ x : Cargo, items[i]? = some x ∧ visit ∈ x.visits (prior ++ [.index (first + i)]) := by
  induction items generalizing first with
  | nil => simp [itemVisits]
  | cons x xs ih =>
      rw [itemVisits, List.mem_append, ih]
      constructor
      · rintro (hfirst | ⟨i, y, hy, hlater⟩)
        · exact ⟨0, x, rfl, hfirst⟩
        · refine ⟨i + 1, y, hy, ?_⟩
          rwa [Nat.add_right_comm] at hlater
      · rintro ⟨i, y, hy, hvisit⟩
        cases i with
        | zero =>
            obtain rfl := Option.some.inj hy
            exact .inl hvisit
        | succ i =>
            refine .inr ⟨i, y, hy, ?_⟩
            rwa [Nat.add_right_comm]

theorem mem_entryVisits {visit : Visit} {prior : List Step} {mapping : Cargo}
    {entries : List (Value × Cargo)} :
    visit ∈ entryVisits prior mapping entries ↔ ∃ entry ∈ entries,
      visit = ⟨prior, mapping, .key entry.1⟩ ∨
        ∃ name, entry.1 = .text name ∧ visit ∈ entry.2.visits (prior ++ [.key name]) := by
  induction entries with
  | nil => simp [entryVisits]
  | cons entry rest ih =>
      obtain ⟨k, x⟩ := entry
      rw [entryVisits, List.mem_append, ih, List.exists_mem_cons_iff, List.mem_cons]
      apply or_congr_left
      apply or_congr_right
      cases hname : k.text? with
      | none =>
          have hkey : ∀ name, k ≠ .text name := by
            rintro name rfl
            cases hname
          simp [hkey]
      | some name =>
          obtain rfl := Value.eq_text_of_text? hname
          simp

theorem leads_of_mem_visits {c : Cargo} {visit : Visit} {prior : List Step}
    (hvisit : visit ∈ c.visits prior) :
    ∃ later, visit.steps = prior ++ later ∧ c.Leads later visit.subject ∧
      visit.subject.Offers visit.look := by
  cases c with
  | scalar s | other typeName =>
      obtain rfl := List.mem_singleton.mp hvisit
      exact ⟨[], (List.append_nil prior).symm, .stop _, .subject _⟩
  | sequence typeName items break? =>
      rw [visits, List.mem_cons, List.mem_append, List.mem_singleton] at hvisit
      rcases hvisit with rfl | hvisit | rfl
      · exact ⟨[], (List.append_nil prior).symm, .stop _, .subject _⟩
      · obtain ⟨i, x, hx, hvisit⟩ := mem_itemVisits.mp hvisit
        have hsize : sizeOf x < sizeOf (sequence typeName items break?) :=
          sizeOf_lt_of_item (List.mem_of_getElem? hx)
        obtain ⟨later, hsteps, hleads, hoffers⟩ := leads_of_mem_visits hvisit
        rw [Nat.zero_add, List.append_assoc] at hsteps
        exact ⟨_, hsteps, .index hx hleads, hoffers⟩
      · exact ⟨[], (List.append_nil prior).symm, .stop _, .items _ _ _⟩
  | mapping typeName entries break? =>
      rw [visits, List.mem_cons, List.mem_append, List.mem_singleton] at hvisit
      rcases hvisit with rfl | hvisit | rfl
      · exact ⟨[], (List.append_nil prior).symm, .stop _, .subject _⟩
      · obtain ⟨entry, hentry, rfl | ⟨name, hname, hvisit⟩⟩ := mem_entryVisits.mp hvisit
        · exact ⟨[], (List.append_nil prior).symm, .stop _, .key hentry⟩
        · have hsize : sizeOf entry.2 < sizeOf (mapping typeName entries break?) :=
            sizeOf_lt_of_entry hentry
          obtain ⟨later, hsteps, hleads, hoffers⟩ := leads_of_mem_visits hvisit
          rw [List.append_assoc] at hsteps
          have hx : (.text name, entry.2) ∈ entries := hname ▸ hentry
          exact ⟨_, hsteps, .key hx hleads, hoffers⟩
      · exact ⟨[], (List.append_nil prior).symm, .stop _, .entries _ _ _⟩
termination_by sizeOf c

theorem Offers.mem_visits {look : Look} (hoffers : c.Offers look) (prior : List Step) :
    ⟨prior, c, look⟩ ∈ c.visits prior := by
  cases hoffers with
  | subject c => cases c <;> simp [visits]
  | @key typeName entries break? entry hentry =>
      rw [visits, List.mem_cons, List.mem_append]
      exact .inr (.inl (mem_entryVisits.mpr ⟨entry, hentry, .inl rfl⟩))
  | items typeName items break? => simp [visits]
  | entries typeName entries break? => simp [visits]

theorem Leads.mem_visits {later : List Step} {look : Look} (hleads : c.Leads later u)
    (hoffers : u.Offers look) (prior : List Step) :
    ⟨prior ++ later, u, look⟩ ∈ c.visits prior := by
  induction hleads generalizing prior with
  | stop c =>
      rw [List.append_nil]
      exact hoffers.mem_visits prior
  | @index typeName items break? x u i steps hx hu ih =>
      have hlater := ih hoffers (prior ++ [.index (0 + i)])
      rw [List.append_assoc, Nat.zero_add] at hlater
      rw [visits, List.mem_cons, List.mem_append]
      refine .inr (.inl (mem_itemVisits.mpr ⟨i, x, hx, ?_⟩))
      rw [Nat.zero_add]
      exact hlater
  | @key typeName entries break? x u name steps hx hu ih =>
      have hlater := ih hoffers (prior ++ [.key name])
      rw [List.append_assoc] at hlater
      rw [visits, List.mem_cons, List.mem_append]
      exact .inr (.inl (mem_entryVisits.mpr ⟨_, hx, .inr ⟨name, rfl, hlater⟩⟩))

/-- A traversal comes to all that steps lead to, with all the looks that there are at it, and to
nothing else. -/
theorem mem_visits_iff {visit : Visit} :
    visit ∈ c.visits [] ↔ c.Leads visit.steps visit.subject ∧ visit.subject.Offers visit.look := by
  constructor
  · intro hvisit
    obtain ⟨later, hsteps, hleads, hoffers⟩ := leads_of_mem_visits hvisit
    rw [hsteps]
    exact ⟨hleads, hoffers⟩
  · rintro ⟨hleads, hoffers⟩
    exact hleads.mem_visits hoffers []

/-! ## The first fault -/

/-- How a fault comes out: an error about the path of what was looked at, or a break as it is. -/
inductive Visit.Raises (path : String) (visit : Visit) (fault : Fault) : Prop where
  | atPath (rest : String) (hlook : visit.look ≠ .ending)
      (hfault : fault = .ofType (spell path visit.steps ++ rest))
  | broken (hlook : visit.look = .ending) (hbreak : visit.subject.break? = some fault)

theorem Visit.raises_of_fault? {path : String} {visit : Visit} {fault : PlainFault}
    (hfault : visit.fault? path = some fault) : visit.Raises path fault.fault := by
  obtain ⟨steps, subject, look⟩ := visit
  cases look with
  | subject =>
      cases subject with
      | other typeName =>
          obtain rfl := Option.some.inj hfault
          refine .atPath (" has unsupported type " ++ typeName) (by rintro ⟨⟩) ?_
          simp only [PlainFault.fault, String.append_assoc]
      | _ => cases hfault
  | key k =>
      simp only [Visit.fault?] at hfault
      split at hfault
      next => cases hfault
      next =>
        obtain rfl := Option.some.inj hfault
        refine .atPath (" has a non-string key of type " ++ k.typeName) (by rintro ⟨⟩) ?_
        simp only [PlainFault.fault, String.append_assoc]
  | ending =>
      obtain ⟨f, hf, rfl⟩ := Option.map_eq_some_iff.mp hfault
      exact .broken rfl hf

/-- A fault is about the first place of a traversal where something is wrong. -/
def FirstFault (c : Cargo) (path : String) (fault : PlainFault) : Prop :=
  ∃ front visit back, c.visits [] = front ++ visit :: back ∧
    (∀ earlier ∈ front, earlier.fault? path = none) ∧ visit.fault? path = some fault ∧
      visit.Raises path fault.fault

theorem toPlain_eq_error_iff {path : String} {fault : PlainFault} :
    c.toPlain path = .error fault ↔ c.FirstFault path fault := by
  have hfirst := fault?_toPlain path [] c
  have hpath : spell path [] = path := rfl
  rw [hpath] at hfirst
  rw [← fault?_eq_some_iff, hfirst, List.findSome?_eq_some_iff]
  constructor
  · rintro ⟨front, visit, back, hvisits, hfault, hfront⟩
    exact ⟨front, visit, back, hvisits, hfront, hfault, Visit.raises_of_fault? hfault⟩
  · rintro ⟨front, visit, back, hvisits, hfront, hfault, -⟩
    exact ⟨front, visit, back, hvisits, hfault, hfront⟩

/-! ## Values do not break off -/

theorem break?_of_holds_ofValue {v : Value} {u : Cargo} (hu : (ofValue v).Holds u) :
    u.break? = none := by
  generalize hc : ofValue v = c at hu
  induction hu generalizing v with
  | self c =>
      subst hc
      cases v <;> rfl
  | item hx hu ih =>
      cases v with
      | list xs | tuple xs =>
          obtain ⟨-, rfl, -⟩ := Cargo.sequence.inj hc
          rw [ofItems_eq_map] at hx
          obtain ⟨x, -, rfl⟩ := List.mem_map.mp hx
          exact ih rfl
      | _ => cases hc
  | entry hentry hu ih =>
      cases v with
      | map xs | frozenMap xs =>
          obtain ⟨-, rfl, -⟩ := Cargo.mapping.inj hc
          rw [ofEntries_eq_map] at hentry
          obtain ⟨entry, -, rfl⟩ := List.mem_map.mp hentry
          exact ih rfl
      | _ => cases hc

theorem ofType_of_toPlain_ofValue {v : Value} {path : String} {fault : PlainFault}
    (hfault : (ofValue v).toPlain path = .error fault) :
    ∃ steps u rest, (ofValue v).Leads steps u ∧
      fault.fault = .ofType (spell path steps ++ rest) := by
  obtain ⟨front, visit, back, hvisits, -, -, hraises⟩ := toPlain_eq_error_iff.mp hfault
  have hvisit : visit ∈ (ofValue v).visits [] := hvisits ▸ List.mem_append_cons_self
  obtain ⟨hleads, -⟩ := mem_visits_iff.mp hvisit
  cases hraises with
  | atPath rest hlook hfault => exact ⟨visit.steps, visit.subject, rest, hleads, hfault⟩
  | broken hlook hbreak =>
      rw [break?_of_holds_ofValue hleads.holds] at hbreak
      cases hbreak

/-! ## What leaves a sandbox -/

/-- Something has a plain form at a path just if it holds scalars, sequences and mappings with text
keys only, which do not break off.  The plain form mirrors it and is its own plain form.  Otherwise
the fault is the first of a traversal that comes to all that is held; for a value, of which nothing
breaks off, it is an error about the path there.  So the outputs of a sandbox are made of scalars,
lists and mappings with text keys only. -/
theorem plain_form_or_first_fault (c : Cargo) (path : String) :
    ((∃ w, c.toPlain path = .ok w) ↔ ∀ u, c.Holds u → u.IsAllowed) ∧
      (∀ w, c.toPlain path = .ok w →
        c.Mirrors w ∧ w.IsPlainForm ∧ ∀ path', w.toPlain path' = .ok w) ∧
      (∀ fault, c.toPlain path = .error fault ↔ c.FirstFault path fault) ∧
      (∀ visit, visit ∈ c.visits [] ↔
        c.Leads visit.steps visit.subject ∧ visit.subject.Offers visit.look) ∧
      (∀ v fault, c = ofValue v → c.toPlain path = .error fault → ∃ steps u rest,
        c.Leads steps u ∧ fault.fault = .ofType (spell path steps ++ rest)) ∧
      ∀ limits worker (behaviour : String → Value → Sandbox.Behaviour) payload inputs outputs,
        (∀ text plain, (worker text plain).Shows (behaviour text plain)) →
        (Sandbox.execute limits worker payload inputs).result = .ok outputs →
        (Value.map outputs).IsPlainForm := by
  refine ⟨exists_toPlain_iff, ?_, fun fault => toPlain_eq_error_iff, fun visit => mem_visits_iff,
    ?_, ?_⟩
  · intro w hw
    have hform := isPlainForm_of_toPlain hw
    exact ⟨ascends_mirrors.of_toPlain hw, hform, hform.toPlain_self⟩
  · rintro v fault rfl hfault
    exact ofType_of_toPlain_ofValue hfault
  · intro limits worker behaviour payload inputs outputs hshows houtputs
    obtain ⟨text, plain, -, hgives⟩ := Sandbox.gives_of_execute hshows houtputs
    exact hgives.isPlainForm

/-- Rows of which the second has a key that is no text, before a value that is not plain. -/
def ledger : Value :=
  .map [
    (.text "rows", .tuple [.int 1, .map [(.text "paid", .list [.bool true]), (.int 2, .set [])]]),
    (.text "note", .bytes [])]

theorem ledger_refused :
    (ofValue ledger).toPlain "outputs" = .error (.key "outputs.rows[1]" "int") ∧
      (ofValue ledger).FirstFault "outputs" (.key "outputs.rows[1]" "int") := by
  have herror : (ofValue ledger).toPlain "outputs" = .error (.key "outputs.rows[1]" "int") :=
    fault?_eq_some_iff.mp (by decide +kernel)
  have hfaults := (plain_form_or_first_fault (ofValue ledger) "outputs").2.2.1
  exact ⟨herror, (hfaults _).mp herror⟩

/-- A mapping of a custom type whose entries cannot be listed. -/
def weird : Cargo :=
  .mapping "Weird" [] (some (.ofValue "broken items"))

/-- A fault need not be about a path, and then something else comes out. -/
theorem breaks_pass_as_they_are :
    ¬ ∀ (c : Cargo) (path : String) (fault : PlainFault), c.toPlain path = .error fault →
      ∃ steps u rest, c.Leads steps u ∧ fault.fault = .ofType (spell path steps ++ rest) := by
  intro hclaim
  obtain ⟨steps, u, rest, -, hfault⟩ := hclaim weird "outputs" _ rfl
  have hkind := congrArg Fault.kind hfault
  cases hkind

end Cargo

end ModelPlaybook
