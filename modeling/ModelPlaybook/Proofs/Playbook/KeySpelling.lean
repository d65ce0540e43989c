import Mathlib
import ModelPlaybook.Playbook.Review
import ModelPlaybook.Playbook.Run
import ModelPlaybook.Proofs.Playbook.StepDocuments

/-!
# Two spellings of a key

The list of steps stands under `steps` or `models`, and the id of a step under `id` or `run_id`.  A
document that has one key of a pair can have the other one instead: the same steps are read from it.
What the steps are read from differs only in what no field claims, which neither a review nor a run
looks at.
-/

namespace ModelPlaybook

/-! ## Respelled entries -/

/-- A key, of which one of two spellings is replaced by the other. -/
def respellKey (a b : String) (key : Value) : Value :=
  key.text?.elim key fun name => .text (Equiv.swap a b name)

def Entries.respell (a b : String) (entries : Entries) : Entries :=
  entries.map fun (key, v) => (respellKey a b key, v)

theorem text?_respellKey (a b : String) (key : Value) :
    (respellKey a b key).text? = key.text?.map (Equiv.swap a b) := by
  unfold respellKey
  cases hkey : key.text? with
  | none => exact hkey
  | some name => rfl

theorem respellKey_eq_text_iff {a b name : String} {key : Value} :
    respellKey a b key = .text name ↔ key = .text (Equiv.swap a b name) := by
  constructor
  · intro hkey
    have htext : key.text?.map (Equiv.swap a b) = some name := by
      rw [← text?_respellKey, hkey]
      rfl
    obtain ⟨other, hother, rfl⟩ := Option.map_eq_some_iff.mp htext
    rw [Equiv.swap_apply_self]
    exact Value.eq_text_of_text? hother
  · rintro rfl
    simp [respellKey, Value.text?]

namespace Entries

theorem get?_respell (a b : String) (entries : Entries) (name : String) :
    (entries.respell a b).get? name = entries.get? (Equiv.swap a b name) := by
  induction entries with
  | nil => rfl
  | cons entry rest ih =>
      obtain ⟨key, v⟩ := entry
      rw [respell, List.map_cons, get?_cons, get?_cons]
      by_cases hkey : key = .text (Equiv.swap a b name)
      · rw [if_pos hkey, if_pos (respellKey_eq_text_iff.mpr hkey)]
      · rw [if_neg hkey, if_neg fun hsame => hkey (respellKey_eq_text_iff.mp hsame)]
        exact ih

theorem respell_respell (a b : String) (entries : Entries) :
    (entries.respell a b).respell a b = entries := by
  induction entries with
  | nil => rfl
  | cons entry rest ih =>
      obtain ⟨key, v⟩ := entry
      have hkey : respellKey a b (respellKey a b key) = key := by
        cases htext : key.text? with
        | none => simp [respellKey, htext]
        | some name =>
            obtain rfl := Value.eq_text_of_text? htext
            simp [respellKey, Value.text?]
      simp only [respell, List.map_cons, hkey]
      congr 1

/-- Keys pass a test as before if both spellings do. -/
theorem all_respell (test : Value → Bool) {a b : String} (hsame : test (.text a) = test (.text b))
    (entries : Entries) :
    ((entries.respell a b).all fun entry => test entry.1) =
      entries.all fun entry => test entry.1 := by
  have hkey : ∀ key, test (respellKey a b key) = test key := by
    intro key
    cases htext : key.text? with
    | none => simp [respellKey, htext]
    | some name =>
        obtain rfl := Value.eq_text_of_text? htext
        by_cases ha : name = a
        · simp [respellKey, Value.text?, ha, hsame]
        · by_cases hb : name = b
          · simp [respellKey, Value.text?, hb, hsame]
          · simp [respellKey, Value.text?, Equiv.swap_apply_of_ne_of_ne ha hb]
  simp only [respell, List.all_map, Function.comp_def, hkey]

end Entries

namespace Playbook

open Schema Checked

/-! ## Respelled documents -/

/-- The same item of a list of steps, or the item with the other key for its id. -/
inductive ItemRespelled : Value → Value → Prop where
  | same (item : Value) : ItemRespelled item item
  | map {entries : Entries} (hsingle : entries.get? "run_id" = none ∨ entries.get? "id" = none) :
      ItemRespelled (.map entries) (.map (entries.respell "run_id" "id"))
  | frozenMap {entries : Entries}
      (hsingle : entries.get? "run_id" = none ∨ entries.get? "id" = none) :
      ItemRespelled (.frozenMap entries) (.frozenMap (entries.respell "run_id" "id"))

/-- What stands under the key for the steps: the same, or a sequence of respelled items. -/
inductive StepsRespelled : Value → Value → Prop where
  | same (v : Value) : StepsRespelled v v
  | list {items items' : List Value} (hitems : List.Forall₂ ItemRespelled items items') :
      StepsRespelled (.list items) (.list items')
  | tuple {items items' : List Value} (hitems : List.Forall₂ ItemRespelled items items') :
      StepsRespelled (.tuple items) (.tuple items')

/-- The same entry of a document, or the list of steps with respelled items. -/
inductive EntryRespelled : Value × Value → Value × Value → Prop where
  | same (entry : Value × Value) : EntryRespelled entry entry
  | steps {name : String} {v v' : Value} (hname : name = "models" ∨ name = "steps")
      (hsteps : StepsRespelled v v') : EntryRespelled (.text name, v) (.text name, v')

/-- The entries of a document with the other spelling for some keys of items, and for the key of the
list of steps or not. -/
inductive EntriesRespelled : Entries → Entries → Prop where
  | items {entries entries' : Entries} (hentries : List.Forall₂ EntryRespelled entries entries') :
      EntriesRespelled entries entries'
  | document {entries entries' : Entries}
      (hsingle : entries.get? "models" = none ∨ entries.get? "steps" = none)
      (hentries : List.Forall₂ EntryRespelled entries entries') :
      EntriesRespelled entries (entries'.respell "models" "steps")

/-- A document with the other spelling for some of its keys. -/
inductive Respelled : Value → Value → Prop where
  | map {entries entries' : Entries} (hentries : EntriesRespelled entries entries') :
      Respelled (.map entries) (.map entries')
  | frozenMap {entries entries' : Entries} (hentries : EntriesRespelled entries entries') :
      Respelled (.frozenMap entries) (.frozenMap entries')

theorem ItemRespelled.symm {item item' : Value} (hitem : ItemRespelled item item') :
    ItemRespelled item' item := by
  have hback : ∀ entries : Entries, entries.get? "run_id" = none ∨ entries.get? "id" = none →
      (entries.respell "run_id" "id").get? "run_id" = none ∨
        (entries.respell "run_id" "id").get? "id" = none := by
    intro entries hsingle
    rw [Entries.get?_respell, Entries.get?_respell, Equiv.swap_apply_left, Equiv.swap_apply_right]
    exact hsingle.symm
  cases hitem with
  | same => exact .same item
  | @map entries hsingle =>
      have hrespelled := ItemRespelled.map (hback entries hsingle)
      rwa [Entries.respell_respell] at hrespelled
  | @frozenMap entries hsingle =>
      have hrespelled := ItemRespelled.frozenMap (hback entries hsingle)
      rwa [Entries.respell_respell] at hrespelled

theorem forall₂_itemRespelled_symm {items items' : List Value}
    (hitems : List.Forall₂ ItemRespelled items items') : List.Forall₂ ItemRespelled items' items :=
  hitems.flip.imp fun _ _ => ItemRespelled.symm

theorem StepsRespelled.symm {v v' : Value} (hsteps : StepsRespelled v v') :
    StepsRespelled v' v := by
  cases hsteps with
  | same => exact .same v
  | list hitems => exact .list (forall₂_itemRespelled_symm hitems)
  | tuple hitems => exact .tuple (forall₂_itemRespelled_symm hitems)

/-! ## Steps from respelled items -/

theorem lacksId_respell (entries : Entries) :
    lacksId (entries.respell "run_id" "id") = lacksId entries := by
  simp [lacksId, Entries.get?_respell, Bool.and_comm]

section

variable {entries : Entries} {s : Step}

theorem Step.FieldsFrom.respell (hfields : s.FieldsFrom entries) :
    s.FieldsFrom (entries.respell "run_id" "id") := by
  have hkeys : hasFieldNames (entries.respell "run_id" "id") = hasFieldNames entries :=
    Entries.all_respell (fun key => (fieldName? key).isSome) (by decide) entries
  refine hfields.congr hkeys fun name hrun hid => ?_
  rw [Entries.get?_respell, Equiv.swap_apply_of_ne_of_ne hrun hid]

theorem idKeys_respell (hsingle : entries.get? "run_id" = none ∨ entries.get? "id" = none) :
    ((entries.respell "run_id" "id").get? "run_id").or ((entries.respell "run_id" "id").get? "id") =
      (entries.get? "run_id").or (entries.get? "id") := by
  rw [Entries.get?_respell, Entries.get?_respell, Equiv.swap_apply_left, Equiv.swap_apply_right]
  rcases hsingle with hnone | hnone <;> simp [hnone]

/-- A step that an item writes is also written by the item with the other key for its id. -/
theorem ItemRespelled.writtenBy {item item' : Value} (hitem : ItemRespelled item item')
    (hwritten : s.WrittenBy item entries) : ∃ entries', s.WrittenBy item' entries' := by
  obtain ⟨hholds, hid, hfields⟩ := hwritten
  cases hitem with
  | same => exact ⟨entries, hholds, hid, hfields⟩
  | map hsingle =>
      cases hholds
      refine ⟨entries.respell "run_id" "id", rfl, ?_, hfields.respell⟩
      have hmodel : (entries.respell "run_id" "id").get? "model_id" = entries.get? "model_id" := by
        rw [Entries.get?_respell, Equiv.swap_apply_of_ne_of_ne (by decide) (by decide)]
      rwa [idSource, lacksId_respell, hmodel, idKeys_respell hsingle]
  | frozenMap hsingle =>
      cases hholds
      refine ⟨entries.respell "run_id" "id", rfl, ?_, hfields.respell⟩
      obtain ⟨v, hsource, htext⟩ := hid
      exact ⟨v, (idKeys_respell hsingle).trans hsource, htext⟩

end

/-- A step without what no field has claimed. -/
def Step.bare (s : Step) : Step :=
  { s with extra := [] }

theorem readsSteps_respelled {items items' : List Value} {steps : List Step}
    (hitems : List.Forall₂ ItemRespelled items items') (hreads : ReadsSteps items steps) :
    ∃ steps', ReadsSteps items' steps' ∧ steps'.map Step.bare = steps.map Step.bare := by
  induction hitems generalizing steps with
  | nil =>
      cases hreads
      exact ⟨[], .nil, rfl⟩
  | cons hitem _ ih =>
      obtain ⟨step, more, hstep, hmore, rfl⟩ := List.forall₂_cons_left_iff.mp hreads
      obtain ⟨entries, hwritten⟩ := Step.writtenBy_of_item hstep
      obtain ⟨extra, hread⟩ := Step.exists_item_eq_valid.mpr (hitem.writtenBy hwritten)
      obtain ⟨more', hmore', hsame⟩ := ih hmore
      refine ⟨{ step with extra := extra } :: more', .cons hread hmore', ?_⟩
      rw [List.map_cons, List.map_cons, hsame]
      rfl

theorem StepsRespelled.items? {v v' : Value} {items : List Value} (hsteps : StepsRespelled v v')
    (hitems : Schema.items? v = some items) :
    ∃ items', Schema.items? v' = some items' ∧ List.Forall₂ ItemRespelled items items' := by
  cases hsteps with
  | same => exact ⟨items, hitems, List.forall₂_same.mpr fun item _ => .same item⟩
  | list hrespelled | tuple hrespelled =>
      cases hitems
      exact ⟨_, rfl, hrespelled⟩

theorem StepsRespelled.checkSteps {v v' : Value} {steps : List Step} (hsteps : StepsRespelled v v')
    (hcheck : Playbook.checkSteps v = .valid steps) :
    ∃ steps', Playbook.checkSteps v' = .valid steps' ∧
      steps'.map Step.bare = steps.map Step.bare := by
  obtain ⟨hsome, items, hitems, hreads⟩ := checkSteps_eq_valid.mp hcheck
  obtain ⟨items', hitems', hrespelled⟩ := hsteps.items? hitems
  obtain ⟨steps', hreads', hsame⟩ := readsSteps_respelled hrespelled hreads
  have hsome' : steps' ≠ [] := by
    rintro rfl
    exact hsome (by simpa using hsame.symm)
  exact ⟨steps', checkSteps_eq_valid.mpr ⟨hsome', items', hitems', hreads'⟩, hsame⟩

/-! ## Denials -/

theorem ItemRespelled.idDenial?_eq {item item' : Value} (hitem : ItemRespelled item item') :
    idDenial? item' = idDenial? item := by
  cases hitem with
  | same | frozenMap => rfl
  | map hsingle =>
      simp only [idDenial?, Entries.get?_respell, Equiv.swap_apply_left, Equiv.swap_apply_right]
      rcases hsingle with hnone | hnone <;> simp [hnone]

theorem StepsRespelled.forall₂_items {v v' : Value} (hsteps : StepsRespelled v v') :
    List.Forall₂ ItemRespelled ((Schema.items? v).getD []) ((Schema.items? v').getD []) := by
  cases hsteps with
  | same => exact List.forall₂_same.mpr fun item _ => .same item
  | list hitems | tuple hitems => exact hitems

theorem findSome?_idDenial?_eq {items items' : List Value}
    (hitems : List.Forall₂ ItemRespelled items items') :
    items'.findSome? idDenial? = items.findSome? idDenial? := by
  induction hitems with
  | nil => rfl
  | cons hitem _ ih => rw [List.findSome?_cons, List.findSome?_cons, hitem.idDenial?_eq, ih]

/-! ## Playbooks from respelled documents -/

/-- Entries that differ in nothing but the items of the list of steps and the key that it stands
under. -/
structure SameFields (entries entries' : Entries) : Prop where
  keys : ∀ test : Value → Bool, test (.text "models") = test (.text "steps") →
    (entries'.all fun entry => test entry.1) = entries.all fun entry => test entry.1
  others : ∀ name, name ≠ "models" → name ≠ "steps" → entries'.get? name = entries.get? name
  inspected : Option.Rel StepsRespelled ((entries.get? "steps").or (entries.get? "models"))
    ((entries'.get? "steps").or (entries'.get? "models"))
  used : Option.Rel StepsRespelled ((entries.get? "models").or (entries.get? "steps"))
    ((entries'.get? "models").or (entries'.get? "steps"))

section

variable {entries entries' : Entries}

theorem rel_or {α β : Type} {r : α → β → Prop} {a b : Option α} {a' b' : Option β}
    (ha : Option.Rel r a a') (hb : Option.Rel r b b') : Option.Rel r (a.or b) (a'.or b') := by
  cases ha with
  | some h => exact .some h
  | none => exact hb

theorem rel_symm {v v' : Option Value} (hrel : Option.Rel StepsRespelled v v') :
    Option.Rel StepsRespelled v' v := by
  cases hrel with
  | some h => exact .some h.symm
  | none => exact .none

theorem SameFields.symm (hsame : SameFields entries entries') : SameFields entries' entries where
  keys test htest := (hsame.keys test htest).symm
  others name hmodels hsteps := (hsame.others name hmodels hsteps).symm
  inspected := rel_symm hsame.inspected
  used := rel_symm hsame.used

theorem EntryRespelled.key {entry entry' : Value × Value} (hentry : EntryRespelled entry entry') :
    entry'.1 = entry.1 := by
  cases hentry <;> rfl

theorem all_of_entryRespelled (hentries : List.Forall₂ EntryRespelled entries entries')
    (test : Value → Bool) :
    (entries'.all fun entry => test entry.1) = entries.all fun entry => test entry.1 := by
  induction hentries with
  | nil => rfl
  | cons hentry _ ih =>
      rw [List.all_cons, List.all_cons, hentry.key, ih]

theorem get?_of_entryRespelled (hentries : List.Forall₂ EntryRespelled entries entries')
    {name : String} (hmodels : name ≠ "models") (hsteps : name ≠ "steps") :
    entries'.get? name = entries.get? name := by
  induction hentries with
  | nil => rfl
  | cons hentry _ ih =>
      cases hentry with
      | same entry => rw [Entries.get?_cons, Entries.get?_cons, ih]
      | @steps other v v' hname =>
          have hother : Value.text other ≠ .text name := by
            rintro ⟨⟩
            exact hname.elim hmodels hsteps
          rw [Entries.get?_cons, Entries.get?_cons, if_neg hother, if_neg hother, ih]

theorem rel_of_entryRespelled (hentries : List.Forall₂ EntryRespelled entries entries')
    (name : String) : Option.Rel StepsRespelled (entries.get? name) (entries'.get? name) := by
  induction hentries with
  | nil => exact .none
  | @cons entry entry' _ _ hentry _ ih =>
      have hvalue : StepsRespelled entry.2 entry'.2 := by
        cases hentry with
        | same => exact .same entry.2
        | steps _ hsteps => exact hsteps
      rw [Entries.get?_cons, Entries.get?_cons, hentry.key]
      by_cases hkey : entry.1 = .text name
      · rw [if_pos hkey, if_pos hkey]
        exact .some hvalue
      · rw [if_neg hkey, if_neg hkey]
        exact ih

theorem sameFields_of_entryRespelled (hentries : List.Forall₂ EntryRespelled entries entries') :
    SameFields entries entries' := by
  have hmodels := rel_of_entryRespelled hentries "models"
  have hsteps := rel_of_entryRespelled hentries "steps"
  exact ⟨fun test _ => all_of_entryRespelled hentries test,
    fun _ => get?_of_entryRespelled hentries, rel_or hsteps hmodels, rel_or hmodels hsteps⟩

theorem SameFields.respell (hsame : SameFields entries entries')
    (hsingle : entries.get? "models" = none ∨ entries.get? "steps" = none) :
    SameFields entries (entries'.respell "models" "steps") := by
  have hswapped : (entries.get? "steps").or (entries.get? "models") =
      (entries.get? "models").or (entries.get? "steps") := by
    rcases hsingle with hnone | hnone <;> simp [hnone]
  refine ⟨?_, ?_, ?_, ?_⟩
  · intro test htest
    rw [Entries.all_respell test htest]
    exact hsame.keys test htest
  · intro name hmodels hsteps
    rw [Entries.get?_respell, Equiv.swap_apply_of_ne_of_ne hmodels hsteps]
    exact hsame.others name hmodels hsteps
  · rw [Entries.get?_respell, Entries.get?_respell, Equiv.swap_apply_left, Equiv.swap_apply_right,
      hswapped]
    exact hsame.used
  · rw [Entries.get?_respell, Entries.get?_respell, Equiv.swap_apply_left, Equiv.swap_apply_right,
      ← hswapped]
    exact hsame.inspected

theorem EntriesRespelled.sameFields (hrespelled : EntriesRespelled entries entries') :
    SameFields entries entries' := by
  cases hrespelled with
  | items hentries => exact sameFields_of_entryRespelled hentries
  | document hsingle hentries => exact (sameFields_of_entryRespelled hentries).respell hsingle

section

variable {α : Type} {name : String} {check : Value → Checked α}

theorem SameFields.required_eq (hsame : SameFields entries entries') (hmodels : name ≠ "models")
    (hsteps : name ≠ "steps") : required entries' [name] check = required entries [name] check := by
  simp [required, claim?, hsame.others name hmodels hsteps]

theorem SameFields.withDefault_eq {absent : α} (hsame : SameFields entries entries')
    (hmodels : name ≠ "models") (hsteps : name ≠ "steps") :
    withDefault entries' name absent check = withDefault entries name absent check := by
  simp [withDefault, hsame.others name hmodels hsteps]

end

/-- A document that lacks nothing still lacks nothing. -/
theorem SameFields.lacks (hsame : SameFields entries entries')
    (hlacks : Playbook.lacks entries = []) : Playbook.lacks entries' = [] := by
  obtain ⟨first, rest, hfound⟩ := exists_steps_of_lacks hlacks
  obtain ⟨first', rest', hfound'⟩ : ∃ first' rest',
      (entries'.get? "steps").or (entries'.get? "models") = some (.list (first' :: rest')) := by
    have hinspected := hsame.inspected
    rw [hfound] at hinspected
    generalize (entries'.get? "steps").or (entries'.get? "models") = found' at hinspected
    cases hinspected with
    | some hsteps =>
        cases hsteps with
        | same => exact ⟨first, rest, rfl⟩
        | list hitems =>
            obtain ⟨first', rest', -, -, rfl⟩ := List.forall₂_cons_left_iff.mp hitems
            exact ⟨first', rest', rfl⟩
  have hid := hsame.others "id" (by decide) (by decide)
  have hversion := hsame.others "version" (by decide) (by decide)
  unfold Playbook.lacks at hlacks ⊢
  rw [hfound] at hlacks
  rw [hid, hversion, hfound']
  exact hlacks

/-- The ids of steps are denied as before. -/
theorem SameFields.stepDenial?_eq (hsame : SameFields entries entries') :
    stepDenial? entries' = stepDenial? entries := by
  have hused := hsame.used
  unfold stepDenial? stepItems?
  generalize (entries.get? "models").or (entries.get? "steps") = found at hused
  generalize (entries'.get? "models").or (entries'.get? "steps") = found' at hused
  cases hused with
  | some hsteps => exact findSome?_idDenial?_eq hsteps.forall₂_items
  | none => rfl

end

/-- A playbook without what no field of it or of its steps has claimed. -/
def bare (p : Playbook) : Playbook :=
  { p with steps := p.steps.map Step.bare, extra := [] }

section

variable {p p' : Playbook}

theorem ids_of_bare {steps steps' : List Step}
    (hsteps : steps'.map Step.bare = steps.map Step.bare) :
    steps'.map (·.id) = steps.map (·.id) := by
  have hids := congrArg (List.map Step.id) hsteps
  rwa [List.map_map, List.map_map] at hids

theorem ReadFrom.of_sameFields {entries entries' : Entries} (hfields : p.ReadFrom entries)
    (hsame : SameFields entries entries') :
    ∃ p' : Playbook, p'.ReadFrom entries' ∧ p'.bare = p.bare := by
  obtain ⟨v, hfound, hcheck⟩ := required_pair_eq_valid.mp hfields.steps
  obtain ⟨v', steps', hfound', hcheck', hsteps⟩ : ∃ v' steps',
      (entries'.get? "models").or (entries'.get? "steps") = some v' ∧
        checkSteps v' = .valid steps' ∧ steps'.map Step.bare = p.steps.map Step.bare := by
    have hused := hsame.used
    rw [hfound] at hused
    generalize (entries'.get? "models").or (entries'.get? "steps") = found' at hused
    cases hused with
    | some hrespelled =>
        obtain ⟨steps', hcheck', hsteps⟩ := hrespelled.checkSteps hcheck
        exact ⟨_, steps', rfl, hcheck', hsteps⟩
  have hnames : hasFieldNames entries = true := exists_unclaimed_iff.mp ⟨_, hfields.extra⟩
  have hnames' : hasFieldNames entries' = true :=
    (hsame.keys (fun key => (fieldName? key).isSome) (by decide)).trans hnames
  obtain ⟨extra, hextra⟩ := exists_unclaimed_iff.mpr hnames'
  -- All fields are the old ones, but the steps can differ in what is left unclaimed.
  refine ⟨{ p with steps := steps', extra := extra }, ?_, by simp [bare, hsteps]⟩
  exact {
    id := (hsame.required_eq (by decide) (by decide)).trans hfields.id
    version := (hsame.required_eq (by decide) (by decide)).trans hfields.version
    name := (hsame.withDefault_eq (by decide) (by decide)).trans hfields.name
    description := (hsame.withDefault_eq (by decide) (by decide)).trans hfields.description
    intakeFields := (hsame.withDefault_eq (by decide) (by decide)).trans hfields.intakeFields
    steps := required_pair_eq_valid.mpr ⟨v', hfound', hcheck'⟩
    extra := hextra
    distinct := by
      rw [ids_of_bare hsteps]
      exact hfields.distinct }

theorem ofDocument_of_sameFields {entries entries' : Entries} (hsame : SameFields entries entries')
    (hread : ofDocument (.map entries) = .ok p) :
    ∃ p' : Playbook, ofDocument (.map entries') = .ok p' ∧ p'.bare = p.bare := by
  obtain ⟨_, hentries, hlacks, hkeys, hgranted, hfields⟩ := ofDocument_eq_ok.mp hread
  cases hentries
  obtain ⟨p', hfields', hbare⟩ := hfields.of_sameFields hsame
  have hkeys' : hasTextKeys entries' = true := (hsame.keys (·.text?.isSome) rfl).trans hkeys
  exact ⟨p', ofDocument_eq_ok.mpr ⟨entries', rfl, hsame.lacks hlacks, hkeys',
    hsame.stepDenial?_eq.trans hgranted, hfields'⟩, hbare⟩

/-! ## Reviews and runs -/

theorem reviewSteps_bare (declared earlier : List String) (index : Nat) (steps : List Step) :
    reviewSteps declared earlier index (steps.map Step.bare) =
      reviewSteps declared earlier index steps := by
  induction steps generalizing earlier index with
  | nil => rfl
  | cons step rest ih =>
      rw [List.map_cons, reviewSteps, reviewSteps, ih]
      rfl

theorem review_bare (p : Playbook) : review p.bare = review p := by
  unfold review
  rw [bare, reviewSteps_bare]

theorem runSteps_bare (services : Nat → Services) (playbookId : String)
    (env : Expression.Environment) (steps : List Step) :
    runSteps services playbookId env (steps.map Step.bare) =
      runSteps services playbookId env steps := by
  induction steps generalizing services env with
  | nil => rfl
  | cons step rest ih =>
      have hattempt : step.bare.attempt (services 0) env = step.attempt (services 0) env := rfl
      have hconclude : step.bare.conclude playbookId = step.conclude playbookId := by
        funext attempt
        cases attempt <;> rfl
      simp only [List.map_cons, runSteps, hattempt, hconclude, ih]

theorem runWith_bare (services : Nat → Services) (p : Playbook) (intake : Value) :
    p.bare.runWith services intake = p.runWith services intake := by
  simp only [runWith, bare, runSteps_bare]

/-- Documents that differ in the spelling of keys are accepted together, and what is read from them
differs only in what no field has claimed. -/
theorem respelled_documents_agree {document document' : Value}
    (hrespelled : Respelled document document') :
    ((∃ p, ofDocument document = .ok p) ↔ ∃ p', ofDocument document' = .ok p') ∧
    ∀ p p', ofDocument document = .ok p → ofDocument document' = .ok p' →
      p.bare = p'.bare ∧ review p = review p' ∧
      ∀ services intake, p.runWith services intake = p'.runWith services intake := by
  cases hrespelled with
  | map hentries =>
      have hsame := hentries.sameFields
      constructor
      · constructor
        · rintro ⟨p, hread⟩
          obtain ⟨p', hread', -⟩ := ofDocument_of_sameFields hsame hread
          exact ⟨p', hread'⟩
        · rintro ⟨p', hread'⟩
          obtain ⟨p, hread, -⟩ := ofDocument_of_sameFields hsame.symm hread'
          exact ⟨p, hread⟩
      · intro p p' hread hread'
        obtain ⟨other, hother, hbare⟩ := ofDocument_of_sameFields hsame hread
        rw [hread'] at hother
        cases hother
        refine ⟨hbare.symm, ?_, ?_⟩
        · rw [← review_bare p, ← review_bare p', hbare]
        · intro services intake
          rw [← runWith_bare services p, ← runWith_bare services p', hbare]
  | frozenMap =>
      have hrejected : ∀ entries p, ofDocument (.frozenMap entries) ≠ .ok p := by
        intro entries p hread
        obtain ⟨_, hmap, -⟩ := ofDocument_eq_ok.mp hread
        cases hmap
      constructor
      · constructor
        · rintro ⟨p, hread⟩
          exact absurd hread (hrejected _ p)
        · rintro ⟨p', hread'⟩
          exact absurd hread' (hrejected _ p')
      · intro p _ hread
        exact absurd hread (hrejected _ p)

def settled (extra : Entries) : Playbook :=
  ⟨"demo", "1", "", "", [], [⟨"net", "num", none, [], .warnAndContinue, "", []⟩,
    ⟨"tax", "tax", none, [], .warnAndContinue, "", extra⟩,
    ⟨"gross", "num", none, [], .warnAndContinue, "", []⟩], []⟩

def settling : Entries :=
  stepping "steps" [[("model_id", "num"), ("id", "net")], [("model_id", "tax"), ("id", "")],
    [("model_id", "num"), ("run_id", "gross")]]

def resettling : Entries :=
  stepping "models" [[("model_id", "num"), ("run_id", "net")],
    [("model_id", "tax"), ("run_id", "")], [("model_id", "num"), ("run_id", "gross")]]

theorem respelled_settling : Respelled (.map settling) (.map resettling) := by
  let item (key content modelId : String) : Entries :=
    [(.text "model_id", .text modelId), (.text key, .text content)]
  have hfirst : ItemRespelled (.map (item "id" "net" "num")) (.map (item "run_id" "net" "num")) :=
    .map (.inl rfl)
  have hsecond : ItemRespelled (.map (item "id" "" "tax")) (.map (item "run_id" "" "tax")) :=
    .map (.inl rfl)
  have hsteps : StepsRespelled
      (.list [.map (item "id" "net" "num"), .map (item "id" "" "tax"),
        .map (item "run_id" "gross" "num")])
      (.list [.map (item "run_id" "net" "num"), .map (item "run_id" "" "tax"),
        .map (item "run_id" "gross" "num")]) :=
    .list (.cons hfirst (.cons hsecond (.cons (.same _) .nil)))
  exact .map (.document (.inl rfl)
    (.cons (.same _) (.cons (.same _) (.cons (.steps (.inr rfl) hsteps) .nil))))

/-- Two steps get the other key for their ids, one of which is empty, and one step keeps its key. -/
theorem settling_agrees :
    Respelled (.map settling) (.map resettling) ∧
    ofDocument (.map settling) = .ok (settled [(.text "id", .text "")]) ∧
    ofDocument (.map resettling) = .ok (settled []) ∧
    (settled [(.text "id", .text "")]).bare = (settled []).bare ∧
    review (settled [(.text "id", .text "")]) = review (settled []) ∧
    ∀ services intake, (settled [(.text "id", .text "")]).runWith services intake =
      (settled []).runWith services intake := by
  have hread : ofDocument (.map settling) = .ok (settled [(.text "id", .text "")]) := by
    apply toOption_eq_some.mp
    decide +kernel
  have hread' : ofDocument (.map resettling) = .ok (settled []) := by
    apply toOption_eq_some.mp
    decide +kernel
  obtain ⟨-, hagree⟩ := respelled_documents_agree respelled_settling
  exact ⟨respelled_settling, hread, hread', hagree _ _ hread hread'⟩

end

end Playbook

end ModelPlaybook
