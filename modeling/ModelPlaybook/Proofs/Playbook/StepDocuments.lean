import Mathlib
import ModelPlaybook.Proofs.Playbook.Documents
import ModelPlaybook.Proofs.Playbook.ReferenceText
import ModelPlaybook.Proofs.Text.Trimming
import ModelPlaybook.Proofs.Value.Lookup

/-!
# Steps that the items of a document write

An item of the list of steps is a mapping.  Before its fields are read, an item without an id is
given one; what is left to say of the other fields does not depend on this.  So a step comes from
its item in two parts: the source of its id, and the fields under their names.
-/

namespace ModelPlaybook

namespace Schema

open Checked

variable {entries : Entries}

/-- Every key of a mapping is the name of a field. -/
def hasFieldNames (entries : Entries) : Bool :=
  entries.all fun entry => (fieldName? entry.1).isSome

theorem hasFieldNames_put {name : String} (hname : Text.isEncodable name = true)
    (entries : Entries) (v : Value) :
    hasFieldNames (entries.put (.text name) v) = hasFieldNames entries := by
  unfold Entries.put
  split
  · rw [hasFieldNames, hasFieldNames, List.all_map]
    congr 1
    funext entry
    simp only [Function.comp_apply]
    split <;> rfl
  · simp [hasFieldNames, fieldName?, Value.text?, hname]

/-- Entries can be left unclaimed if and only if their keys are names of fields. -/
theorem exists_unclaimed_iff {claimed : List String} :
    (∃ extra, unclaimed entries claimed = .valid extra) ↔ hasFieldNames entries = true := by
  induction entries with
  | nil => simp [unclaimed, hasFieldNames]
  | cons entry rest ih =>
      obtain ⟨key, v⟩ := entry
      have hsplit : hasFieldNames ((key, v) :: rest) = true ↔
          (fieldName? key).isSome = true ∧ hasFieldNames rest = true := by
        simp [hasFieldNames]
      rw [hsplit, ← ih]
      cases hkey : fieldName? key with
      | none =>
          have hinvalid : ∀ extra, unclaimed ((key, v) :: rest) claimed ≠ .valid extra := by
            intro extra hextra
            simp only [unclaimed, hkey] at hextra
            obtain ⟨⟨_, more⟩, hboth, -⟩ := map_eq_valid.mp hextra
            exact fail_ne_valid (under_eq_valid.mp (both_eq_valid.mp hboth).1)
          simp [hinvalid]
      | some name => simp [unclaimed, hkey, map_eq_valid]

end Schema

namespace Playbook

open Schema Checked

/-! ## Fields of a step -/

theorem checkModelId_eq_valid {v : Value} {modelId : String} :
    checkModelId v = .valid modelId ↔
      ∃ s, text v = .valid s ∧ Text.isAllBlank s = false ∧ modelId = Text.trim s := by
  rw [checkModelId, andThen_eq_valid]
  apply exists_congr
  intro s
  apply and_congr_right
  intro _
  cases hblank : Text.isAllBlank s with
  | true => simp [fail_ne_valid]
  | false => simp [eq_comm]

/-- Where the fields of a step come from, but for its id and what is left unclaimed. -/
structure Step.FieldsFrom (entries : Entries) (s : Step) : Prop where
  keys : hasFieldNames entries = true
  modelId : ∃ v, entries.get? "model_id" = some v ∧ checkModelId v = .valid s.modelId
  condition : withDefault entries "condition" none StepCondition.check = .valid s.condition
  inputs : withDefault entries "input_map" [] checkInputs = .valid s.inputs
  onError : withDefault entries "on_error" .warnAndContinue FailurePolicy.check = .valid s.onError
  sectionLabel : withDefault entries "section_label" "" text = .valid s.sectionLabel

theorem Step.FieldsFrom.modelId_eq {entries : Entries} {s : Step} {v : Value} {written : String}
    (hfields : s.FieldsFrom entries) (hfound : entries.get? "model_id" = some v)
    (htext : text v = .valid written) : s.modelId = Text.trim written := by
  obtain ⟨w, hw, hcheck⟩ := hfields.modelId
  obtain ⟨read, hread, -, htrim⟩ := checkModelId_eq_valid.mp hcheck
  rw [hfound] at hw
  cases hw
  rw [htext] at hread
  cases hread
  exact htrim

theorem Step.FieldsFrom.modelId_isTrimmed {entries : Entries} {s : Step}
    (hfields : s.FieldsFrom entries) : s.modelId ≠ "" ∧ Text.IsTrimmed s.modelId := by
  obtain ⟨v, -, hcheck⟩ := hfields.modelId
  obtain ⟨written, -, hblank, htrim⟩ := checkModelId_eq_valid.mp hcheck
  rw [htrim]
  exact ⟨Text.trim_ne_empty hblank, Text.isTrimmed_trim written⟩

theorem Step.exists_check_eq_valid {entries : Entries} {s : Step} :
    (∃ extra, Step.check entries = .valid { s with extra := extra }) ↔
      (∃ v, (entries.get? "run_id").or (entries.get? "id") = some v ∧ text v = .valid s.id) ∧
        s.FieldsFrom entries := by
  simp only [Step.check, seq_eq_valid, functorMap_eq_valid]
  constructor
  · rintro ⟨extra, _, extra', ⟨_, label, ⟨_, onError, ⟨_, inputs, ⟨_, condition, ⟨_, modelId,
      ⟨id, hid, rfl⟩, hmodelId, rfl⟩, hcondition, rfl⟩, hinputs, rfl⟩, honError, rfl⟩, hlabel, rfl⟩,
      hextra, hsame⟩
    obtain ⟨rfl, rfl, rfl, rfl, rfl, rfl, rfl⟩ : id = s.id ∧ modelId = s.modelId ∧
        condition = s.condition ∧ inputs = s.inputs ∧ onError = s.onError ∧
        label = s.sectionLabel ∧ extra' = extra := by simpa using hsame
    exact ⟨required_pair_eq_valid.mp hid, exists_unclaimed_iff.mp ⟨_, hextra⟩,
      required_single_eq_valid.mp hmodelId, hcondition, hinputs, honError, hlabel⟩
  · rintro ⟨hid, hfields⟩
    obtain ⟨extra, hextra⟩ := exists_unclaimed_iff.mpr hfields.keys
    exact ⟨extra, _, extra, ⟨_, _, ⟨_, _, ⟨_, _, ⟨_, _, ⟨_, _,
      ⟨_, required_pair_eq_valid.mpr hid, rfl⟩, required_single_eq_valid.mpr hfields.modelId, rfl⟩,
      hfields.condition, rfl⟩, hfields.inputs, rfl⟩, hfields.onError, rfl⟩, hfields.sectionLabel,
      rfl⟩, hextra, rfl⟩

/-- The fields are the same if the entries have the same values for them. -/
theorem Step.FieldsFrom.congr {entries entries' : Entries} {s : Step}
    (hkeys : hasFieldNames entries' = hasFieldNames entries)
    (hvalues : ∀ name, name ≠ "run_id" → name ≠ "id" → entries'.get? name = entries.get? name)
    (hfields : s.FieldsFrom entries) : s.FieldsFrom entries' where
  keys := hkeys.trans hfields.keys
  modelId := by
    rw [hvalues "model_id" (by decide) (by decide)]
    exact hfields.modelId
  condition := by
    rw [withDefault, hvalues "condition" (by decide) (by decide)]
    exact hfields.condition
  inputs := by
    rw [withDefault, hvalues "input_map" (by decide) (by decide)]
    exact hfields.inputs
  onError := by
    rw [withDefault, hvalues "on_error" (by decide) (by decide)]
    exact hfields.onError
  sectionLabel := by
    rw [withDefault, hvalues "section_label" (by decide) (by decide)]
    exact hfields.sectionLabel

/-! ## Items -/

/-- Neither of the two keys of an id holds anything that counts as true. -/
def lacksId (entries : Entries) : Bool :=
  ["run_id", "id"].all fun key => !(entries.get? key).any (·.isTruthy)

/-- What the id of a step is read from. -/
def idSource (item : Value) (entries : Entries) : Option Value :=
  match item with
  | .map _ =>
    if lacksId entries then entries.get? "model_id"
    else (entries.get? "run_id").or (entries.get? "id")
  | _ => (entries.get? "run_id").or (entries.get? "id")

/-- An item with some entries writes a step. -/
structure Step.WrittenBy (item : Value) (entries : Entries) (s : Step) : Prop where
  holds : item.entries? = some entries
  id : ∃ v, idSource item entries = some v ∧ text v = .valid s.id
  fields : s.FieldsFrom entries

theorem withStepId_map (entries : Entries) :
    withStepId (.map entries) =
      if lacksId entries then
        .map (entries.put (.text "run_id") ((entries.get? "model_id").getD .none))
      else .map entries := by
  simp [withStepId, lacksId]

/-- The entries that an item is read from once it has been given an id. -/
theorem Step.exists_put_eq_valid {entries : Entries} {s : Step} :
    (∃ extra, Step.check (entries.put (.text "run_id") ((entries.get? "model_id").getD .none)) =
        .valid { s with extra := extra }) ↔
      (∃ v, entries.get? "model_id" = some v ∧ text v = .valid s.id) ∧ s.FieldsFrom entries := by
  have hkeys : hasFieldNames (entries.put (.text "run_id")
      ((entries.get? "model_id").getD .none)) = hasFieldNames entries :=
    hasFieldNames_put (by decide) entries _
  have hvalues : ∀ name, name ≠ "run_id" → name ≠ "id" →
      (entries.put (.text "run_id") ((entries.get? "model_id").getD .none)).get? name =
        entries.get? name := by
    intro name hname _
    rw [Entries.get?_put, if_neg hname]
  rw [Step.exists_check_eq_valid, Entries.get?_put, if_pos rfl, Option.some_or]
  apply and_congr
  · cases hmodel : entries.get? "model_id" with
    | none =>
        have hinvalid : text .none ≠ .valid s.id := fail_ne_valid
        simp [hinvalid]
    | some v => simp
  · constructor
    · intro hfields
      exact hfields.congr hkeys.symm fun name hrun hid => (hvalues name hrun hid).symm
    · intro hfields
      exact hfields.congr hkeys hvalues

theorem Step.exists_record_eq_valid {item v : Value} {written entries : Entries} {s : Step}
    (hwritten : v.entries? = some written) (hentries : item.entries? = some entries)
    (hcheck : (∃ extra, Step.check written = .valid { s with extra := extra }) ↔
      (∃ v, idSource item entries = some v ∧ text v = .valid s.id) ∧ s.FieldsFrom entries) :
    (∃ extra, record "StepDefinition" Step.check v = .valid { s with extra := extra }) ↔
      ∃ entries, s.WrittenBy item entries := by
  simp only [record, hwritten]
  rw [hcheck]
  constructor
  · rintro ⟨hid, hfields⟩
    exact ⟨entries, hentries, hid, hfields⟩
  · rintro ⟨entries', hholds, hid, hfields⟩
    rw [hentries] at hholds
    cases hholds
    exact ⟨hid, hfields⟩

theorem Step.exists_item_eq_valid {item : Value} {s : Step} :
    (∃ extra, record "StepDefinition" Step.check (withStepId item) =
        .valid { s with extra := extra }) ↔ ∃ entries, s.WrittenBy item entries := by
  cases item with
  | map entries =>
      rw [withStepId_map]
      by_cases hlacks : lacksId entries = true
      · rw [if_pos hlacks]
        apply Step.exists_record_eq_valid rfl rfl
        rw [idSource, if_pos hlacks]
        exact Step.exists_put_eq_valid
      · rw [if_neg hlacks]
        apply Step.exists_record_eq_valid rfl rfl
        rw [idSource, if_neg hlacks]
        exact Step.exists_check_eq_valid
  | frozenMap entries => exact Step.exists_record_eq_valid rfl rfl Step.exists_check_eq_valid
  | scalar a | list items | tuple items | set items | frozenSet items | bytes content
  | derived expression | foreign typeName origin =>
      constructor
      · rintro ⟨extra, hextra⟩
        exact absurd hextra fail_ne_valid
      · rintro ⟨entries, hholds, -, -⟩
        cases hholds

/-- A step that is read from an item is written by it. -/
theorem Step.writtenBy_of_item {item : Value} {s : Step}
    (hread : record "StepDefinition" Step.check (withStepId item) = .valid s) :
    ∃ entries, s.WrittenBy item entries :=
  Step.exists_item_eq_valid.mp ⟨s.extra, hread⟩

/-! ## Whole documents -/

theorem readsSteps_of_readFrom {entries : Entries} {p : Playbook} (hfields : p.ReadFrom entries) :
    ∃ items, stepItems? entries = some items ∧ ReadsSteps items p.steps := by
  obtain ⟨v, hfound, hsteps⟩ := required_pair_eq_valid.mp hfields.steps
  obtain ⟨-, items, hitems, hreads⟩ := checkSteps_eq_valid.mp hsteps
  refine ⟨items, ?_, hreads⟩
  rw [stepItems?, hfound]
  exact hitems

def textEntries (fields : List (String × String)) : Entries :=
  fields.map fun (name, content) => (.text name, .text content)

/-- A document with its list of steps under some key. -/
def stepping (key : String) (items : List (List (String × String))) : Entries :=
  [(.text "id", .text "demo"), (.text "version", .text "1"),
    (.text key, .list (items.map fun fields => .map (textEntries fields)))]

end Playbook

end ModelPlaybook
