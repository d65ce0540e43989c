import Mathlib
import ModelPlaybook.Proofs.Playbook.StepDocuments

/-!
# The ids of steps

A step is to have the id that it is given, under the first of two keys that holds a text, or else
the id of its model.  That is so but for two kinds of items: an empty text under the first key hides
what the second one holds, and the id of a model is taken over with the blanks around it.
-/

namespace ModelPlaybook.Playbook

open ModelPlaybook.Schema

/-- The text that is read under a key, unless it is empty. -/
def namedUnder? (entries : Entries) (key : String) : Option String :=
  ((entries.get? key).bind fun v => (text v).toExcept.toOption).filter (· ≠ "")

/-- The id that a step is to have. -/
def Step.expectedId (s : Step) (entries : Entries) : String :=
  ((namedUnder? entries "run_id").or (namedUnder? entries "id")).getD s.modelId

/-- The item of a step that gets another id than it is to have. -/
inductive Misnames (item : Value) (entries : Entries) : Prop where
  | hidden {v : Value} (hsource : idSource item entries = some v) (hempty : text v = .valid "")
  | padded {v : Value} {written : String} (hitem : item = .map entries)
      (hlacks : lacksId entries = true) (hmodel : entries.get? "model_id" = some v)
      (htext : text v = .valid written) (hpadded : Text.trim written ≠ written)

section

variable {item : Value} {entries : Entries} {s : Step}

theorem namedUnder?_eq_some_iff {key t : String} :
    namedUnder? entries key = some t ↔
      ∃ v, entries.get? key = some v ∧ text v = .valid t ∧ t ≠ "" := by
  have hread : ∀ v, (text v).toExcept.toOption = some t ↔ text v = .valid t := by
    intro v
    cases text v <;> simp [Checked.toExcept, Except.toOption]
  simp only [namedUnder?, Option.filter_eq_some_iff, Option.bind_eq_some_iff, hread,
    decide_eq_true_eq]
  constructor
  · rintro ⟨⟨v, hfound, htext⟩, hne⟩
    exact ⟨v, hfound, htext, hne⟩
  · rintro ⟨v, hfound, htext, hne⟩
    exact ⟨⟨v, hfound, htext⟩, hne⟩

/-- A text, or bytes that encode one, counts as false only if it is empty. -/
theorem eq_empty_of_text {v : Value} {t : String} (htext : text v = .valid t)
    (hfalse : v.isTruthy = false) : t = "" := by
  cases v with
  | scalar a =>
      cases a with
      | text s =>
          cases htext
          simpa [Value.isTruthy] using hfalse
      | none | bool b | int n | float x | decimal d | date d | dateTime d | duration d =>
          exact absurd htext Checked.fail_ne_valid
  | bytes content =>
      obtain rfl : content = [] := by simpa [Value.isTruthy] using hfalse
      cases htext
      rfl
  | list items | tuple items | map items | frozenMap items | set items | frozenSet items
  | derived expression | foreign typeName origin => exact absurd htext Checked.fail_ne_valid

theorem namedUnder?_eq_none_of_lacksId (hlacks : lacksId entries = true) {key : String}
    (hkey : key ∈ ["run_id", "id"]) : namedUnder? entries key = none := by
  have huncounted := List.all_eq_true.mp hlacks key hkey
  rw [Option.eq_none_iff_forall_ne_some]
  intro t ht
  obtain ⟨v, hfound, htext, hne⟩ := namedUnder?_eq_some_iff.mp ht
  exact hne (eq_empty_of_text htext (by simpa [hfound] using huncounted))

theorem Step.expectedId_of_lacksId (hlacks : lacksId entries = true) :
    s.expectedId entries = s.modelId := by
  rw [expectedId, namedUnder?_eq_none_of_lacksId hlacks (by simp),
    namedUnder?_eq_none_of_lacksId hlacks (by simp)]
  rfl

theorem Step.expectedId_ne_empty (hmodel : s.modelId ≠ "") : s.expectedId entries ≠ "" := by
  have hnamed : ∀ key t, namedUnder? entries key = some t → t ≠ "" := by
    intro key t ht
    obtain ⟨v, -, -, hne⟩ := namedUnder?_eq_some_iff.mp ht
    exact hne
  unfold expectedId
  cases hrun : namedUnder? entries "run_id" with
  | some t => exact hnamed _ _ hrun
  | none =>
      cases hid : namedUnder? entries "id" with
      | some t => exact hnamed _ _ hid
      | none => exact hmodel

/-- An item that has no id takes over that of its model; any other one keeps what it has. -/
theorem Step.WrittenBy.id_cases (hwritten : s.WrittenBy item entries) :
    (item = .map entries ∧ lacksId entries = true ∧ ∃ v, entries.get? "model_id" = some v ∧
      text v = .valid s.id ∧ s.modelId = Text.trim s.id) ∨
    ∃ v, (entries.get? "run_id").or (entries.get? "id") = some v ∧
      idSource item entries = some v ∧ text v = .valid s.id := by
  obtain ⟨hholds, ⟨v, hsource, htext⟩, hfields⟩ := hwritten
  -- Only a map is given an id; a frozen one has to bring its own.
  by_cases hadded : item = .map entries ∧ lacksId entries = true
  · obtain ⟨rfl, hlacks⟩ := hadded
    rw [idSource, if_pos hlacks] at hsource
    exact .inl ⟨rfl, hlacks, v, hsource, htext, hfields.modelId_eq hsource htext⟩
  · right
    refine ⟨v, ?_, hsource, htext⟩
    unfold idSource at hsource
    split at hsource
    next entries' =>
      cases hholds
      rwa [if_neg fun hlacks => hadded ⟨rfl, hlacks⟩] at hsource
    next => exact hsource

/-- What is read as the id, unless it is empty, is the id that a step is to have. -/
theorem Step.expectedId_of_text {v : Value} {t : String} (htext : text v = .valid t) (ht : t ≠ "")
    (hfound : (entries.get? "run_id").or (entries.get? "id") = some v) :
    s.expectedId entries = t := by
  have hnamed : ∀ key, entries.get? key = some v → namedUnder? entries key = some t := by
    intro key hkey
    exact namedUnder?_eq_some_iff.mpr ⟨v, hkey, htext, ht⟩
  unfold expectedId
  cases hrun : entries.get? "run_id" with
  | some w =>
      rw [hrun, Option.some_or] at hfound
      rw [hnamed _ (hrun.trans hfound)]
      rfl
  | none =>
      rw [hrun, Option.none_or] at hfound
      have hnone : namedUnder? entries "run_id" = none := by simp [namedUnder?, hrun]
      rw [hnone, hnamed _ hfound]
      rfl

theorem Misnames.id_ne (hmisnames : Misnames item entries) (hwritten : s.WrittenBy item entries) :
    s.id ≠ s.expectedId entries := by
  intro hid
  obtain ⟨source, hsource, htext⟩ := hwritten.id
  cases hmisnames with
  | @hidden v hsource' hempty =>
      rw [hsource] at hsource'
      cases hsource'
      rw [htext, hid] at hempty
      have hnonempty : s.expectedId entries ≠ "" :=
        Step.expectedId_ne_empty hwritten.fields.modelId_isTrimmed.1
      exact hnonempty (Checked.valid.inj hempty)
  | @padded v written hitem hlacks hmodel htext' hpadded =>
      rw [hitem, idSource, if_pos hlacks, hmodel] at hsource
      cases hsource
      rw [htext] at htext'
      cases htext'
      rw [Step.expectedId_of_lacksId hlacks, hwritten.fields.modelId_eq hmodel htext] at hid
      exact hpadded hid.symm

theorem Step.WrittenBy.id_eq_expectedId (hwritten : s.WrittenBy item entries)
    (hproper : ¬ Misnames item entries) : s.id = s.expectedId entries := by
  rcases hwritten.id_cases with ⟨hitem, hlacks, v, hmodel, htext, htrim⟩ |
    ⟨v, hfound, hsource, htext⟩
  · have htrimmed : Text.trim s.id = s.id := by
      by_contra hpadded
      exact hproper (.padded hitem hlacks hmodel htext hpadded)
    rw [expectedId_of_lacksId hlacks, htrim, htrimmed]
  · have hid : s.id ≠ "" := by
      intro hempty
      exact hproper (.hidden hsource (hempty ▸ htext))
    exact (expectedId_of_text htext hid hfound).symm

theorem Step.WrittenBy.id_eq_iff (hwritten : s.WrittenBy item entries) :
    s.id = s.expectedId entries ↔ ¬ Misnames item entries := by
  constructor
  · intro hid hmisnames
    exact hmisnames.id_ne hwritten hid
  · exact hwritten.id_eq_expectedId

end

/-! ## Whole documents -/

/-- Each step has the id that its item gives it, which is the one that it is to have unless the item
is of one of two kinds. -/
theorem ids_read_from_items {document : Value} {p : Playbook}
    (hread : ofDocument document = .ok p) :
    ∃ entries items, document = .map entries ∧ stepItems? entries = some items ∧
      List.Forall₂ (fun item step => ∃ fields, item.entries? = some fields ∧
        (∃ v, idSource item fields = some v ∧ text v = .valid step.id) ∧
        (step.id = step.expectedId fields ↔ ¬ Misnames item fields)) items p.steps := by
  obtain ⟨entries, rfl, -, -, -, hfields⟩ := ofDocument_eq_ok.mp hread
  obtain ⟨items, hitems, hreads⟩ := readsSteps_of_readFrom hfields
  refine ⟨entries, items, rfl, hitems, hreads.imp ?_⟩
  intro item step hstep
  obtain ⟨fields, hwritten⟩ := Step.writtenBy_of_item hstep
  exact ⟨fields, hwritten.holds, hwritten.id, hwritten.id_eq_iff⟩

def titled : Playbook :=
  ⟨"demo", "1", "", "", [], [⟨"tax", "tax", none, [], .warnAndContinue, "", []⟩,
    ⟨"net", "num", none, [], .warnAndContinue, "", []⟩,
    ⟨"gross", "num", none, [], .warnAndContinue, "", []⟩], []⟩

def titling : Entries :=
  stepping "steps" [[("model_id", "tax")], [("model_id", "num"), ("run_id", "net")],
    [("model_id", " num "), ("id", "gross")]]

theorem titled_ids :
    ofDocument (.map titling) = .ok titled ∧
    ∃ entries items, Value.map titling = .map entries ∧ stepItems? entries = some items ∧
      List.Forall₂ (fun item step => ∃ fields, item.entries? = some fields ∧
        (∃ v, idSource item fields = some v ∧ text v = .valid step.id) ∧
        (step.id = step.expectedId fields ↔ ¬ Misnames item fields)) items titled.steps := by
  have hread : ofDocument (.map titling) = .ok titled := by
    apply toOption_eq_some.mp
    decide +kernel
  exact ⟨hread, ids_read_from_items hread⟩

def slipped : Playbook :=
  ⟨"demo", "1", "", "", [], [⟨" tax ", "tax", none, [], .warnAndContinue, "", []⟩,
    ⟨"", "num", none, [], .warnAndContinue, "", [(.text "id", .text "net")]⟩], []⟩

def paddedFields : List (String × String) :=
  [("model_id", " tax ")]

def hiddenFields : List (String × String) :=
  [("model_id", "num"), ("run_id", ""), ("id", "net")]

/-- A step is to be named after its model, and gets the blanks around it as well; another one has an
id under the second key, and gets none. -/
theorem slipped_ids :
    ofDocument (.map (stepping "steps" [paddedFields, hiddenFields])) = .ok slipped ∧
    slipped.steps.map (·.id) = [" tax ", ""] ∧ slipped.steps.map (·.modelId) = ["tax", "num"] ∧
    List.zipWith Step.expectedId slipped.steps
      [textEntries paddedFields, textEntries hiddenFields] = ["tax", "net"] := by
  refine ⟨?_, rfl, rfl, by decide +kernel⟩
  apply toOption_eq_some.mp
  decide +kernel

end ModelPlaybook.Playbook
