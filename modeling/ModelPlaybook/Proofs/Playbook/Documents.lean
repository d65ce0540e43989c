import Mathlib.Data.List.Nodup
import ModelPlaybook.Playbook.Document
import ModelPlaybook.Proofs.Failing
import ModelPlaybook.Proofs.Schema.Reading

/-!
# Playbooks that documents write

A document that is read as a playbook has passed two checks.  The first one only asks for an id, a
version and a list of steps; the second one reads all fields.  The two look for the list of steps
under the same two keys, but not in the same order: where a document has both keys, the list that
was asked for is not the one whose steps run.
-/

namespace ModelPlaybook.Playbook

open ModelPlaybook.Schema Checked

/-! ## Fields -/

section

variable {entries : Entries} {p : Playbook}

theorem mem_repeatedIds {ids : List String} {id : String} :
    id ∈ repeatedIds ids ↔ 1 < ids.count id := by
  unfold repeatedIds
  rw [(List.mergeSort_perm _ _).mem_iff, List.mem_eraseDups, List.mem_filter]
  constructor
  · rintro ⟨-, hcount⟩
    simpa using hcount
  · intro hcount
    have hmem : id ∈ ids := List.count_pos_iff.mp (by omega)
    exact ⟨hmem, by simpa using hcount⟩

theorem repeatedIds_eq_nil_iff {ids : List String} : repeatedIds ids = [] ↔ ids.Nodup := by
  rw [List.eq_nil_iff_forall_not_mem, List.nodup_iff_count_le_one]
  simp only [mem_repeatedIds, Nat.not_lt]

/-- Where the fields of a playbook come from. -/
structure ReadFrom (entries : Entries) (p : Playbook) : Prop where
  id : required entries ["id"] text = .valid p.id
  version : required entries ["version"] versionText = .valid p.version
  name : withDefault entries "name" "" text = .valid p.name
  description : withDefault entries "description" "" text = .valid p.description
  intakeFields : withDefault entries "intake_fields" [] checkIntakeFields = .valid p.intakeFields
  steps : required entries ["models", "steps"] checkSteps = .valid p.steps
  extra : unclaimed entries (claimedKey entries ["models", "steps"] ++
    ["id", "version", "name", "description", "intake_fields"]) = .valid p.extra
  distinct : (p.steps.map (·.id)).Nodup

theorem check_eq_valid : check entries = .valid p ↔ p.ReadFrom entries := by
  simp only [check, checkFields, andThen_eq_valid, seq_eq_valid, functorMap_eq_valid]
  constructor
  -- The fields are applied one after the other, so the last of them is the outermost.
  · rintro ⟨read, ⟨_, extra, ⟨_, steps, ⟨_, fields, ⟨_, description, ⟨_, name, ⟨_, version,
      ⟨id, hid, rfl⟩, hversion, rfl⟩, hname, rfl⟩, hdescription, rfl⟩, hfields, rfl⟩, hsteps, rfl⟩,
      hextra, rfl⟩, hdistinct⟩
    split at hdistinct
    · rename_i hnone
      cases hdistinct
      exact ⟨hid, hversion, hname, hdescription, hfields, hsteps, hextra,
        repeatedIds_eq_nil_iff.mp hnone⟩
    · cases hdistinct
  · intro h
    refine ⟨p, ⟨_, _, ⟨_, _, ⟨_, _, ⟨_, _, ⟨_, _, ⟨_, _, ⟨_, h.id, rfl⟩, h.version, rfl⟩, h.name,
      rfl⟩, h.description, rfl⟩, h.intakeFields, rfl⟩, h.steps, rfl⟩, h.extra, rfl⟩, ?_⟩
    rw [repeatedIds_eq_nil_iff.mpr h.distinct]

theorem blocks?_of_text {v : Value} {s : String} (hread : text v = .valid s) :
    v.blocks? = none := by
  cases v with
  | foreign => exact absurd hread fail_ne_valid
  | _ => rfl

theorem blocks?_of_versionText {v : Value} {s : String} (hread : versionText v = .valid s) :
    v.blocks? = none := by
  cases v with
  | foreign => exact absurd hread fail_ne_valid
  | _ => rfl

theorem denial?_of_required {key s : String} {check : Value → Checked String}
    (hcheck : ∀ {v : Value}, check v = .valid s → v.blocks? = none)
    (hfield : required entries [key] check = .valid s) :
    (entries.get? key).bind (·.denial?) = none := by
  obtain ⟨v, hfound, hread⟩ := required_single_eq_valid.mp hfield
  simp [hfound, Value.denial?, hcheck hread]

/-- The id and the version of a playbook are no stand-ins. -/
theorem ReadFrom.denial?_eq_none (hfields : p.ReadFrom entries) : denial? entries = none := by
  simp [denial?, denial?_of_required blocks?_of_text hfields.id,
    denial?_of_required blocks?_of_versionText hfields.version]

theorem ofDocument_eq_ok {document : Value} :
    ofDocument document = .ok p ↔
      ∃ entries, document = .map entries ∧ lacks entries = [] ∧ hasTextKeys entries = true ∧
        stepDenial? entries = none ∧ p.ReadFrom entries := by
  constructor
  · intro h
    unfold ofDocument at h
    split at h
    · rename_i entries
      split at h
      · cases h
      · rename_i hlacks
        by_cases hkeys : hasTextKeys entries = true
        · rw [if_pos hkeys] at h
          split at h
          · cases h
          · rename_i hgranted hchecked
            cases h
            exact ⟨entries, rfl, hlacks, hkeys, hgranted, check_eq_valid.mp hchecked⟩
          · split at h <;> cases h
        · rw [if_neg hkeys] at h
          cases h
      · cases h
    · cases h
  · rintro ⟨entries, rfl, hlacks, hkeys, hgranted, hread⟩
    simp [ofDocument, hread.denial?_eq_none, hlacks, hkeys, hgranted, check_eq_valid.mpr hread]

/-- A playbook is what the document in its text writes. -/
theorem ofText_eq_ok {s : String} :
    ofText s = .ok p ↔ ∃ document, Yaml.read s = .ok document ∧ ofDocument document = .ok p := by
  unfold ofText
  cases Yaml.read s with
  | ok document => simp
  | error failure => cases failure <;> simp

/-- The steps of a playbook that a document writes have different ids. -/
theorem nodup_ids_of_ofDocument {document : Value} (hread : ofDocument document = .ok p) :
    (p.steps.map (·.id)).Nodup := by
  obtain ⟨_, -, -, -, -, hfields⟩ := ofDocument_eq_ok.mp hread
  exact hfields.distinct

end

/-- A field that is not claimed stays as it is. -/
theorem get?_of_unclaimed {entries extra : Entries} {claimed : List String} {name : String}
    (hextra : unclaimed entries claimed = .valid extra) (hname : name ∉ claimed) :
    extra.get? name = entries.get? name := by
  induction entries generalizing extra with
  | nil =>
      cases hextra
      rfl
  | cons entry rest ih =>
      obtain ⟨key, v⟩ := entry
      unfold unclaimed at hextra
      split at hextra
      · rename_i name' hfield
        have hkey := text?_of_fieldName? hfield
        obtain ⟨more, hmore, rfl⟩ := map_eq_valid.mp hextra
        have hrest := ih hmore
        by_cases hclaimed : claimed.contains name' = true
        · have hother : name' ≠ name := by
            rintro rfl
            exact hname (List.contains_iff_mem.mp hclaimed)
          rw [if_pos hclaimed, hrest]
          simp [Entries.get?, hkey, hother]
        · rw [if_neg hclaimed]
          by_cases hsame : name' = name
          · simp [Entries.get?, hkey, hsame]
          · simpa [Entries.get?, hkey, hsame] using hrest
      · obtain ⟨⟨_, more⟩, hboth, -⟩ := map_eq_valid.mp hextra
        exact absurd (under_eq_valid.mp (both_eq_valid.mp hboth).1) fail_ne_valid

/-! ## The list of steps -/

/-- What is asked for before the schema is looked at. -/
theorem exists_steps_of_lacks {entries : Entries} (hlacks : lacks entries = []) :
    ∃ first rest, (entries.get? "steps").or (entries.get? "models") =
      some (.list (first :: rest)) := by
  have hsteps := (List.append_eq_nil_iff.mp hlacks).2
  split at hsteps
  · rename_i first rest hfound
    exact ⟨first, rest, hfound⟩
  · cases hsteps

/-- Each step is read from the item at its place. -/
def ReadsSteps (items : List Value) (steps : List Step) : Prop :=
  List.Forall₂ (fun item step => record "StepDefinition" Step.check (withStepId item) = .valid step)
    items steps

theorem checkSteps_eq_valid {v : Value} {steps : List Step} :
    checkSteps v = .valid steps ↔
      steps ≠ [] ∧ ∃ items, items? v = some items ∧ ReadsSteps items steps := by
  unfold checkSteps
  simp only [andThen_eq_valid, listOf_eq_valid]
  constructor
  · rintro ⟨steps', hitems, hsome⟩
    split at hsome
    · cases hsome
    · rename_i hnonempty
      cases hsome
      exact ⟨by simpa using hnonempty, hitems⟩
  · rintro ⟨hnonempty, hitems⟩
    exact ⟨steps, hitems, by simp [hnonempty]⟩

/-- The list that is inspected before the schema is looked at, and the list that the steps are read
from.  A list that is only inspected stays with the fields that no one reads. -/
structure Lists (entries : Entries) (p : Playbook) (inspected items : List Value) : Prop where
  inspects : (entries.get? "steps").or (entries.get? "models") = some (.list inspected)
  uses : ((entries.get? "models").or (entries.get? "steps")).bind items? = some items
  reads : ReadsSteps items p.steps
  same : entries.get? "models" = none ∨ entries.get? "steps" = none → items = inspected
  unread : entries.get? "models" ≠ none → p.extra.get? "steps" = entries.get? "steps"

theorem claim?_steps {entries : Entries} {key : String} {v : Value}
    (hclaim : claim? entries ["models", "steps"] = some (key, v)) :
    (entries.get? "models").or (entries.get? "steps") = some v ∧
      (entries.get? "models" ≠ none → key = "models") := by
  rw [claim?_pair] at hclaim
  cases hmodels : entries.get? "models" with
  | none =>
      cases hsteps : entries.get? "steps" with
      | none => simp [hmodels, hsteps] at hclaim
      | some w =>
          have hpair : "steps" = key ∧ w = v := by simpa [hmodels, hsteps] using hclaim
          simp [hpair.2]
  | some w =>
      have hpair : "models" = key ∧ w = v := by simpa [hmodels] using hclaim
      simp [hpair.1, hpair.2]

theorem steps_read_from_list {document : Value} {p : Playbook}
    (hread : ofDocument document = .ok p) :
    ∃ entries inspected items, document = .map entries ∧ inspected ≠ [] ∧
      Lists entries p inspected items := by
  obtain ⟨entries, rfl, hlacks, -, -, hfields⟩ := ofDocument_eq_ok.mp hread
  obtain ⟨first, rest, hinspected⟩ := exists_steps_of_lacks hlacks
  obtain ⟨key, v, hclaim, hsteps⟩ := required_eq_valid.mp hfields.steps
  obtain ⟨-, items, hitems, hreads⟩ := checkSteps_eq_valid.mp hsteps
  obtain ⟨hfound, hkey⟩ := claim?_steps hclaim
  refine ⟨entries, first :: rest, items, rfl, List.cons_ne_nil _ _, hinspected, ?_, hreads, ?_, ?_⟩
  · rw [hfound]
    exact hitems
  · intro hmissing
    have hsame : some v = some (.list (first :: rest)) := by
      rw [← hfound, ← hinspected]
      rcases hmissing with hnone | hnone
      · simp [hnone]
      · simp [hnone]
    cases hsame
    simpa [items?, Value.sequence?, eq_comm] using hitems
  · intro hmodels
    obtain rfl := hkey hmodels
    exact get?_of_unclaimed hfields.extra (by simp [claimedKey, hclaim])

/-- A step of which only the model is given. -/
def itemOf (modelId : String) : Value :=
  .map [(.text "model_id", .text modelId)]

def stepOf (modelId : String) : Step :=
  ⟨modelId, modelId, none, [], .warnAndContinue, "", []⟩

/-- Entries with one list of one step under each of some keys. -/
def listing (lists : List (String × String)) : Entries :=
  [(.text "id", .text "demo"), (.text "version", .text "1")] ++
    lists.map fun (key, modelId) => (.text key, .list [itemOf modelId])

def listed (modelId : String) (extra : Entries) : Playbook :=
  ⟨"demo", "1", "", "", [], [stepOf modelId], extra⟩

theorem reads_single_list :
    ofDocument (.map (listing [("steps", "checked")])) = .ok (listed "checked" []) ∧
    ∃ entries inspected items, Value.map (listing [("steps", "checked")]) = .map entries ∧
      inspected ≠ [] ∧ Lists entries (listed "checked" []) inspected items := by
  have hread : ofDocument (.map (listing [("steps", "checked")])) = .ok (listed "checked" []) := by
    apply toOption_eq_some.mp
    decide +kernel
  exact ⟨hread, steps_read_from_list hread⟩

/-- The list under `steps` is asked for, and the one under `models` is read. -/
theorem listed_steps_replaced :
    ofDocument (.map (listing [("steps", "checked"), ("models", "used")])) =
      .ok (listed "used" [(.text "steps", .list [itemOf "checked"])]) ∧
    (listing [("steps", "checked"), ("models", "used")]).get? "steps" =
      some (.list [itemOf "checked"]) ∧
    ¬ ReadsSteps [itemOf "checked"]
      (listed "used" [(.text "steps", .list [itemOf "checked"])]).steps := by
  refine ⟨?_, rfl, ?_⟩
  · apply toOption_eq_some.mp
    decide +kernel
  · intro hreads
    have hchecked : record "StepDefinition" Step.check (withStepId (itemOf "checked")) =
        .valid (stepOf "checked") := rfl
    have hused := (List.forall₂_cons.mp hreads).1
    rw [hchecked, valid.injEq] at hused
    exact absurd (congrArg Step.id hused) (by decide)

end ModelPlaybook.Playbook
