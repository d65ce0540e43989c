import Mathlib
import ModelPlaybook.Proofs.Playbook.Passage
import ModelPlaybook.Proofs.Playbook.Reporting
import ModelPlaybook.Proofs.Playbook.StepIdentity

/-!
# What a loaded playbook guarantees

The steps of a loaded playbook have different ids and name models, and their inputs are expressions
and literals only, so resolving them breaks no contract.  A literal of the document is among them as
it was written, unless a later key of the same map is read as the same name: bytes as a key are read
as the text that they encode.
-/

namespace ModelPlaybook.Playbook

open ModelPlaybook.Schema ModelPlaybook.Expression Checked

/-! ## Inputs under one name -/

section

variable {inputs : List (String × StepInput)} {name : String}

theorem lookup_filter_ne {other : String} (hname : name ≠ other) :
    (inputs.filter (·.1 != other)).lookup name = inputs.lookup name := by
  induction inputs with
  | nil => rfl
  | cons entry rest ih =>
      obtain ⟨first, input⟩ := entry
      by_cases hfirst : first = other
      · have hskipped : (name == other) = false := by simpa using hname
        simp [hfirst, List.lookup_cons, hskipped, ih]
      · simp [hfirst, List.lookup_cons, ih]

/-- The last input of a name is the one that stays. -/
theorem lookup_mergeInputs (inputs : List (String × StepInput)) (name : String) :
    (mergeInputs inputs).lookup name = inputs.reverse.lookup name := by
  induction inputs with
  | nil => rfl
  | cons entry rest ih =>
      obtain ⟨first, input⟩ := entry
      rw [mergeInputs, List.reverse_cons, List.lookup_append, ← ih]
      by_cases hname : name = first
      · subst hname
        cases hlater : (mergeInputs rest).lookup name <;> simp
      · have hskipped : (name == first) = false := by simpa using hname
        simp [List.lookup_cons, hskipped, lookup_filter_ne hname]

theorem mem_names_mergeInputs :
    name ∈ (mergeInputs inputs).map (·.1) ↔ name ∈ inputs.map (·.1) := by
  induction inputs with
  | nil => rfl
  | cons entry rest ih =>
      obtain ⟨first, input⟩ := entry
      by_cases hname : name = first
      · simp [mergeInputs, hname]
      · simp [mergeInputs, hname, ← ih, List.mem_map]

theorem nodup_names_mergeInputs (inputs : List (String × StepInput)) :
    ((mergeInputs inputs).map (·.1)).Nodup := by
  induction inputs with
  | nil => exact List.nodup_nil
  | cons entry rest ih =>
      obtain ⟨first, input⟩ := entry
      rw [mergeInputs, List.map_cons, List.nodup_cons]
      constructor
      · intro hmem
        obtain ⟨later, hlater, hsame⟩ := List.mem_map.mp hmem
        simpa [hsame] using (List.mem_filter.mp hlater).2
      · exact ih.sublist (List.filter_sublist.map _)

end

/-! ## Inputs that an item writes -/

/-- A literal that an input can be. -/
def isLiteral (v : Value) : Bool :=
  match v with
  | .none => true
  | .bool _ => true
  | .int _ => true
  | .float _ => true
  | .text _ => true
  | _ => false

/-- An input that stands for itself: a literal, but no text that starts like a reference. -/
def StepInput.IsFixed : StepInput → Prop
  | derived _ => False
  | text s => ∀ scope ∈ Scope.reserved, ¬ scope.opening.toList <+: s.toList
  | _ => True

theorem StepInput.toValue_of_isLiteral {v : Value} {input : StepInput}
    (hliteral : isLiteral v = true) (hcheck : check v = .valid input) : input.toValue = v := by
  cases v with
  | scalar a =>
      cases a with
      | none | bool b | int n | float x | text s =>
          cases hcheck
          rfl
      | decimal d | date d | dateTime t | duration d => cases hliteral
  | list items | tuple items | map items | frozenMap items | set items | frozenSet items
  | bytes content | derived expression | foreign typeName origin => cases hliteral

theorem StepInput.derived_or_isLiteral (input : StepInput) :
    (∃ expression, input = .derived expression) ∨ isLiteral input.toValue = true := by
  cases input with
  | derived expression => exact .inl ⟨expression, rfl⟩
  | none | bool b | int n | float x | text s => exact .inr rfl

theorem opensReference_eq_false_iff {s : String} :
    opensReference s = false ↔ ∀ scope ∈ Scope.reserved, ¬ scope.opening.toList <+: s.toList := by
  rw [opensReference, openedScope?, Option.isSome_eq_false_iff, Option.isNone_iff_eq_none,
    List.find?_eq_none]
  simp only [List.isPrefixOf_iff_prefix]

theorem StepInput.resolveInput_of_isFixed (env : Environment) {input : StepInput}
    (hfixed : input.IsFixed) : resolveInput env input.toValue = .ok input.toValue := by
  cases input with
  | derived expression => cases hfixed
  | text s =>
      have hopens : opensReference s = false := opensReference_eq_false_iff.mpr hfixed
      simp [toValue, resolveInput, hopens]
  | none | bool b | int n | float x => rfl

/-- The name and the input of each entry are read one by one. -/
theorem each_eq_valid {entries : Entries} {inputs : List (String × StepInput)} :
    checkInputs.each entries = .valid inputs ↔
      List.Forall₂ (fun entry input => text entry.1 = .valid input.1 ∧
        StepInput.check entry.2 = .valid input.2) entries inputs := by
  induction entries generalizing inputs with
  | nil => simp [checkInputs.each, eq_comm]
  | cons entry rest ih =>
      obtain ⟨key, v⟩ := entry
      simp only [checkInputs.each, map_eq_valid, Prod.exists, both_eq_valid, under_eq_valid, ih,
        List.forall₂_cons_left_iff]
      constructor
      · rintro ⟨name, input, more, ⟨⟨hname, hinput⟩, hmore⟩, rfl⟩
        exact ⟨name, input, more, ⟨hname, hinput⟩, hmore, rfl⟩
      · rintro ⟨name, input, more, ⟨hname, hinput⟩, hmore, rfl⟩
        exact ⟨name, input, more, ⟨⟨hname, hinput⟩, hmore⟩, rfl⟩

theorem checkInputs_eq_valid {v : Value} {inputs : List (String × StepInput)}
    (hcheck : checkInputs v = .valid inputs) :
    ∃ read, checkInputs.each (v.entries?.getD []) = .valid read ∧ inputs = mergeInputs read := by
  unfold checkInputs at hcheck
  split at hcheck
  · cases hcheck
    exact ⟨[], rfl, rfl⟩
  · split at hcheck
    next entries hentries =>
      obtain ⟨read, hread, hsame⟩ := map_eq_valid.mp hcheck
      exact ⟨read, by simpa [hentries] using hread, hsame.symm⟩
    next => exact absurd hcheck fail_ne_valid

/-- The entries that the inputs of a step are read from. -/
def inputEntries (fields : Entries) : Entries :=
  ((fields.get? "input_map").bind Value.entries?).getD []

theorem Step.FieldsFrom.inputs_read {fields : Entries} {s : Step} (hfields : s.FieldsFrom fields) :
    ∃ read, checkInputs.each (inputEntries fields) = .valid read ∧ s.inputs = mergeInputs read := by
  unfold inputEntries
  rcases withDefault_eq_valid.mp hfields.inputs with ⟨habsent, hnone⟩ | ⟨v, hfound, hcheck⟩
  · exact ⟨[], by simp [habsent, checkInputs.each], hnone⟩
  · rw [hfound]
    exact checkInputs_eq_valid hcheck

section

variable {entries before after : Entries} {read : List (String × StepInput)}

theorem mem_names_of_each {name : String} (hread : checkInputs.each entries = .valid read) :
    name ∈ read.map (·.1) ↔ ∃ entry ∈ entries, text entry.1 = .valid name := by
  have heach := each_eq_valid.mp hread
  clear hread
  induction heach with
  | nil => simp
  | cons hentry _ ih =>
      rw [List.map_cons, List.mem_cons, List.exists_mem_cons_iff, hentry.1, valid.injEq]
      exact or_congr eq_comm ih

/-- The last key that is read as a name brings the input that is found under it. -/
theorem lookup_of_each {key v : Value} (hread : checkInputs.each entries = .valid read)
    (hsplit : entries = before ++ (key, v) :: after)
    (hlast : ∀ later ∈ after, text later.1 ≠ text key) :
    ∃ name input, text key = .valid name ∧ StepInput.check v = .valid input ∧
      read.reverse.lookup name = some input := by
  subst hsplit
  -- The entries before the key do not matter, since the search starts at the end.
  induction before generalizing read with
  | nil =>
      obtain ⟨⟨name, input⟩, more, ⟨hname, hinput⟩, hmore, rfl⟩ :=
        List.forall₂_cons_left_iff.mp (each_eq_valid.mp hread)
      refine ⟨name, input, hname, hinput, ?_⟩
      have hother : name ∉ more.map (·.1) := by
        intro hmem
        obtain ⟨later, hlater, hsame⟩ := (mem_names_of_each (each_eq_valid.mpr hmore)).mp hmem
        exact hlast later hlater (hsame.trans hname.symm)
      have hnone : more.reverse.lookup name = none := by
        rw [List.lookup_eq_none_iff]
        intro later hlater
        have hne : name ≠ later.1 := by
          rintro rfl
          exact hother (List.mem_map.mpr ⟨later, List.mem_reverse.mp hlater, rfl⟩)
        simpa using hne
      rw [List.reverse_cons, List.lookup_append, hnone]
      simp
  | cons first before ih =>
      obtain ⟨input, more, -, hmore, rfl⟩ :=
        List.forall₂_cons_left_iff.mp (each_eq_valid.mp hread)
      obtain ⟨name, found, hname, hfound, hlookup⟩ := ih (each_eq_valid.mpr hmore)
      refine ⟨name, found, hname, hfound, ?_⟩
      rw [List.reverse_cons, List.lookup_append, hlookup]
      rfl

end

/-! ## Loaded steps -/

/-- The inputs of a step as a map. -/
def Step.inputMap (s : Step) : Value :=
  .map (s.inputs.map fun (name, input) => (.text name, input.toValue))

/-- What a step guarantees that has been read from an item with some inputs. -/
structure Step.Suits (written : Entries) (s : Step) : Prop where
  model : s.modelId ≠ "" ∧ Text.IsTrimmed s.modelId
  distinct : (s.inputs.map (·.1)).Nodup
  names : ∀ name, name ∈ s.inputs.map (·.1) ↔ ∃ entry ∈ written, text entry.1 = .valid name
  kinds : ∀ input ∈ s.inputs,
    (∃ expression, input.2 = .derived expression) ∨ isLiteral input.2.toValue = true
  keeps : ∀ before key v after, written = before ++ (key, v) :: after →
    (∀ later ∈ after, text later.1 ≠ text key) →
    ∃ name input, text key = .valid name ∧ StepInput.check v = .valid input ∧
      s.inputs.lookup name = some input ∧ (isLiteral v = true → input.toValue = v)
  contract : ∀ env, KeepsContract (resolveInputs env s.inputMap)
  resolves : ∀ env values, resolveInputs env s.inputMap = .ok values →
    values.map (·.1) = s.inputs.map (fun input => .text input.1) ∧
    ∀ (k : Nat) name input, s.inputs[k]? = some (name, input) → input.IsFixed →
      values[k]? = some (.text name, input.toValue)

/-- Resolved inputs stand under the same keys in order, and literals stand for themselves. -/
theorem Step.values_of_resolveInputs {env : Environment} {s : Step} {values : Entries}
    (hvalues : resolveInputs env s.inputMap = .ok values) :
    values.map (·.1) = s.inputs.map (fun input => .text input.1) ∧
    ∀ (k : Nat) name input, s.inputs[k]? = some (name, input) → input.IsFixed →
      values[k]? = some (.text name, input.toValue) := by
  change resolveEntries env _ = .ok values at hvalues
  constructor
  · rw [keys_of_resolveEntries hvalues, List.map_map]
    rfl
  · intro k name input hplace hfixed
    obtain ⟨v, hv, hvalue⟩ := getElem?_of_resolveEntries hvalues hplace
    rw [StepInput.resolveInput_of_isFixed env hfixed] at hv
    cases hv
    exact hvalue

theorem Step.WrittenBy.suits {item : Value} {fields : Entries} {s : Step}
    (hwritten : s.WrittenBy item fields) : s.Suits (inputEntries fields) := by
  obtain ⟨read, hread, hinputs⟩ := hwritten.fields.inputs_read
  refine ⟨hwritten.fields.modelId_isTrimmed, ?_, ?_, ?_, ?_, ?_, ?_⟩
  · rw [hinputs]
    exact nodup_names_mergeInputs read
  · intro name
    rw [hinputs, mem_names_mergeInputs, mem_names_of_each hread]
  · intro input _
    exact input.2.derived_or_isLiteral
  · intro before key v after hsplit hlast
    obtain ⟨name, input, hname, hcheck, hlookup⟩ := lookup_of_each hread hsplit hlast
    refine ⟨name, input, hname, hcheck, ?_, ?_⟩
    · rw [hinputs, lookup_mergeInputs, hlookup]
    · intro hliteral
      exact input.toValue_of_isLiteral hliteral hcheck
  · intro env
    exact keepsContract_resolveEntries env s.inputs
  · intro env values hvalues
    exact Step.values_of_resolveInputs hvalues

/-- A loaded playbook has steps with different ids, each of which the runner can rely on. -/
theorem loaded_steps_suit {document : Value} {p : Playbook} (hread : ofDocument document = .ok p) :
    p.steps ≠ [] ∧ (p.steps.map (·.id)).Nodup ∧
    ∃ entries items, document = .map entries ∧ stepItems? entries = some items ∧
      List.Forall₂ (fun item step => ∃ fields, item.entries? = some fields ∧
        step.Suits (inputEntries fields)) items p.steps := by
  obtain ⟨entries, rfl, -, -, -, hfields⟩ := ofDocument_eq_ok.mp hread
  obtain ⟨v, -, hsteps⟩ := required_pair_eq_valid.mp hfields.steps
  obtain ⟨items, hitems, hreads⟩ := readsSteps_of_readFrom hfields
  refine ⟨(checkSteps_eq_valid.mp hsteps).1, hfields.distinct, entries, items, rfl, hitems, ?_⟩
  refine hreads.imp ?_
  intro item step hstep
  obtain ⟨fields, hwritten⟩ := Step.writtenBy_of_item hstep
  exact ⟨fields, hwritten.holds, hwritten.suits⟩

/-- A document with one step that has some inputs. -/
def assigning (inputs : Entries) : Entries :=
  [(.text "id", .text "demo"), (.text "version", .text "1"), (.text "steps", .list [
    .map [(.text "model_id", .text " tax "), (.text "id", .text "tax"),
      (.text "input_map", .map inputs)]])]

def assigned (inputs : List (String × StepInput)) : Playbook :=
  ⟨"demo", "1", "", "", [], [⟨"tax", "tax", none, inputs, .warnAndContinue, "", []⟩], []⟩

def assortedEntries : Entries :=
  [(.text "flag", .bool true), (.text "count", .int 1), (.text "rate", .float (.ofInt 1)),
    (.text "code", .text "1"), (.text "salary", .text "intake.salary"), (.text "gap", .none),
    (.text "sum", .map [(.text "derived", .text "intake.salary + 1")])]

def assortedInputs : List (String × StepInput) :=
  [("flag", .bool true), ("count", .int 1), ("rate", .float (.ofInt 1)), ("code", .text "1"),
    ("salary", .text "intake.salary"), ("gap", .none), ("sum", .derived "intake.salary + 1")]

theorem assorted_suits :
    ofDocument (.map (assigning assortedEntries)) = .ok (assigned assortedInputs) ∧
    (assigned assortedInputs).steps ≠ [] ∧ ((assigned assortedInputs).steps.map (·.id)).Nodup ∧
    ∃ entries items, Value.map (assigning assortedEntries) = .map entries ∧
      stepItems? entries = some items ∧
      List.Forall₂ (fun item step => ∃ fields, item.entries? = some fields ∧
        step.Suits (inputEntries fields)) items (assigned assortedInputs).steps := by
  have hread : ofDocument (.map (assigning assortedEntries)) = .ok (assigned assortedInputs) := by
    apply toOption_eq_some.mp
    decide +kernel
  exact ⟨hread, loaded_steps_suit hread⟩

/-- The literal under a name is covered by what stands under the bytes that encode the name. -/
theorem encoded_name_covers :
    ofDocument (.map (assigning [(.text "x", .int 1),
        (.bytes [120], .map [(.text "derived", .text "2 + 3")])])) =
      .ok (assigned [("x", .derived "2 + 3")]) ∧
    isLiteral (.int 1) = true ∧
    ∀ step ∈ (assigned [("x", .derived "2 + 3")]).steps, ∀ input ∈ step.inputs,
      input.2.toValue ≠ .int 1 := by
  refine ⟨?_, rfl, by decide⟩
  apply toOption_eq_some.mp
  decide +kernel

end ModelPlaybook.Playbook
