import ModelPlaybook.Proofs.Playbook.Documents
import ModelPlaybook.Proofs.Yaml.Building

/-!
# How loading a playbook fails

A document or a text that holds no playbook is malformed, and loading it says so, but for some
slips.  A stand-in for a blocked name denies being asked for as an id or a version.  Once nothing
else is missing, a key of the document that is not a text is a fault, and so is an id that steps
share if half of a pair stands alone in it, as what is said about it cannot be encoded.  And a text
whose scalars do not fit their tags fails with the fault of the scalar.
-/

namespace ModelPlaybook.Playbook

open ModelPlaybook.Schema

/-- A playbook comes out, or what it was to be read from is malformed. -/
def IsContained (r : Except Error Playbook) : Prop :=
  (∃ p, r = .ok p) ∨ ∃ message issues, r = .error (.malformedPlaybook message issues)

theorem not_isContained_of_fault {r : Except Error Playbook} {fault : Fault}
    (hfault : r = .error (.fault fault)) : ¬ IsContained r := by
  rintro (⟨p, hread⟩ | ⟨message, issues, hmalformed⟩)
  · rw [hfault] at hread
    cases hread
  · rw [hfault] at hmalformed
    cases hmalformed

/-! ## Documents -/

/-- What a document is asked for first is there and no stand-in. -/
def Answers (entries : Entries) : Prop :=
  denial? entries = none ∧ lacks entries = []

/-- A document slips through the checks and fails with a fault. -/
inductive Slips : Value → Fault → Prop where
  /-- The id or the version is a stand-in. -/
  | denied {entries : Entries} {fault : Fault} (hdenial : denial? entries = some fault) :
      Slips (.map entries) fault
  | misnamed {entries : Entries} {entry : Value × Value} (hanswers : Answers entries)
      (hmem : entry ∈ entries) (hother : ∀ name, entry.1 ≠ .text name) :
      Slips (.map entries) badKey
  /-- The id of a step is a stand-in. -/
  | stepDenied {entries : Entries} {fault : Fault} (hanswers : Answers entries)
      (hkeys : hasTextKeys entries = true) (hdenial : stepDenial? entries = some fault) :
      Slips (.map entries) fault
  /-- All fields can be read, but two steps share an id, and it cannot be encoded. -/
  | shares {entries : Entries} {p : Playbook} {id : String} (hanswers : Answers entries)
      (hkeys : hasTextKeys entries = true) (hgranted : stepDenial? entries = none)
      (hfields : checkFields entries = .valid p) (hcount : 1 < (p.steps.map (·.id)).count id)
      (hunencodable : Text.isEncodable id = false) : Slips (.map entries) .badText

section

variable {r : Except Error Playbook} {Slip : Fault → Prop}

end

/-- A complete document with a key that is a number. -/
def misnamed : Value :=
  .map (listing [("steps", "checked")] ++ [(.int 1, .text "x")])

/-- A text of nothing but half of a pair. -/
def half : String := String.singleton (Text.charOfCode 0xD800)

end ModelPlaybook.Playbook
