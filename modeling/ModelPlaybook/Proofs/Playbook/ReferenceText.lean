import ModelPlaybook.Playbook.Input
import ModelPlaybook.Proofs.Expression.Lexemes
import ModelPlaybook.Proofs.Expression.Reference
import ModelPlaybook.Proofs.Text.Trimming

/-!
# Texts that are references

A text is a reference if, without the blanks at its ends, it is the opening of a scope and a name.
So an id and the key of an output, joined by a point, make up a reference only if both of them are
names.  Of any other id the scan takes the letters, digits and underscores at its start, and what is
left of the text is no part of a reference.
-/

namespace ModelPlaybook.Playbook

open ModelPlaybook.Expression

/-! ## References in texts -/

theorem exists_field_of_referenceOfText {s : String} {r : Reference}
    (hread : referenceOfText s = .ok r) :
    ∃ t u, tokens .arithmetic (Text.trim s) = .ok [t, u] ∧ t.lexeme = .field r.scope r.name ∧
      r.position = some 0 := by
  obtain ⟨ts, hts, hr⟩ := bind_eq_ok.mp hread
  split at hr
  next t u =>
    split at hr
    next scope name hfield =>
      cases hr
      exact ⟨t, u, hts, hfield, rfl⟩
    · cases hr
  · cases hr

theorem referenceOfText_eq_ok_iff {s : String} {r : Reference} :
    referenceOfText s = .ok r ↔
      ∃ scope name, scope.Spells name ∧ (Text.trim s).toList = scope.opening.toList ++ name ∧
        r = ⟨scope, String.ofList name, some 0⟩ := by
  constructor
  · intro hread
    obtain ⟨t, u, hts, hfield, hposition⟩ := exists_field_of_referenceOfText hread
    obtain ⟨hfirst, hlast⟩ := Text.isTrimmed_trim s
    have hheads := (cutFrom_of_tokens hts).heads_of_pair hfirst hlast
    rw [hfield] at hheads
    obtain ⟨name, hname, hwhole, htext⟩ := hheads.exists_name
    refine ⟨r.scope, name, hname, hwhole, ?_⟩
    rw [← htext, ← hposition]
  · rintro ⟨scope, name, hname, htext, rfl⟩
    have hscans : ScansTo 0 (scope.opening.toList ++ name)
        [⟨.field scope (String.ofList name), 0⟩] := .field hname
    have hscan := hscans .arithmetic (Text.trim s) [] stops_nil
    rw [List.append_nil, ← htext] at hscan
    simp only [referenceOfText, tokens, scan, hscan, scanFrom, Scan.after]
    rfl

/-! ## References to outputs -/

/-- The text that is to refer to an output of a step. -/
def outputText (id output : String) : String :=
  "steps." ++ id ++ "." ++ output

theorem toList_outputText (id output : String) :
    (outputText id output).toList =
      Scope.steps.opening.toList ++ (id.toList ++ '.' :: output.toList) := by
  simp [outputText, Scope.opening, Scope.text]

theorem opensReference_outputText (id output : String) :
    opensReference (outputText id output) = true := by
  rw [opensReference, toList_outputText]
  rfl

section

variable {id output : String}

theorem isWordChar_of_getLast? (houtput : ∀ c ∈ output.toList, isNameChar c = true) (cs : List Char)
    {c : Char} (hc : c ∈ (cs ++ '.' :: output.toList).getLast?) :
    isWordChar c = true := by
  have hne : '.' :: output.toList ≠ [] := List.cons_ne_nil _ _
  rw [List.getLast?_append_of_ne_nil cs hne] at hc
  rcases List.mem_cons.mp (List.mem_of_getLast? hc) with rfl | hc
  · decide
  · simp [isWordChar, houtput c hc]

theorem trim_outputText (houtput : ∀ c ∈ output.toList, isNameChar c = true) :
    Text.trim (outputText id output) = outputText id output := by
  apply Text.trim_eq_self
  rw [Text.IsTrimmed, toList_outputText]
  constructor
  · rintro c ⟨⟩
    decide
  · intro c hc
    rw [← List.append_assoc] at hc
    exact isBlank_of_isWordChar (isWordChar_of_getLast? houtput _ hc)

theorem referenceOfText_of_isName (hid : IsName id.toList) (houtput : IsName output.toList) :
    referenceOfText (outputText id output) = .ok ⟨.steps, id ++ "." ++ output, some 0⟩ := by
  have hname : String.ofList (id.toList ++ '.' :: output.toList) = id ++ "." ++ output := by
    apply String.toList_inj.mp
    simp
  apply referenceOfText_eq_ok_iff.mpr
  refine ⟨.steps, _, .steps hid houtput, ?_, by rw [hname]⟩
  rw [trim_outputText houtput.2, toList_outputText]

theorem isName_of_referenceOfText (houtput : ∀ c ∈ output.toList, isNameChar c = true)
    {r : Reference} (hread : referenceOfText (outputText id output) = .ok r) :
    IsName id.toList ∧ IsName output.toList := by
  obtain ⟨scope, name, hname, htext, -⟩ := referenceOfText_eq_ok_iff.mp hread
  rw [trim_outputText houtput, toList_outputText] at htext
  cases hname with
  | intake hname => exact absurd (List.head_eq_of_cons_eq htext) (by decide)
  | steps hstep hkey =>
      have hfields := List.append_cancel_left htext
      -- No segment holds a point, so the first point is the one between the id and the key.
      obtain ⟨rfl, -, rfl⟩ := (List.append_cons_inj_of_notMem (point_not_mem_of_isName hstep)
        (point_not_mem_of_isName hkey)).mp hfields.symm
      exact ⟨hstep, hkey⟩

end

end ModelPlaybook.Playbook
