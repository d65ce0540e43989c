import Mathlib.Data.List.Basic
import ModelPlaybook.Expression.Condition
import ModelPlaybook.Proofs.Expression.Reader
import ModelPlaybook.Proofs.Expression.Scanning

/-!
# References that a text can name

A text names an intake field by one segment and an output of a step by two.  No segment holds a
point, so the path of a reference tells its scope and its segments.
-/

namespace ModelPlaybook.Expression

theorem takeWhile_ne_append {c : Char} {before : List Char} (after : List Char)
    (hbefore : c ∉ before) :
    (before ++ c :: after).takeWhile (· ≠ c) = before := by
  rw [List.takeWhile_append_of_pos]
  · simp
  · intro other hother
    simpa using ne_of_mem_of_not_mem hother hbefore

theorem splitAtPoint_append {step : String} (output : String) (hstep : '.' ∉ step.toList) :
    splitAtPoint (step ++ "." ++ output) = (step, output) := by
  have hchars : (step ++ "." ++ output).toList = step.toList ++ '.' :: output.toList := by
    simp
  have htake : (step.toList ++ '.' :: output.toList).takeWhile (· ≠ '.') = step.toList :=
    takeWhile_ne_append output.toList hstep
  have hdrop : (step.toList ++ '.' :: output.toList).drop (step.toList.length + 1) =
      output.toList := by
    simp
  unfold splitAtPoint
  simp only [hchars, htake, hdrop, String.ofList_toList]

/-! ## Names in texts -/

/-- What a field reference of a scope can be named. -/
inductive Scope.Names : Scope → String → Prop where
  | intake {field : String} (hfield : '.' ∉ field.toList) : Names .intake field
  | steps {step output : String} (hstep : '.' ∉ step.toList) (houtput : '.' ∉ output.toList) :
      Names .steps (step ++ "." ++ output)

theorem point_not_mem_of_isName {name : List Char} (hname : IsName name) : '.' ∉ name := by
  intro hmem
  have hpoint := hname.2 '.' hmem
  exact absurd hpoint (by decide)

theorem Scope.Spells.names {scope : Scope} {name : List Char} (hname : scope.Spells name) :
    scope.Names (String.ofList name) := by
  cases hname with
  | intake hname => exact .intake (by simpa using point_not_mem_of_isName hname)
  | @steps step output hstep houtput =>
      have hsplit : String.ofList (step ++ '.' :: output) =
          String.ofList step ++ "." ++ String.ofList output := by
        apply String.toList_inj.mp
        simp
      rw [hsplit]
      exact .steps (by simpa using point_not_mem_of_isName hstep)
        (by simpa using point_not_mem_of_isName houtput)

theorem FoundAt.names {dialect : Dialect} {position extra : Nat} {c : Char} {rest : List Char}
    {scope : Scope} {name : String}
    (hfound : FoundAt dialect position c rest (.field scope name) extra) :
    scope.Names name := by
  cases hfound with
  | field hstarts hopened hname =>
      exact (spells_of_fieldName (List.mem_of_find?_eq_some hopened) hname).1.names
  | single hstarts hopened hsingle => exact absurd rfl ((kind_of_ofSingle? hsingle).2 scope name)

theorem names_of_mem_tokens {dialect : Dialect} {text : String} {ts : List Token} {t : Token}
    {scope : Scope} {name : String} (hts : tokens dialect text = .ok ts) (ht : t ∈ ts)
    (hfield : t.lexeme = .field scope name) :
    scope.Names name := by
  rcases foundAt_of_mem_tokens hts ht with hending | ⟨c, rest, extra, hfound⟩
  · rw [hending] at hfield
    cases hfield
  · rw [hfield] at hfound
    exact hfound.names

/-! ## References of trees and conditions -/

/-- A reference that some text can write. -/
def Reference.Writable (r : Reference) : Prop :=
  r.scope.Names r.name

theorem Tree.writable_of_ofText {text : String} {tree : Tree} (hread : Tree.ofText text = .ok tree)
    {r : Reference} (hr : r ∈ tree.references) :
    r.Writable := by
  obtain ⟨ts, used, hts, hused, hwrites⟩ := Tree.writes_of_ofText hread
  obtain ⟨t, ht, hfield, hposition⟩ := hwrites.exists_field hr
  exact names_of_mem_tokens hts (hused ht) hfield

theorem Operand.exists_field {text : String} {ts rest : List Token} {operand : Operand}
    (hread : Operand.ofTokens text ts = .ok (operand, rest)) :
    rest ⊆ ts ∧ ∀ r, operand = .reference r → ∃ t ∈ ts, t.lexeme = .field r.scope r.name := by
  unfold Operand.ofTokens at hread
  split at hread
  · cases hread
  next t rest' =>
    split at hread
    next value ht =>
      cases hread
      exact ⟨List.subset_cons_self _ _, by rintro r ⟨⟩⟩
    next scope name ht =>
      cases hread
      refine ⟨List.subset_cons_self _ _, fun r hr => ?_⟩
      cases hr
      exact ⟨t, List.mem_cons_self, ht⟩
    next ht =>
      split at hread
      · cases hread
      next u rest' =>
        split at hread
        next value hu =>
          cases hread
          refine ⟨fun x hx => ?_, by rintro r ⟨⟩⟩
          exact List.mem_cons_of_mem _ (List.mem_cons_of_mem _ hx)
        · cases hread
    · cases hread

theorem Condition.mem_references {c : Condition} {r : Reference} :
    r ∈ c.references ↔ c.left = .reference r ∨ c.right = .reference r := by
  obtain ⟨left, comparator, right⟩ := c
  cases left <;> cases right <;> simp [Condition.references, eq_comm]

theorem Condition.exists_field {text : String} {ts : List Token} {c : Condition}
    (hread : Condition.ofTokens text ts = .ok c) {r : Reference} (hr : r ∈ c.references) :
    ∃ t ∈ ts, t.lexeme = .field r.scope r.name := by
  unfold Condition.ofTokens at hread
  obtain ⟨⟨left, rest⟩, hleft, hread⟩ := bind_eq_ok.mp hread
  obtain ⟨hrest, hleftField⟩ := Operand.exists_field hleft
  simp only at hread
  split at hread
  · cases hread
  next t rest' =>
    split at hread
    next k ht =>
      obtain ⟨⟨right, rest''⟩, hright, hread⟩ := bind_eq_ok.mp hread
      obtain ⟨-, hrightField⟩ := Operand.exists_field hright
      simp only at hread
      split at hread
      · cases hread
      · split at hread
        · cases hread
          rcases Condition.mem_references.mp hr with hr | hr
          · exact hleftField r hr
          · obtain ⟨u, hu, hfield⟩ := hrightField r hr
            exact ⟨u, hrest (List.mem_cons_of_mem _ hu), hfield⟩
        · cases hread
    · cases hread

theorem Condition.writable_of_ofText {text : String} {c : Condition}
    (hread : Condition.ofText text = .ok c) {r : Reference} (hr : r ∈ c.references) :
    r.Writable := by
  obtain ⟨ts, hts, hc⟩ := bind_eq_ok.mp hread
  obtain ⟨t, ht, hfield⟩ := Condition.exists_field hc hr
  exact names_of_mem_tokens hts ht hfield

/-! ## Paths -/

theorem Reference.Writable.path_eq_intake_iff {r : Reference} (hr : r.Writable) {field : String} :
    r.path = "intake." ++ field ↔ r.scope = .intake ∧ r.name = field := by
  obtain ⟨scope, name, position⟩ := r
  cases hr with
  | intake hfield =>
      simp [Reference.path, Scope.text, String.append_right_inj]
  | steps hstep houtput =>
      simp [Reference.path, Scope.text, ← String.toList_inj]

theorem Reference.Writable.path_eq_steps_iff {r : Reference} (hr : r.Writable)
    {step output : String} :
    r.path = "steps." ++ step ++ "." ++ output ↔
      r.scope = .steps ∧ splitAtPoint r.name = (step, output) := by
  obtain ⟨scope, name, position⟩ := r
  have hnames : scope.Names name := hr
  cases hnames with
  | intake hfield =>
      simp [Reference.path, Scope.text, ← String.toList_inj]
  | @steps step' output' hstep houtput =>
      have hsegments : step' ++ "." ++ output' = step ++ "." ++ output ↔
          step' = step ∧ output' = output := by
        have hpoint : step'.toList ++ '.' :: output'.toList = step.toList ++ '.' :: output.toList ↔
            step'.toList = step.toList ∧ '.' = '.' ∧ output'.toList = output.toList :=
          List.append_cons_inj_of_notMem hstep houtput
        simpa [← String.toList_inj] using hpoint
      have hpath : "steps" ++ "." ++ (step' ++ "." ++ output') =
            "steps." ++ step ++ "." ++ output ↔
          step' ++ "." ++ output' = step ++ "." ++ output := by
        simp [← String.toList_inj]
      simp only [Reference.path, Scope.text, hpath, hsegments,
        splitAtPoint_append output' hstep, true_and, Prod.mk.injEq]

end ModelPlaybook.Expression
