import ModelPlaybook.Proofs.Expression.Overflow
import ModelPlaybook.Proofs.Playbook.ReferenceText

/-!
# A reference as an input and as an expression

A text that opens like a reference is one if nothing but blanks stands behind a name.  It can be the
input of a step by itself, or as the expression of a derived input.  Both look the same field up;
the expression is particular about the value, which has to be a finite number.
-/

namespace ModelPlaybook.Playbook

open ModelPlaybook.Expression

/-! ## Texts that open like a reference -/

section

variable {s : String} {r : Reference}

theorem trim_of_opensReference (hopens : opensReference s = true) :
    (Text.trim s).toList = Text.trimRightChars s.toList := by
  obtain ⟨scope, hscope⟩ := Option.isSome_iff_exists.mp hopens
  obtain ⟨rest, hrest⟩ := starts_of_openedScope? hscope
  have hreserved := List.mem_of_find?_eq_some hscope
  have hfirst : ∀ c ∈ s.toList.head?, Text.isBlank c = false := by
    rw [← hrest]
    simp only [Scope.reserved, List.mem_cons, List.not_mem_nil, or_false] at hreserved
    rcases hreserved with rfl | rfl
    · rintro c ⟨⟩
      decide
    · rintro c ⟨⟩
      decide
  rw [Text.trim, String.toList_ofList, Text.trimChars, Text.trimLeftChars_eq_self hfirst]

theorem path_of_referenceOfText (hread : referenceOfText s = .ok r) :
    r.path.toList = (Text.trim s).toList := by
  obtain ⟨scope, name, -, htext, rfl⟩ := referenceOfText_eq_ok_iff.mp hread
  rw [htext]
  simp [Reference.path, Scope.opening]

/-- A reference is also an expression, with blanks behind it or without. -/
theorem ofText_of_referenceOfText (hopens : opensReference s = true)
    (hread : referenceOfText s = .ok r) : Tree.ofText s = .ok (.reference r) := by
  obtain ⟨scope, name, hname, htext, rfl⟩ := referenceOfText_eq_ok_iff.mp hread
  obtain ⟨blanks, hblanks, hsplit⟩ := Text.exists_blanks_of_trimRightChars s.toList
  rw [← trim_of_opensReference hopens, htext] at hsplit
  apply ofText_of_writtenAs
  exact ⟨[], _, blanks, List.forall_mem_nil _, hblanks, hsplit, .reference hname⟩

end

/-! ## The two ways to write an input -/

/-- The inputs that compute a value from a text. -/
def derivedInputs (s : String) : List Value :=
  [.derived s, .map [(.text "derived", .text s)], .frozenMap [(.text "derived", .text s)]]

theorem resolveInput_derived (env : Environment) {s : String} {input : Value}
    (hinput : input ∈ derivedInputs s) :
    resolveInput env input = (evaluate env (.text s)).map Number.toValue := by
  have heach : ∀ input ∈ derivedInputs s,
      resolveInput env input = evaluate env (.text s) >>= fun x => pure x.toValue := by
    simp only [derivedInputs, List.forall_mem_cons]
    exact ⟨rfl, rfl, rfl, List.forall_mem_nil _⟩
  rw [heach input hinput]
  cases evaluate env (.text s) <;> rfl

theorem resolveInput_reference (env : Environment) {s : String} {r : Reference}
    (hopens : opensReference s = true) (hread : referenceOfText s = .ok r) :
    resolveInput env (.text s) = env.lookup r := by
  simp only [resolveInput, if_pos hopens, hread]

/-- The value that an input gives, and the one that an expression gives of the same reference. -/
inductive AgreeOn (r : Reference) :
    Except Failure Value → Except Failure Value → Prop where
  | missing :
      AgreeOn r (.error (.unknownField r.path (some 0))) (.error (.unknownField r.path (some 0)))
  | number {x : Number} (hfinite : x.isFinite = true) : AgreeOn r (.ok x.toValue) (.ok x.toValue)
  | other {v : Value} (hv : ∀ x : Number, x.isFinite = true → v ≠ x.toValue) :
      AgreeOn r (.ok v) (.error (.evaluation (.notFinite r.path v.typeName)))

theorem agree_of_lookup (env : Environment) {r : Reference} (hposition : r.position = some 0) :
    AgreeOn r (env.lookup r) (((Tree.reference r).evaluate env).map Number.toValue) := by
  cases hlookup : env.lookup? r with
  | none =>
      have hmissing : env.lookup r = .error (.unknownField r.path (some 0)) := by
        rw [Environment.lookup, hlookup, hposition]
      rw [Tree.evaluate, hmissing]
      exact .missing
  | some v =>
      have hfound : env.lookup r = .ok v := by rw [Environment.lookup, hlookup]
      by_cases hnumber : ∃ x : Number, x.isFinite = true ∧ v = x.toValue
      · obtain ⟨x, hfinite, rfl⟩ := hnumber
        rw [(evaluate_reference_eq_ok hlookup).mpr ⟨hfinite, rfl⟩, hfound]
        exact .number hfinite
      · have hv : ∀ x : Number, x.isFinite = true → v ≠ x.toValue :=
          fun x hfinite hx => hnumber ⟨x, hfinite, hx⟩
        have hnone : finiteNumber? v = none := by
          cases hx : finiteNumber? v with
          | none => rfl
          | some x => exact absurd (finiteNumber?_eq_some hx) (fun h => hv x h.1 h.2)
        have hfails : (Tree.reference r).evaluate env =
            .error (.evaluation (.notFinite r.path v.typeName)) := by
          rw [Tree.evaluate, hfound]
          simp only [bind, Except.bind, hnone]
        rw [hfails, hfound]
        exact .other hv

/-- A text that opens like a reference is one just if it is the opening of a scope and a name, apart
from blanks behind it.  Then it finds the same as an input and as an expression; any other text is a
malformed input. -/
theorem reference_inputs_agree {s : String} (hopens : opensReference s = true) :
    ((∃ r, referenceOfText s = .ok r) ↔
      ∃ scope name, Scope.Spells scope name ∧
        Text.trimRightChars s.toList = scope.opening.toList ++ name) ∧
    (∀ r, referenceOfText s = .ok r →
      r.path.toList = Text.trimRightChars s.toList ∧
      ∀ env, ∀ input ∈ derivedInputs s,
        AgreeOn r (resolveInput env (.text s)) (resolveInput env input)) ∧
    ∀ fault, referenceOfText s = .error fault →
      ∀ env, resolveInput env (.text s) = .error (.malformed fault) := by
  have htrim := trim_of_opensReference hopens
  refine ⟨?_, fun r hread => ⟨?_, fun env input hinput => ?_⟩, fun fault hread env => ?_⟩
  · simp only [referenceOfText_eq_ok_iff, htrim]
    constructor
    · rintro ⟨r, scope, name, hname, htext, -⟩
      exact ⟨scope, name, hname, htext⟩
    · rintro ⟨scope, name, hname, htext⟩
      exact ⟨_, scope, name, hname, htext, rfl⟩
  · rw [path_of_referenceOfText hread, htrim]
  · obtain ⟨scope, name, -, -, hr⟩ := referenceOfText_eq_ok_iff.mp hread
    have hposition : r.position = some 0 := congrArg Reference.position hr
    have htree := ofText_of_referenceOfText hopens hread
    rw [resolveInput_reference env hopens hread, resolveInput_derived env hinput, evaluate_text,
      htree]
    exact agree_of_lookup env hposition
  · simp only [resolveInput, if_pos hopens, hread]

/-- A truth value is an input, but no number for an expression. -/
theorem flag_agrees :
    opensReference "intake.flag " = true ∧
    referenceOfText "intake.flag " = .ok ⟨.intake, "flag", some 0⟩ ∧
    ∀ input ∈ derivedInputs "intake.flag ",
      AgreeOn ⟨.intake, "flag", some 0⟩ (.ok (.bool true))
        (resolveInput ⟨[(.text "flag", .bool true)], []⟩ input) := by
  have hopens : opensReference "intake.flag " = true := by decide
  have hchars : IsName ['f', 'l', 'a', 'g'] :=
    ⟨List.cons_ne_nil _ _, List.all_eq_true.mp (by decide)⟩
  have hread : referenceOfText "intake.flag " = .ok ⟨.intake, "flag", some 0⟩ :=
    referenceOfText_eq_ok_iff.mpr ⟨.intake, _, .intake hchars, by decide, rfl⟩
  obtain ⟨-, hagree, -⟩ := reference_inputs_agree hopens
  have hvalue : resolveInput ⟨[(.text "flag", .bool true)], []⟩ (.text "intake.flag ") =
      .ok (.bool true) := resolveInput_reference _ hopens hread
  refine ⟨hopens, hread, fun input hinput => ?_⟩
  rw [← hvalue]
  exact (hagree _ hread).2 _ input hinput

end ModelPlaybook.Playbook
