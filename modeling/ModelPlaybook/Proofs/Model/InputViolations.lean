import Mathlib
import ModelPlaybook.Proofs.Playbook.NumberChecks
import ModelPlaybook.Proofs.Value.Lookup
import ModelPlaybook.Proofs.Value.Signaling

/-!
# Violations of declared inputs

A declared input can be violated in seven ways, at most one of which applies to given inputs.  A
verdict reports each declared input that is violated, with one message and in the order of the
manifest, and nothing else.  So it depends only on what the inputs hold under the declared names.
-/

namespace ModelPlaybook

/-! ## Membership -/

namespace Value

variable {v : Value} {values : List Value}

theorem isAmong_eq_ok_false_iff : v.isAmong values = .ok false ↔ ∀ d ∈ values, d.Differs v := by
  rw [isAmong, bind_eq_ok]
  constructor
  · rintro ⟨found, hfound, hnone⟩
    cases found with
    | none => exact findFirst_eq_none_iff.mp hfound
    | some d => cases hnone
  · intro hdiffers
    exact ⟨Option.none, findFirst_eq_none_iff.mpr hdiffers, rfl⟩

theorem isAmong_eq_ok_true_iff :
    v.isAmong values = .ok true ↔
      ∃ front d back, values = front ++ d :: back ∧ (∀ e ∈ front, e.Differs v) ∧ d.Matches v := by
  rw [isAmong, bind_eq_ok]
  constructor
  · rintro ⟨found, hfound, hsome⟩
    cases found with
    | none => cases hsome
    | some d =>
        obtain ⟨front, back, hvalues, hfront, hmatch⟩ := findFirst_eq_some_iff.mp hfound
        exact ⟨front, d, back, hvalues, hfront, hmatch⟩
  · rintro ⟨front, d, back, hvalues, hfront, hmatch⟩
    exact ⟨some d, findFirst_eq_some_iff.mpr ⟨front, back, hvalues, hfront, hmatch⟩, rfl⟩

theorem isSome_text?_iff : v.text?.isSome = true ↔ ∃ s, v = .text s := by
  constructor
  · intro hsome
    obtain ⟨s, hs⟩ := Option.isSome_iff_exists.mp hsome
    exact ⟨s, eq_text_of_text? hs⟩
  · rintro ⟨s, rfl⟩
    rfl

theorem kind_eq_bool_iff : v.kind = .bool ↔ ∃ b, v = .bool b := by
  cases v with
  | scalar s => cases s <;> simp [kind, Scalar.kind]
  | _ => simp [kind]

end Value

namespace Model

theorem InputType.ofName?_eq_some_iff {s : String} {t : InputType} :
    ofName? s = some t ↔ s = t.name := by
  constructor
  · intro hfound
    have hname := List.find?_some hfound
    exact (beq_iff_eq.mp hname).symm
  · rintro rfl
    cases t <;> decide

theorem InputType.ofName?_eq_none_iff {s : String} :
    ofName? s = none ↔ ∀ t : InputType, s ≠ t.name := by
  rw [Option.eq_none_iff_forall_ne_some]
  exact forall_congr' fun t => not_congr ofName?_eq_some_iff

/-! ## Breaches -/

/-- How a declared input can be violated. -/
inductive Breach where
  | missing
  | unknownType
  | notNumber (v : Value)
  | notString (v : Value)
  | notBoolean (v : Value)
  | noValues
  | notListed (v : Value) (values : List Value)

/-- The message on a breach, which fails where a value has no text. -/
def Breach.message (spec : InputSpec) : Breach → Except Fault String
  | missing => .ok ("Missing required input: \"" ++ spec.id ++ "\"")
  | unknownType =>
    .ok ("Input \"" ++ spec.id ++ "\" declares unknown type \"" ++ spec.type ++
      "\". Allowed types: " ++ ", ".intercalate (InputType.all.map (·.name)))
  | notNumber v => wrongType spec "finite number" v
  | notString v => wrongType spec "string" v
  | notBoolean v => wrongType spec "boolean" v
  | noValues =>
    .ok ("Input \"" ++ spec.id ++
      "\" is declared as enum but has no \"values\" list in the manifest")
  | notListed v values => do
    let given ← valueText v
    let allowed ← values.mapM valueText
    pure ("Input \"" ++ spec.id ++ "\" value " ++ given ++
      " is not one of the allowed enum values: " ++ ", ".intercalate allowed)

/-- Inputs violate a declared input. -/
inductive InputSpec.Breaks (spec : InputSpec) (inputs : Entries) : Breach → Prop where
  | missing (habsent : inputs.get? spec.id = none) : Breaks spec inputs .missing
  | unknownType {v : Value} (hfound : inputs.get? spec.id = some v)
      (htype : ∀ t : InputType, spec.type ≠ t.name) : Breaks spec inputs .unknownType
  | notNumber {v : Value} (hfound : inputs.get? spec.id = some v)
      (htype : spec.type = InputType.number.name)
      (hv : ¬ ∃ x : Number, x.isFinite = true ∧ v = x.toValue) : Breaks spec inputs (.notNumber v)
  | notString {v : Value} (hfound : inputs.get? spec.id = some v)
      (htype : spec.type = InputType.string.name) (hv : ¬ ∃ s, v = .text s) :
      Breaks spec inputs (.notString v)
  | notBoolean {v : Value} (hfound : inputs.get? spec.id = some v)
      (htype : spec.type = InputType.boolean.name) (hv : ¬ ∃ b, v = .bool b) :
      Breaks spec inputs (.notBoolean v)
  | noValues {v : Value} (hfound : inputs.get? spec.id = some v)
      (htype : spec.type = InputType.enum.name)
      (hvalues : spec.values = none ∨ spec.values = some []) : Breaks spec inputs .noValues
  | notListed {v : Value} {values : List Value} (hfound : inputs.get? spec.id = some v)
      (htype : spec.type = InputType.enum.name) (hvalues : spec.values = some values)
      (hne : values ≠ []) (hv : ∀ d ∈ values, d.Differs v) :
      Breaks spec inputs (.notListed v values)

namespace InputSpec

variable {spec : InputSpec} {inputs : Entries}

theorem Breaks.violationIn?_eq {breach : Breach} (hbreaks : spec.Breaks inputs breach) :
    spec.violationIn? inputs = (breach.message spec).map some := by
  cases hbreaks with
  | missing habsent => simp only [violationIn?, habsent, Breach.message, Except.map]
  | unknownType hfound htype =>
      have hname := InputType.ofName?_eq_none_iff.mpr htype
      simp only [violationIn?, hfound, violation?, hname, Breach.message, Except.map]
  | notNumber hfound htype hv =>
      have hname := InputType.ofName?_eq_some_iff.mpr htype
      have hrefused := Bool.eq_false_of_not_eq_true (mt Expression.isFiniteNumber_iff.mp hv)
      simp only [violationIn?, hfound, violation?, hname, hrefused, Breach.message,
        Bool.false_eq_true, if_false]
  | notString hfound htype hv =>
      have hname := InputType.ofName?_eq_some_iff.mpr htype
      have hrefused := Bool.eq_false_of_not_eq_true (mt Value.isSome_text?_iff.mp hv)
      simp only [violationIn?, hfound, violation?, hname, hrefused, Breach.message,
        Bool.false_eq_true, if_false]
  | notBoolean hfound htype hv =>
      have hname := InputType.ofName?_eq_some_iff.mpr htype
      have hrefused := decide_eq_false (mt Value.kind_eq_bool_iff.mp hv)
      simp only [violationIn?, hfound, violation?, hname, hrefused, Breach.message,
        Bool.false_eq_true, if_false]
  | noValues hfound htype hvalues =>
      have hname := InputType.ofName?_eq_some_iff.mpr htype
      rcases hvalues with hvalues | hvalues
      · simp only [violationIn?, hfound, violation?, hname, hvalues, Breach.message, Except.map]
      · simp only [violationIn?, hfound, violation?, hname, hvalues, Breach.message, Except.map]
  | @notListed v values hfound htype hvalues hne hv =>
      have hname := InputType.ofName?_eq_some_iff.mpr htype
      have hamong := Value.isAmong_eq_ok_false_iff.mpr hv
      cases values with
      | nil => exact absurd rfl hne
      | cons d rest =>
          simp only [violationIn?, hfound, violation?, hname, hvalues, hamong, Breach.message,
            bind, Except.bind]
          cases valueText v with
          | error fault => rfl
          | ok given => cases (d :: rest).mapM valueText <;> rfl

theorem exists_breaks {message : String}
    (hmessage : spec.violationIn? inputs = .ok (some message)) :
    ∃ breach, spec.Breaks inputs breach := by
  unfold violationIn? at hmessage
  split at hmessage
  next habsent => exact ⟨.missing, .missing habsent⟩
  next v hfound =>
    unfold violation? at hmessage
    dsimp only at hmessage
    split at hmessage
    next hname => exact ⟨.unknownType, .unknownType hfound (InputType.ofName?_eq_none_iff.mp hname)⟩
    next hname =>
      have htype := InputType.ofName?_eq_some_iff.mp hname
      refine ⟨.notNumber v, .notNumber hfound htype fun hv => ?_⟩
      rw [if_pos (Expression.isFiniteNumber_iff.mpr hv)] at hmessage
      cases hmessage
    next hname =>
      have htype := InputType.ofName?_eq_some_iff.mp hname
      refine ⟨.notString v, .notString hfound htype fun hv => ?_⟩
      rw [if_pos (Value.isSome_text?_iff.mpr hv)] at hmessage
      cases hmessage
    next hname =>
      have htype := InputType.ofName?_eq_some_iff.mp hname
      refine ⟨.notBoolean v, .notBoolean hfound htype fun hv => ?_⟩
      rw [if_pos (decide_eq_true (Value.kind_eq_bool_iff.mpr hv))] at hmessage
      cases hmessage
    next hname =>
      have htype := InputType.ofName?_eq_some_iff.mp hname
      split at hmessage
      next hvalues => exact ⟨.noValues, .noValues hfound htype (.inl hvalues)⟩
      next hvalues => exact ⟨.noValues, .noValues hfound htype (.inr hvalues)⟩
      next values hne hvalues =>
        obtain ⟨listed, hlisted, hmessage⟩ := bind_eq_ok.mp hmessage
        cases listed with
        | true => cases hmessage
        | false =>
            exact ⟨.notListed v values, .notListed hfound htype hvalues hne
              (Value.isAmong_eq_ok_false_iff.mp hlisted)⟩

def IsViolated (spec : InputSpec) (inputs : Entries) : Prop :=
  ∃ breach, spec.Breaks inputs breach

def Reports (spec : InputSpec) (inputs : Entries) (message : String) : Prop :=
  ∃ breach, spec.Breaks inputs breach ∧ breach.message spec = .ok message

theorem reports_of_violationIn? {message : String}
    (hmessage : spec.violationIn? inputs = .ok (some message)) : spec.Reports inputs message := by
  obtain ⟨breach, hbreaks⟩ := exists_breaks hmessage
  rw [hbreaks.violationIn?_eq] at hmessage
  obtain ⟨message', hmessage', hsame⟩ := map_eq_ok.mp hmessage
  obtain rfl := Option.some.inj hsame
  exact ⟨breach, hbreaks, hmessage'⟩

theorem not_isViolated_of_violationIn? (hnone : spec.violationIn? inputs = .ok none) :
    ¬ spec.IsViolated inputs := by
  rintro ⟨breach, hbreaks⟩
  rw [hbreaks.violationIn?_eq] at hnone
  obtain ⟨message, -, hmessage⟩ := map_eq_ok.mp hnone
  cases hmessage

end InputSpec

/-! ## Verdicts -/

section

open Classical in
/-- The declared inputs that are violated, in order. -/
noncomputable def violated (specs : List InputSpec) (inputs : Entries) : List InputSpec :=
  specs.filter fun spec => decide (spec.IsViolated inputs)

variable {inputs : Entries}

theorem reports_of_violations {specs : List InputSpec} {errors : List String}
    (herrors : violations specs inputs = .ok errors) :
    List.Forall₂ (fun spec message => spec.Reports inputs message)
      (violated specs inputs) errors := by
  induction specs generalizing errors with
  | nil =>
      cases herrors
      exact .nil
  | cons spec specs ih =>
      rw [violations_cons] at herrors
      obtain ⟨first, hfirst, herrors⟩ := bind_eq_ok.mp herrors
      obtain ⟨rest, hrest, herrors⟩ := bind_eq_ok.mp herrors
      cases herrors
      have hlater := ih hrest
      cases first with
      | none =>
          have hkept := InputSpec.not_isViolated_of_violationIn? hfirst
          rw [violated, List.filter_cons_of_neg (by simpa using hkept)]
          exact hlater
      | some message =>
          have hreports := InputSpec.reports_of_violationIn? hfirst
          have hviolated : spec.IsViolated inputs := hreports.imp fun breach h => h.1
          rw [violated, List.filter_cons_of_pos (by simpa using hviolated)]
          exact .cons hreports hlater

theorem violations_append (front back : List InputSpec) :
    violations (front ++ back) inputs = (do
      let first ← violations front inputs
      let rest ← violations back inputs
      pure (first ++ rest)) := by
  induction front with
  | nil =>
      simp only [List.nil_append]
      exact (bind_pure _).symm
  | cons spec specs ih =>
      rw [List.cons_append, violations_cons, violations_cons, ih]
      simp only [bind_assoc, pure_bind, List.append_assoc]

theorem violations_congr {specs : List InputSpec} {others : Entries}
    (hsame : ∀ spec ∈ specs, others.get? spec.id = inputs.get? spec.id) :
    violations specs others = violations specs inputs := by
  induction specs with
  | nil => rfl
  | cons spec specs ih =>
      obtain ⟨hfirst, hrest⟩ := List.forall_mem_cons.mp hsame
      have hspec : spec.violationIn? others = spec.violationIn? inputs := by
        simp only [InputSpec.violationIn?, hfirst]
      rw [violations_cons, violations_cons, hspec, ih hrest]

end

end Model

def Verdict.ofErrors (errors : List String) : Verdict :=
  ⟨errors.isEmpty, errors, []⟩

theorem Verdict.valid_ofErrors_iff {errors : List String} :
    (ofErrors errors).valid = true ↔ (ofErrors errors).errors = [] := by
  simp [ofErrors]

namespace Model.Manifest

variable {m : Manifest} {inputs : Value} {entries : Entries}

theorem checkInputs_eq (m : Manifest) (hinputs : inputs.entries? = some entries) :
    m.checkInputs inputs = (violations m.inputs entries).map Verdict.ofErrors := by
  simp only [checkInputs, hinputs]
  cases violations m.inputs entries with
  | error fault => rfl
  | ok errors => cases errors <;> rfl

/-- An entry stands under the name of a declared input. -/
def declares (m : Manifest) (entry : Value × Value) : Bool :=
  m.inputs.any fun spec => entry.1.text? == some spec.id

theorem get?_filter_declares {spec : InputSpec} (hspec : spec ∈ m.inputs) (entries : Entries) :
    Entries.get? (entries.filter m.declares) spec.id = entries.get? spec.id := by
  have hdeclared : (fun entry : Value × Value =>
      decide (m.declares entry = true ∧ (entry.1.text? == some spec.id) = true)) =
        fun entry => entry.1.text? == some spec.id := by
    funext entry
    rw [Bool.eq_iff_iff, decide_eq_true_iff]
    exact and_iff_right_of_imp fun hname => List.any_eq_true.mpr ⟨spec, hspec, hname⟩
  rw [Entries.get?, Entries.get?, List.find?_filter, hdeclared]

/-- What a verdict says about inputs, and what it depends on. -/
structure Judges (m : Manifest) (entries : Entries) (verdict : Verdict) : Prop where
  valid_iff : verdict.valid = true ↔ verdict.errors = []
  errors : List.Forall₂ (fun spec message => spec.Reports entries message)
    (violated m.inputs entries) verdict.errors
  undeclared : ∀ (other : Value) (others : Entries), other.entries? = some others →
    others.filter m.declares = entries.filter m.declares → m.checkInputs other = .ok verdict
  reordered : ∀ (other : Value) (others : Entries), other.entries? = some others →
    others.Perm entries → (entries.map Prod.fst).Nodup → m.checkInputs other = .ok verdict

theorem checkInputs_congr {other : Value} {others : Entries}
    (hinputs : inputs.entries? = some entries) (hother : other.entries? = some others)
    (hsame : ∀ spec ∈ m.inputs, others.get? spec.id = entries.get? spec.id) :
    m.checkInputs other = m.checkInputs inputs := by
  rw [checkInputs_eq m hother, checkInputs_eq m hinputs, violations_congr hsame]

theorem judges_of_checkInputs {verdict : Verdict} (hinputs : inputs.entries? = some entries)
    (hverdict : m.checkInputs inputs = .ok verdict) : m.Judges entries verdict where
  valid_iff := by
    rw [checkInputs_eq m hinputs] at hverdict
    obtain ⟨errors, -, rfl⟩ := map_eq_ok.mp hverdict
    exact Verdict.valid_ofErrors_iff
  errors := by
    rw [checkInputs_eq m hinputs] at hverdict
    obtain ⟨errors, herrors, rfl⟩ := map_eq_ok.mp hverdict
    exact reports_of_violations herrors
  undeclared other others hother hdeclared := by
    rw [← hverdict]
    apply checkInputs_congr hinputs hother
    intro spec hspec
    rw [← get?_filter_declares hspec others, hdeclared, get?_filter_declares hspec entries]
  reordered other others hother hperm hdistinct := by
    rw [← hverdict]
    apply checkInputs_congr hinputs hother
    intro spec hspec
    exact Entries.get?_of_perm hperm hdistinct spec.id

/-- A verdict reports each declared input that is violated, with one message and in the order of the
manifest; it is valid just if there is none, and depends on no other inputs and on no order of them.
The declared inputs can be judged in two parts. -/
theorem verdict_reports_violations (m : Manifest) (hinputs : inputs.entries? = some entries) :
    (∀ verdict, m.checkInputs inputs = .ok verdict → m.Judges entries verdict) ∧
      ∀ front back, m.inputs = front ++ back → ∀ verdict, m.checkInputs inputs = .ok verdict ↔
        ∃ v w, { m with inputs := front }.checkInputs inputs = .ok v ∧
          { m with inputs := back }.checkInputs inputs = .ok w ∧
          verdict = .ofErrors (v.errors ++ w.errors) := by
  refine ⟨fun verdict => judges_of_checkInputs hinputs, ?_⟩
  intro front back hparts verdict
  rw [checkInputs_eq m hinputs, checkInputs_eq { m with inputs := front } hinputs,
    checkInputs_eq { m with inputs := back } hinputs, hparts, violations_append, map_eq_ok]
  constructor
  · rintro ⟨errors, herrors, rfl⟩
    obtain ⟨first, hfirst, herrors⟩ := bind_eq_ok.mp herrors
    obtain ⟨rest, hrest, herrors⟩ := bind_eq_ok.mp herrors
    cases herrors
    exact ⟨_, _, map_eq_ok.mpr ⟨first, hfirst, rfl⟩, map_eq_ok.mpr ⟨rest, hrest, rfl⟩, rfl⟩
  · rintro ⟨v, w, hv, hw, rfl⟩
    obtain ⟨first, hfirst, rfl⟩ := map_eq_ok.mp hv
    obtain ⟨rest, hrest, rfl⟩ := map_eq_ok.mp hw
    exact ⟨first ++ rest, bind_eq_ok.mpr ⟨first, hfirst, bind_eq_ok.mpr ⟨rest, hrest, rfl⟩⟩, rfl⟩

/-- A manifest that declares one name twice and another with an unknown type. -/
def loan : Manifest where
  id := "loan"
  name := "Loan"
  version := "1"
  description := ""
  inputs := [⟨"principal", "number", "", none, []⟩,
    ⟨"term", "enum", "", some [.int 15, .int 30], []⟩, ⟨"due", "date", "", none, []⟩,
    ⟨"principal", "string", "", none, []⟩, ⟨"borrower", "string", "", none, []⟩]
  outputs := []
  extra := []

def application : Entries :=
  [(.text "term", .int 20), (.text "note", .int 1), (.text "principal", .int 250),
    (.text "due", .none)]

def refusal : Verdict where
  valid := false
  errors := ["Input \"term\" value 20 is not one of the allowed enum values: 15, 30",
    "Input \"due\" declares unknown type \"date\". Allowed types: number, string, boolean, enum",
    "Input \"principal\" must be a string, got int (250)",
    "Missing required input: \"borrower\""]
  warnings := []

theorem loan_refused :
    Value.entries? (.map application) = some application ∧
      loan.checkInputs (.map application) = .ok refusal ∧ loan.Judges application refusal := by
  have hentries : Value.entries? (.map application) = some application := rfl
  have hverdict : loan.checkInputs (.map application) = .ok refusal :=
    toOption_eq_some.mp (by decide +kernel)
  exact ⟨hentries, hverdict, (verdict_reports_violations loan hentries).1 _ hverdict⟩

end Model.Manifest

end ModelPlaybook
