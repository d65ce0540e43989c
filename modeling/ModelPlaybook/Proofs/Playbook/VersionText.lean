import Mathlib
import ModelPlaybook.Proofs.Model.Documents
import ModelPlaybook.Proofs.Playbook.Documents
import ModelPlaybook.Proofs.Yaml.Alteration
import ModelPlaybook.Proofs.Yaml.Building
import ModelPlaybook.Proofs.Yaml.Numerals

/-!
# Versions of documents

The version of a playbook or a manifest is meant to be a text.  In quotes it is one.  Without quotes
a version such as `1.0` is a number to the reader of documents, and what is kept is the text of this
number: the text that was written, unless it has a spare zero, is too small or has too many digits.
-/

namespace ModelPlaybook

open Schema Checked

/-- A text that holds a mapping with a version, in quotes or not, and no other version behind it. -/
structure Yaml.Declares (text : String) (before after : List (Node × Node)) (plain : Bool)
    (version : String) : Prop where
  root : Node.ofTokens (tokens text).1 (tokens text).2 =
    .ok (some (.mapping .mapping (before ++ (.scalar .text "version",
      .scalar (Composing.scalarTag none version plain) version) :: after)))
  last : ∀ node ∈ after, Node.build 1 true node.1 ≠ .ok (.text "version")

/-- Entries that differ in the version only, which is a text here and a number there. -/
structure DifferInVersion (entries entries' : Entries) (version : String) (x : Binary64) :
    Prop where
  same : Entries.SameBut "version" entries entries'
  quoted : entries.get? "version" = some (.text version)
  plain : entries'.get? "version" = some (.float x)

section

variable {whole decimals : List Char} {before after : List (Yaml.Node × Yaml.Node)}
  {plain quoted : String}

theorem Yaml.read_of_root {text : String} {root : Node}
    (hroot : Node.ofTokens (tokens text).1 (tokens text).2 = .ok (some root)) :
    read text = (root.build 0 false).mapError (·.2) := by
  unfold tokens at hroot
  simp only [read, Source.read, hroot, bind, Except.bind]

/-- Quotes around a version change nothing else in a document. -/
theorem IsDotted.read_plain (h : IsDotted whole decimals)
    (hplain : Yaml.Declares plain before after true (dotted whole decimals))
    (hquoted : Yaml.Declares quoted before after false (dotted whole decimals)) {document : Value}
    (hread : Yaml.read quoted = .ok document) :
    ∃ entries entries', document = .map entries ∧ Yaml.read plain = .ok (.map entries') ∧
      DifferInVersion entries entries' (dotted whole decimals) (nearestTo whole decimals) := by
  have htext : Yaml.Node.build 1 false
      (.scalar (Yaml.Composing.scalarTag none (dotted whole decimals) false)
        (dotted whole decimals)) = .ok (.text (dotted whole decimals)) := rfl
  have hnumber : Yaml.Node.build 1 false
      (.scalar (Yaml.Composing.scalarTag none (dotted whole decimals) true)
        (dotted whole decimals)) = .ok (.float (nearestTo whole decimals)) := by
    have htag : Yaml.Composing.scalarTag none (dotted whole decimals) true = .float :=
      Yaml.Tag.ofText_dotted h
    rw [htag, Yaml.Node.build]
    simp [Yaml.Node.wantsScalar, Yaml.Content.read, Yaml.Content.float_dotted h,
      Yaml.Built.placed, Except.mapError, bind, Except.bind, pure, Except.pure]
  rw [Yaml.read_of_root hquoted.root, mapError_eq_ok] at hread
  obtain ⟨entries, entries', rfl, hbuilt, hsame, hfound, hfound'⟩ :=
    Yaml.Node.build_replaced htext hnumber hquoted.last hread
  refine ⟨entries, entries', rfl, ?_, hsame, hfound, hfound'⟩
  rw [Yaml.read_of_root hplain.root, hbuilt]
  rfl

end

/-! ## Playbooks -/

section

variable {entries entries' : Entries} {version : String} {x : Binary64}

theorem DifferInVersion.required_plain (hdiffer : DifferInVersion entries entries' version x) :
    required entries' ["version"] versionText = .valid x.text := by
  simp [required, claim?, hdiffer.plain, versionText, under]

theorem DifferInVersion.eq_of_required (hdiffer : DifferInVersion entries entries' version x)
    {read : String} (hread : required entries ["version"] versionText = .valid read) :
    read = version := by
  have hquoted : required entries ["version"] versionText = .valid version := by
    simp [required, claim?, hdiffer.quoted, versionText, text, textual?, under]
  rw [hquoted] at hread
  exact (valid.inj hread).symm

namespace Playbook

theorem lacks_of_differInVersion (hdiffer : DifferInVersion entries entries' version x)
    (hlacks : lacks entries = []) : lacks entries' = [] := by
  have hother {name : String} (hname : name ≠ "version") :
      entries'.get? name = entries.get? name :=
    hdiffer.same.get?_eq hname
  simp only [lacks, List.append_eq_nil_iff, hother (by simp : "id" ≠ "version"),
    hother (by simp : "steps" ≠ "version"), hother (by simp : "models" ≠ "version"),
    hdiffer.plain] at hlacks ⊢
  exact ⟨⟨hlacks.1.1, trivial⟩, hlacks.2⟩

theorem stepDenial?_of_sameBut (hsame : Entries.SameBut "version" entries entries') :
    stepDenial? entries' = stepDenial? entries := by
  simp only [stepDenial?, stepItems?, hsame.get?_eq (by simp : "models" ≠ "version"),
    hsame.get?_eq (by simp : "steps" ≠ "version")]

theorem ReadFrom.of_differInVersion {p : Playbook} (h : p.ReadFrom entries)
    (hdiffer : DifferInVersion entries entries' version x) :
    p.version = version ∧ ReadFrom entries' { p with version := x.text } := by
  have hsame := hdiffer.same
  have hkeys :
      claimedKey entries' ["models", "steps"] = claimedKey entries ["models", "steps"] := by
    rw [claimedKey, claimedKey, claim?_of_sameBut hsame (by simp)]
  constructor
  · exact hdiffer.eq_of_required h.version
  · exact {
      id := (required_of_sameBut hsame (by simp) text).trans h.id
      version := hdiffer.required_plain
      name := (withDefault_of_sameBut hsame (by simp) "" text).trans h.name
      description := (withDefault_of_sameBut hsame (by simp) "" text).trans h.description
      intakeFields :=
        (withDefault_of_sameBut hsame (by simp) [] checkIntakeFields).trans h.intakeFields
      steps := (required_of_sameBut hsame (by simp) checkSteps).trans h.steps
      extra := by
        rw [hkeys]
        exact (unclaimed_of_sameBut hsame (by simp)).trans h.extra
      distinct := h.distinct }

theorem ofDocument_of_differInVersion {p : Playbook}
    (hdiffer : DifferInVersion entries entries' version x)
    (hread : ofDocument (.map entries) = .ok p) :
    p.version = version ∧ ofDocument (.map entries') = .ok { p with version := x.text } := by
  obtain ⟨_, hentries, hlacks, hkeys, hgranted, hfields⟩ := ofDocument_eq_ok.mp hread
  cases hentries
  obtain ⟨hversion, hfields'⟩ := hfields.of_differInVersion hdiffer
  have hkeys' := (hasTextKeys_of_sameBut hdiffer.same).trans hkeys
  have hgranted' := (stepDenial?_of_sameBut hdiffer.same).trans hgranted
  exact ⟨hversion, ofDocument_eq_ok.mpr
    ⟨entries', rfl, lacks_of_differInVersion hdiffer hlacks, hkeys', hgranted', hfields'⟩⟩

end Playbook

/-! ## Manifests -/

namespace Model

theorem Manifest.ReadFrom.of_differInVersion {m : Manifest} (h : m.ReadFrom entries)
    (hdiffer : DifferInVersion entries entries' version x) :
    m.version = version ∧ ReadFrom entries' { m with version := x.text } := by
  have hsame := hdiffer.same
  constructor
  · exact hdiffer.eq_of_required h.version
  · exact {
      id := (required_of_sameBut hsame (by simp) text).trans h.id
      name := (required_of_sameBut hsame (by simp) text).trans h.name
      version := hdiffer.required_plain
      description := (withDefault_of_sameBut hsame (by simp) "" text).trans h.description
      inputs := (withDefault_of_sameBut hsame (by simp) [] _).trans h.inputs
      outputs := (withDefault_of_sameBut hsame (by simp) [] _).trans h.outputs
      extra := (unclaimed_of_sameBut hsame (by simp)).trans h.extra }

section

variable {refuse : String → List Issue → Error} {m : Manifest}

theorem missingFields_of_differInVersion (hdiffer : DifferInVersion entries entries' version x)
    (hmissing : missingFields entries = []) : missingFields entries' = [] := by
  unfold missingFields at hmissing ⊢
  rw [List.filter_eq_nil_iff] at hmissing ⊢
  intro name hname
  by_cases hversion : name = "version"
  · subst hversion
    rw [hdiffer.plain]
    simp
  · rw [hdiffer.same.get?_eq hversion]
    exact hmissing name hname

theorem notList?_of_differInVersion (hdiffer : DifferInVersion entries entries' version x) :
    notList? entries' = notList? entries := by
  simp only [notList?, List.find?_cons, List.find?_nil,
    hdiffer.same.get?_eq (by simp : "inputs" ≠ "version"),
    hdiffer.same.get?_eq (by simp : "outputs" ≠ "version")]

theorem Manifest.ofDocument_of_differInVersion
    (hdiffer : DifferInVersion entries entries' version x)
    (hread : ofDocument refuse (.map entries) = .ok m) :
    m.version = version ∧ ofDocument refuse (.map entries') = .ok { m with version := x.text } := by
  obtain ⟨_, hentries, hmissing, hlist, hkeys, hfields⟩ := ofDocument_eq_ok.mp hread
  cases hentries
  obtain ⟨hversion, hfields'⟩ := hfields.of_differInVersion hdiffer
  have hkeys' := (hasTextKeys_of_sameBut hdiffer.same).trans hkeys
  have hlist' := (notList?_of_differInVersion hdiffer).trans hlist
  exact ⟨hversion, ofDocument_eq_ok.mpr
    ⟨entries', rfl, missingFields_of_differInVersion hdiffer hmissing, hlist', hkeys', hfields'⟩⟩

end

end Model

end

/-! ## Versions -/

/-- What is kept of a version without quotes, where the version in quotes is kept as it is. -/
structure LoadsVersion (plain quoted version kept : String) : Prop where
  playbook (p : Playbook) (hquoted : Playbook.ofText quoted = .ok p) :
    p.version = version ∧ Playbook.ofText plain = .ok { p with version := kept }
  manifest (refuse : String → List Issue → Error) (content content' : List UInt8)
    (m : Model.Manifest) (hplain : Text.ofBytes content' = .ok plain)
    (htext : Text.ofBytes content = .ok quoted)
    (hquoted : Model.Manifest.ofFile refuse content = .ok m) :
    m.version = version ∧
      Model.Manifest.ofFile refuse content' = .ok { m with version := kept }

theorem IsDotted.loadsVersion {whole decimals : List Char} (h : IsDotted whole decimals)
    {before after : List (Yaml.Node × Yaml.Node)} {plain quoted : String}
    (hplain : Yaml.Declares plain before after true (dotted whole decimals))
    (hquoted : Yaml.Declares quoted before after false (dotted whole decimals)) :
    LoadsVersion plain quoted (dotted whole decimals) (nearestTo whole decimals).text where
  playbook p hread := by
    obtain ⟨document, hdocument, hread⟩ := Playbook.ofText_eq_ok.mp hread
    obtain ⟨entries, entries', rfl, hread', hdiffer⟩ := h.read_plain hplain hquoted hdocument
    obtain ⟨hversion, hkept⟩ := Playbook.ofDocument_of_differInVersion hdiffer hread
    exact ⟨hversion, Playbook.ofText_eq_ok.mpr ⟨_, hread', hkept⟩⟩
  manifest refuse content content' m htext' htext hread := by
    have hfile := Yaml.readFile_eq htext (Yaml.all_isReadable_of_ofTokens hquoted.root)
    have hfile' := Yaml.readFile_eq htext' (Yaml.all_isReadable_of_ofTokens hplain.root)
    obtain ⟨document, hdocument, hread⟩ := Model.Manifest.ofFile_eq_ok.mp hread
    rw [hfile] at hdocument
    obtain ⟨entries, entries', rfl, hread', hdiffer⟩ := h.read_plain hplain hquoted hdocument
    obtain ⟨hversion, hkept⟩ := Model.Manifest.ofDocument_of_differInVersion hdiffer hread
    exact ⟨hversion, Model.Manifest.ofFile_eq_ok.mpr ⟨_, hfile'.trans hread', hkept⟩⟩

/-- A version without quotes is kept as the text of the double nearest to it.  This is the version
itself if it is bare and has no more than fifteen digits, and another text if it is not bare or has
more than seventeen. -/
theorem version_kept_as_double {whole decimals : List Char} (h : IsDotted whole decimals) :
    (∀ before after plain quoted,
      Yaml.Declares plain before after true (dotted whole decimals) →
      Yaml.Declares quoted before after false (dotted whole decimals) →
        LoadsVersion plain quoted (dotted whole decimals) (nearestTo whole decimals).text) ∧
    (IsBare whole decimals → Text.natOfDigits (whole ++ decimals) < 10 ^ 15 →
      (nearestTo whole decimals).text = dotted whole decimals) ∧
    ((nearestTo whole decimals).text = dotted whole decimals → IsWritten whole decimals) ∧
    ∀ k, nearestTo whole (decimals ++ List.replicate k '0') = nearestTo whole decimals := by
  refine ⟨?_, ?_, ?_, ?_⟩
  · intro before after plain quoted hplain hquoted
    exact h.loadsVersion hplain hquoted
  · intro hbare hshort
    exact hbare.text_nearestTo hshort
  · intro hkept
    exact .of_text h hkept
  · exact nearestTo_append_zeros whole decimals

/-- A playbook with a version as it is given. -/
def versioned (version : String) : String :=
  "id: demo\nversion: " ++ version ++ "\nsteps:\n- model_id: m\n"

def versionedPlaybook (version : String) : Playbook :=
  ⟨"demo", version, "", "", [], [Playbook.stepOf "m"], []⟩

def versionedBefore : List (Yaml.Node × Yaml.Node) :=
  [(.scalar .text "id", .scalar .text "demo")]

def versionedAfter : List (Yaml.Node × Yaml.Node) :=
  [(.scalar .text "steps",
    .sequence .sequence [.mapping .mapping [(.scalar .text "model_id", .scalar .text "m")]])]

/-- The tokens of such a playbook. -/
def versionedTokens (version : Yaml.Token) : List Yaml.Token :=
  [.blockMappingStart, .key, .scalar "id" true, .value, .scalar "demo" true, .key,
    .scalar "version" true, .value, version, .key, .scalar "steps" true, .value, .blockEntry,
    .blockMappingStart, .key, .scalar "model_id" true, .value, .scalar "m" true, .blockEnd,
    .blockEnd, .streamEnd]

theorem isDotted_one_ten : IsDotted ['1'] ['1', '0'] :=
  ⟨by simp, by simp [Text.isAsciiDigit], .inr (by simp), by simp, by simp [Text.isAsciiDigit]⟩

theorem declares_versioned {text : String} {plain : Bool}
    (htokens : Yaml.tokens text = (versionedTokens (.scalar "1.10" plain), none)) :
    Yaml.Declares text versionedBefore versionedAfter plain "1.10" := by
  constructor
  · rw [htokens]
    cases plain <;> rfl
  · simp [versionedAfter, Yaml.Node.build, Yaml.Node.wantsScalar, Yaml.Content.read,
      Yaml.Built.placed, Except.mapError]

/-- The version `1.10` is kept with quotes, and without them it becomes `1.1`. -/
theorem one_ten_kept_as_one_one :
    IsDotted ['1'] ['1', '0'] ∧
      Playbook.ofText (versioned "'1.10'") = .ok (versionedPlaybook "1.10") ∧
      Playbook.ofText (versioned "1.10") = .ok (versionedPlaybook "1.1") := by
  have hquoted : Playbook.ofText (versioned "'1.10'") = .ok (versionedPlaybook "1.10") := by
    apply toOption_eq_some.mp
    decide +kernel
  have hplain : Yaml.Declares (versioned "1.10") versionedBefore versionedAfter true "1.10" :=
    declares_versioned (by decide +kernel)
  have hquotes : Yaml.Declares (versioned "'1.10'") versionedBefore versionedAfter false "1.10" :=
    declares_versioned (by decide +kernel)
  have hloads := (version_kept_as_double isDotted_one_ten).1 versionedBefore versionedAfter
    (versioned "1.10") (versioned "'1.10'") hplain hquotes
  have htext : (nearestTo ['1'] ['1', '0']).text = "1.1" := by decide +kernel
  have hkept := (hloads.playbook (versionedPlaybook "1.10") hquoted).2
  rw [htext] at hkept
  exact ⟨isDotted_one_ten, hquoted, hkept⟩

/-- The versions `1.10` and `1.1` are told apart by nothing that is kept of them. -/
theorem spare_zero_lost :
    IsDotted ['1'] ['1', '0'] ∧ dotted ['1'] ['1', '0'] = "1.10" ∧
      Playbook.ofText (versioned "1.10") = .ok (versionedPlaybook "1.1") ∧
      Playbook.ofText (versioned "1.1") = .ok (versionedPlaybook "1.1") := by
  refine ⟨isDotted_one_ten, rfl, ?_, ?_⟩
  · apply toOption_eq_some.mp
    decide +kernel
  · apply toOption_eq_some.mp
    decide +kernel

end ModelPlaybook
