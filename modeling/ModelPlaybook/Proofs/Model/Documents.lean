import Mathlib
import ModelPlaybook.Model.Loading
import ModelPlaybook.Proofs.Schema.Reading

/-!
# Manifests that documents write

A document that is read as a manifest has all required fields, lists of inputs and outputs, and keys
that are texts; then every field of the manifest is read from the entries of the document.
-/

namespace ModelPlaybook.Model

open ModelPlaybook.Schema Checked

variable {entries : Entries} {refuse : String → List Issue → Error} {m : Manifest}

/-- Where the fields of a manifest come from. -/
structure Manifest.ReadFrom (entries : Entries) (m : Manifest) : Prop where
  id : required entries ["id"] text = .valid m.id
  name : required entries ["name"] text = .valid m.name
  version : required entries ["version"] versionText = .valid m.version
  description : withDefault entries "description" "" text = .valid m.description
  inputs : withDefault entries "inputs" [] (listOf (record "InputSpec" InputSpec.check)) =
    .valid m.inputs
  outputs : withDefault entries "outputs" [] (listOf (record "OutputSpec" OutputSpec.check)) =
    .valid m.outputs
  extra : unclaimed entries ["id", "name", "version", "description", "inputs", "outputs"] =
    .valid m.extra

theorem Manifest.check_eq_valid :
    Manifest.check entries = .valid m ↔ m.ReadFrom entries := by
  simp only [Manifest.check, seq_eq_valid, functorMap_eq_valid]
  constructor
  -- The fields are applied one after the other, so the last of them is the outermost.
  · rintro ⟨_, extra, ⟨_, outputs, ⟨_, inputs, ⟨_, description, ⟨_, version, ⟨_, name,
      ⟨id, hid, rfl⟩, hname, rfl⟩, hversion, rfl⟩, hdescription, rfl⟩, hinputs, rfl⟩, houtputs,
      rfl⟩, hextra, rfl⟩
    exact ⟨hid, hname, hversion, hdescription, hinputs, houtputs, hextra⟩
  · intro h
    exact ⟨_, _, ⟨_, _, ⟨_, _, ⟨_, _, ⟨_, _, ⟨_, _, ⟨_, h.id, rfl⟩, h.name, rfl⟩, h.version, rfl⟩,
      h.description, rfl⟩, h.inputs, rfl⟩, h.outputs, rfl⟩, h.extra, rfl⟩

theorem Manifest.ofDocument_eq_ok {document : Value} :
    ofDocument refuse document = .ok m ↔
      ∃ entries, document = .map entries ∧ missingFields entries = [] ∧ notList? entries = none ∧
        hasTextKeys entries = true ∧ m.ReadFrom entries := by
  constructor
  · intro h
    unfold ofDocument at h
    split at h
    · next entries =>
        split at h
        · next hmissing hlist =>
            refine ⟨entries, rfl, hmissing, hlist, ?_⟩
            unfold ofEntries at h
            by_cases hkeys : hasTextKeys entries = true
            · refine ⟨hkeys, check_eq_valid.mp ?_⟩
              rw [if_pos hkeys] at h
              cases hcheck : check entries with
              | valid m' => simpa [hcheck] using h
              | invalid issues => simp [hcheck] at h
            · simp [hkeys] at h
        · cases h
        · cases h
    · cases h
  · rintro ⟨entries, rfl, hmissing, hlist, hkeys, hread⟩
    simp [ofDocument, ofEntries, hmissing, hlist, hkeys, check_eq_valid.mpr hread]

/-- A manifest is what the document in its file writes. -/
theorem Manifest.ofFile_eq_ok {content : List UInt8} :
    ofFile refuse content = .ok m ↔
      ∃ document, Yaml.readFile content = .ok document ∧ ofDocument refuse document = .ok m := by
  unfold ofFile
  cases hread : Yaml.readFile content with
  | ok document => simp
  | error failure => cases failure <;> simp

end ModelPlaybook.Model
