import ModelPlaybook.Proofs.Files.EntryNames
import ModelPlaybook.Proofs.Schema.Reading
import ModelPlaybook.Proofs.Yaml.Building

/-!
# How loading a model fails

A model that is not there or that is malformed is reported under its id.  Four slips are not
reported: an id that cannot be written, a name that is too long for the files, a manifest that turns
out to be no text before it is malformed, and a manifest with a scalar that does not fit its tag or
with a key that is not a text.
-/

namespace ModelPlaybook.Model

open ModelPlaybook.Schema

variable {α : Type} {id : String} {refuse : String → List Issue → Error}

/-- Something is loaded, or what is wrong with the model is reported under its id. -/
def IsContained (id : String) (r : Except Error α) : Prop :=
  (∃ a, r = .ok a) ∨ ∃ message issues, r = .error (.modelLoad message (some id) issues)

theorem IsContained.ok (a : α) : IsContained id (.ok a : Except Error α) :=
  .inl ⟨a, rfl⟩

theorem IsContained.refused (hrefuse : refuse = fun m i => .modelLoad m (some id) i)
    (message : String) (issues : List Issue) :
    IsContained id (.error (refuse message issues) : Except Error α) := by
  rw [hrefuse]
  exact .inr ⟨message, issues, rfl⟩

theorem not_isContained_of_fault {r : Except Error α} {fault : Fault}
    (hfault : r = .error (.fault fault)) : ¬ IsContained id r := by
  rintro (⟨a, hok⟩ | ⟨message, issues, hrefused⟩)
  · simp [hfault] at hok
  · simp [hfault] at hrefused

/-! ## Manifests -/

/-- A document has all that a manifest needs, but some key in it is not a text. -/
def IsMisnamed (document : Value) : Prop :=
  ∃ entries, document = .map entries ∧ missingFields entries = [] ∧ notList? entries = none ∧
    ∃ entry ∈ entries, ∀ name, entry.1 ≠ .text name

/-- What a manifest file holds is neither a manifest nor reported: reading it gets to bytes that are
no text, it has a misfit, or it writes a document with a key that is not a text. -/
inductive Manifest.Slips (content : List UInt8) : Fault → Prop where
  | unreadable (hbytes : ¬ ByteArray.IsValidUTF8 ⟨content.toArray⟩)
      (hread : Yaml.readFile content = .error (.misfit .badBytes)) : Slips content .badBytes
  | misfit {fault : Fault} (hread : Yaml.readFile content = .error (.misfit fault))
      (hmisfit : Yaml.Misfit (.ofFile content) fault) : Slips content fault
  | misnamed {document : Value} (hread : Yaml.readFile content = .ok document)
      (hmisnamed : IsMisnamed document) : Slips content badKey

theorem Manifest.Slips.kind {content : List UInt8} {fault : Fault} (hslips : Slips content fault) :
    fault.kind ∈ .encoding :: .type :: Yaml.misfitKinds := by
  cases hslips with
  | unreadable hbytes hread => simp [Fault.badBytes]
  | misfit hread hmisfit => simp [hmisfit.kind]
  | misnamed hread hmisnamed => simp [badKey, Fault.ofType]

/-! ## Models -/

section

variable {files : FileTree} {directory place : String}

/-- Loading a model fails with a fault that is not reported. -/
inductive Slips (files : FileTree) (directory : String) : Value → Fault → Prop where
  | unwritable {id : Value} {fault : Fault} (hid : id.writeFault? = some fault) :
      Slips files directory id fault
  | tooLong {name : String} (hname : IsAdmitted name)
      (hlong : Path.IsTooLong (FileTree.child directory name)) :
      Slips files directory (.text name) (FileTree.nameTooLong (FileTree.child directory name))
  | manifest {name : String} {content : List UInt8} {fault : Fault} (hname : IsAdmitted name)
      (hplace : files.find (FileTree.child directory name) = .ok (some .directory))
      (hfile : files.find (FileTree.child (FileTree.child directory name) manifestName) =
        .ok (some (.file content)))
      (hslips : Manifest.Slips content fault) : Slips files directory (.text name) fault

theorem Slips.kind {id : Value} {fault : Fault} (hslips : Slips files directory id fault) :
    fault.kind ∈ .permission :: .named "OSError" :: .encoding :: .type :: Yaml.misfitKinds := by
  cases hslips with
  | unwritable hid =>
      rcases Value.writeFault?_cases id hid with rfl | ⟨name, rfl⟩
      · simp [WholeText.unwritable, Fault.ofValue, Yaml.misfitKinds]
      · simp [Fault.denied]
  | tooLong hname hlong => simp [FileTree.nameTooLong]
  | manifest hname hplace hfile hslips =>
      exact List.mem_cons_of_mem _ (List.mem_cons_of_mem _ hslips.kind)

end

/-- A model `m` whose manifest file has some content. -/
def holding (content : List UInt8) : FileTree :=
  ⟨[("models/m/manifest.yaml", .file content)]⟩

end ModelPlaybook.Model
