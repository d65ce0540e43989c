import ModelPlaybook.Files
import ModelPlaybook.Playbook.Run
import ModelPlaybook.Yaml.Reading

/-!
# Loading models

A model is a directory with a manifest and the text of its logic.
-/

namespace ModelPlaybook.Model

def manifestName : String := "manifest.yaml"

def logicName : String := "logic.py"

/-- The fields that a manifest has to have. -/
def requiredFields : List String := ["id", "name", "version", "inputs", "outputs"]

/-- The fields of a document that are missing or hold nothing. -/
def missingFields (entries : Entries) : List String :=
  requiredFields.filter fun name => (entries.get? name).getD .none == .none

/-- The first of some fields that holds no list. -/
def notList? (entries : Entries) : Option String :=
  ["inputs", "outputs"].find? fun name =>
    match entries.get? name with
    | some (.list _) => false
    | _ => true

/-- The manifest that a document writes. -/
def Manifest.ofDocument (refuse : String → List Schema.Issue → Error) (document : Value) :
    Except Error Manifest :=
  match document with
  | .map entries =>
    match missingFields entries, notList? entries with
    | [], none =>
      match Manifest.ofEntries entries with
      | .error (.invalidDocument issues) =>
        let lines := "\n".intercalate (issues.map (·.line))
        .error (refuse ("Invalid " ++ manifestName ++ ": " ++ lines) issues)
      | r => r
    | [], some name =>
      .error (refuse (manifestName ++ " \"" ++ name ++ "\" must be a list") [])
    | missing, _ =>
      .error (refuse (manifestName ++ " is missing required fields: " ++
        ", ".intercalate missing) [])
  | _ => .error (refuse (manifestName ++ " must be a non-empty YAML mapping") [])

/-- The manifest that a file holds. -/
def Manifest.ofFile (refuse : String → List Schema.Issue → Error) (content : List UInt8) :
    Except Error Manifest :=
  match Yaml.readFile content with
  | .error (.malformed problem) =>
    .error (refuse ("Failed to parse " ++ manifestName ++ ": " ++ problem.text) [])
  | .error (.misfit f) => .error (.fault f)
  | .ok document => ofDocument refuse document

/-- The model in a directory. -/
def ofDirectory (files : FileTree) (place id : String) : Except Error Model := do
  let refuse (message : String) (issues : List Schema.Issue) : Error :=
    .modelLoad message (some id) issues
  let look {α : Type} (r : Except Fault α) : Except Error α := r.mapError .fault
  let manifestPath := FileTree.child place manifestName
  let logicPath := FileTree.child place logicName
  if !(← look (files.isDirectory place)) then throw (refuse ("Model not found: " ++ place) [])
  let manifest ←
    match ← look (files.file? manifestPath) with
    | some content => Manifest.ofFile refuse content
    | none => throw (refuse ("Manifest not found at: " ++ manifestPath) [])
  match ← look (files.file? logicPath) with
  | none => throw (refuse (logicName ++ " not found at: " ++ logicPath) [])
  | some content =>
    match Text.ofBytes content with
    | .ok logic => pure ⟨manifest, logic⟩
    | .error f => throw (refuse ("Failed to read " ++ logicName ++ ": " ++ f.text) [])

/-- Loads the model with an id from the directory of all models. -/
def load (files : FileTree) (directory : String) (id : Value) : Except Error Model :=
  match id.text?.filter Text.isEntryName with
  | some name => ofDirectory files (FileTree.child directory name) name
  | none =>
    match id.writeShown with
    | .ok shown => .error (.modelLoad ("Invalid model id: " ++ shown) (some id.plainText) [])
    | .error f => .error (.fault f)

end ModelPlaybook.Model
