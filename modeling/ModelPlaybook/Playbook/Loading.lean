import ModelPlaybook.Files
import ModelPlaybook.Playbook.Document

/-!
# Loading playbooks

A playbook is a file of its own in the directory of all playbooks.
-/

namespace ModelPlaybook.Playbook

/-- The path of the playbook with an id. -/
def pathOf (directory id : String) : String :=
  FileTree.child directory (id ++ ".yaml")

/-- The playbook in a file. -/
def ofFile (content : List UInt8) : Except Error Playbook :=
  match Text.ofBytes content with
  | .ok text => ofText text
  | .error f => .error (.malformedPlaybook ("Failed to read playbook: " ++ f.text) [])

/-- The answer to an id that belongs to no playbook; the text of the id is a part of it. -/
def refuse (id : Value) (answer : String → Error) : Except Error Playbook :=
  match id.writePlain with
  | .ok text => .error (answer text)
  | .error f => .error (.fault f)

/-- Loads the playbook with an id from the directory of all playbooks, if there is one. -/
def load (files : FileTree) (directory : Option String) (id : Value) : Except Error Playbook :=
  match directory, id.text?.filter Text.isEntryName with
  | none, _ => refuse id fun _ => .playbookNotFound id (some "no playbooks directory configured")
  | some _, none => refuse id fun text => .playbookNotFound (.text text) none
  | some directory, some name =>
    let path := pathOf directory name
    match files.file? path with
    | .error f => .error (.fault f)
    | .ok none => .error (.playbookNotFound id (some path))
    | .ok (some content) => ofFile content

end ModelPlaybook.Playbook
