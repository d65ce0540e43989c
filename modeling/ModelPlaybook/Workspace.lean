import ModelPlaybook.Model.Loading
import ModelPlaybook.Playbook.Loading
import ModelPlaybook.Sandbox.Execution

/-!
# Workspaces

A workspace holds models and playbooks in two directories.  A run in a workspace takes its playbook
and its models from there, and executes the models in a sandbox.
-/

namespace ModelPlaybook

structure Workspace where
  files : FileTree
  config : RuntimeConfig

namespace Workspace

def loadModel (w : Workspace) (id : Value) : Except Error Model :=
  Model.load w.files w.config.modelsDir id

def loadPlaybook (w : Workspace) (id : Value) : Except Error Playbook :=
  Playbook.load w.files (some w.config.playbooksDir) id

/-- Executes the logic of a model. -/
def execute (w : Workspace) (logic : String) (inputs : Entries) : Playbook.Execution :=
  let done := Sandbox.executeScript w.config.sandbox (.text logic) (.map inputs)
  ⟨done.result.map .map, done.log⟩

/-- The services of a run. -/
def services (w : Workspace) : Playbook.Services where
  load id := w.loadModel (.text id)
  check := Playbook.checkByManifest
  execute := w.execute

/-- Runs the playbook with an id on an intake. -/
def run (w : Workspace) (id intake : Value) : Playbook.Outcome Playbook.Report :=
  match w.loadPlaybook id with
  | .ok p => p.run w.services intake
  | .error e => ⟨.error e, []⟩

end Workspace

end ModelPlaybook
