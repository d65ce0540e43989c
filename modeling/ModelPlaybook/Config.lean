import ModelPlaybook.Error
import ModelPlaybook.Files
import ModelPlaybook.Schema.Field

/-!
# Configuration

Settings for running models in a sandbox, and the directories that models and playbooks are read
from.
-/

namespace ModelPlaybook

open ModelPlaybook.Schema

/-- How a worker process is started. -/
inductive StartMethod where
  | spawn | forkserver | fork
deriving DecidableEq, Repr

def StartMethod.name : StartMethod → String
  | spawn => "spawn"
  | forkserver => "forkserver"
  | fork => "fork"

def StartMethod.all : List StartMethod := [spawn, forkserver, fork]

def StartMethod.check (v : Value) : Checked StartMethod :=
  match v.text?.bind fun s => all.find? (·.name == s) with
  | some m => .valid m
  | none => .fail (.notAmong "'spawn', 'forkserver' or 'fork'")

/-- The settings of a sandbox: the time for each phase and for starting up, in milliseconds. -/
structure SandboxConfig where
  timeout : Int := 5000
  startupTimeout : Int := 30000
  startMethod : StartMethod := .spawn
deriving DecidableEq, Repr

def checkMilliseconds (v : Value) : Checked Int :=
  (whole v).andThen (atLeast 1)

/-- Reads settings; keys that are no settings are ignored. -/
def SandboxConfig.check (entries : Entries) : Checked SandboxConfig :=
  SandboxConfig.mk <$> withDefault entries "timeout_ms" 5000 checkMilliseconds <*>
    withDefault entries "startup_timeout_ms" 30000 checkMilliseconds <*>
    withDefault entries "start_method" .spawn StartMethod.check

def SandboxConfig.ofEntries (entries : Entries) : Except Error SandboxConfig :=
  if hasTextKeys entries then
    match check entries with
    | .valid c => .ok c
    | .invalid issues => .error (.invalidDocument issues)
  else .error (.fault badKey)

structure RuntimeConfig where
  modelsDir : String := "models"
  playbooksDir : String := "playbooks"
  sandbox : SandboxConfig := {}
deriving DecidableEq, Repr

namespace RuntimeConfig

def modelsDirName : String := "FINLOGIC_MODELS_DIR"

def playbooksDirName : String := "FINLOGIC_PLAYBOOKS_DIR"

def timeoutName : String := "FINLOGIC_SANDBOX_TIMEOUT_MS"

/-- The setting of a name among those of an environment, unless it is empty. -/
def setting? (environment : List (String × String)) (name : String) : Option String :=
  ((environment.find? (·.1 == name)).map (·.2)).filter (· ≠ "")

/-- The configuration that an environment asks for. -/
def ofEnvironment (environment : List (String × String)) : Except Error RuntimeConfig := do
  let sandbox ←
    match setting? environment timeoutName with
    | none => pure {}
    | some s =>
      match WholeText.read 10 s with
      | .ok n => SandboxConfig.ofEntries [(.text "timeout_ms", .int n)]
      | .error fault => .error (.fault fault)
  let directory (name default : String) : String :=
    ((setting? environment name).map Path.normalize).getD default
  pure ⟨directory modelsDirName "models", directory playbooksDirName "playbooks", sandbox⟩

end RuntimeConfig

end ModelPlaybook
