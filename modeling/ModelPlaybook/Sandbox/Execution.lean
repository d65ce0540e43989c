import ModelPlaybook.Script.Trial

/-!
# Executing model logic

Model logic in a worker of its own, under a supervisor.
-/

namespace ModelPlaybook.Sandbox

/-- What executing model logic gives, with the messages that it logged. -/
structure Execution where
  result : Except Error Entries
  log : List String

/-- Executes a payload on inputs. -/
def executeScript (config : SandboxConfig) (payload inputs : Value) : Execution :=
  match accept payload inputs with
  | .error e => ⟨.error e, []⟩
  | .ok (text, plain) =>
    let trial := Script.tryOn text plain
    let supervision := execute (.ofConfig config) (fun _ _ => trial.behaviour.worker) payload inputs
    ⟨supervision.result, trial.log⟩

end ModelPlaybook.Sandbox
