import ModelPlaybook.Sandbox.Supervisor

/-!
# Workers

What a worker reports while model logic is loaded and its entry point is called.  Whatever the
model logic does, the reports follow from it; a worker that dies leaves the rest of them unsent.
-/

namespace ModelPlaybook.Sandbox

/-- What model logic does when it is loaded. -/
inductive Loading where
  /-- It raises an error with a description. -/
  | raises (description : String)
  | registersNothing
  | registers
  /-- It ends the process. -/
  | exits (code : Int)
  | hangs
deriving Repr

/-- What an entry point does when it is called. -/
inductive Invocation where
  | raises (description : String)
  /-- It gives something, of which the worker meets what its conversion meets. -/
  | gives (c : Cargo)
  | exits (code : Int)
  | hangs
deriving Repr

/-- What model logic does; the invocation matters only if the loading registers an entry point. -/
structure Behaviour where
  loading : Loading
  invocation : Invocation
deriving Repr

/-- A report as it is sent: its status and its body. -/
structure Report where
  status : String
  body : Value
deriving Repr

def Report.arrival (r : Report) : Arrival :=
  .report (.text r.status) r.body

/-- The report of a failure. -/
def failure (message : String) : Report :=
  ⟨failed, .text message⟩

/-- The description of loading that registers nothing. -/
def nothingRegistered : String :=
  "LookupError: Model logic must register an entry point with @register or define compute(inputs)"

/-- The description of an error: its kind, and its text if it has one. -/
def describe (f : Fault) : String :=
  if f.text = "" then f.kind.name else f.kind.name ++ ": " ++ f.text

/-- The report on what an entry point gave. -/
def reportOn (c : Cargo) : Report :=
  if c.isMapping then
    match c.toPlain "outputs" with
    | .ok plain => ⟨succeeded, plain⟩
    | .error fault =>
      failure ("Model logic returned an unsupported value: " ++ describe fault.fault)
  else failure ("Model logic must return a mapping containing output values, got " ++ c.typeName)

def Invocation.reports : Invocation → List Report
  | raises description => [failure ("Model execution error: " ++ description)]
  | gives c => [reportOn c]
  | exits _ => []
  | hangs => []

namespace Behaviour

/-- The reports that a worker sends unless it dies. -/
def reports (b : Behaviour) : List Report :=
  ⟨started, .none⟩ ::
    match b.loading with
    | .raises description => [failure ("Model setup error: " ++ description)]
    | .registersNothing => [failure ("Model setup error: " ++ nothingRegistered)]
    | .registers => ⟨registered, .none⟩ :: b.invocation.reports
    | .exits _ => []
    | .hangs => []

/-- The exit code of the process, if it ends. -/
def exitCode? (b : Behaviour) : Option Int :=
  match b.loading, b.invocation with
  | .registers, .exits code => some code
  | .registers, .hangs => none
  | .registers, _ => some 0
  | .exits code, _ => some code
  | .hangs, _ => none
  | _, _ => some 0

/-- A worker that runs model logic to its end.  If it hangs, nothing more arrives. -/
def worker (b : Behaviour) : Worker :=
  let sent := b.reports.map (·.arrival)
  match b.exitCode? with
  | some code => ⟨sent ++ [.ending], [], some code⟩
  | none => ⟨sent, [true], none⟩

/-- A worker that dies after some reports. -/
def dyingWorker (b : Behaviour) (sent : Nat) (exitCode : Option Int) : Worker :=
  ⟨(b.reports.take sent).map (·.arrival) ++ [.ending], [], exitCode⟩

end Behaviour

end ModelPlaybook.Sandbox
