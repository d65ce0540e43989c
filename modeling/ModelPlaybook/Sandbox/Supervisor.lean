import ModelPlaybook.Config
import ModelPlaybook.Sandbox.Plain
import ModelPlaybook.Value.Operation

/-!
# Supervising a worker

Model logic runs in a worker of its own, which reports over a pipe: it has started, it has
registered an entry point, it has succeeded, or it has failed.  The supervisor waits for each
report within the time of its phase, and whatever happens it disposes of the worker.
-/

namespace ModelPlaybook.Sandbox

/-- The phases of an execution. -/
inductive Phase where
  | startup
  | setup
  | invoke
deriving DecidableEq, Repr

def Phase.name : Phase → String
  | startup => "startup"
  | setup => "setup"
  | invoke => "invoke"

def started : String := "started"

def registered : String := "registered"

def succeeded : String := "succeeded"

def failed : String := "failed"

/-- The report that ends a phase well. -/
def Phase.expected : Phase → String
  | startup => started
  | setup => registered
  | invoke => succeeded

/-- The time that phases may take, in milliseconds: starting up, and any later phase. -/
structure TimeLimits where
  startup : Value := .int 30000
  later : Value := .int 5000

/-- The time limits of a configuration. -/
def TimeLimits.ofConfig (config : SandboxConfig) : TimeLimits where
  startup := .int config.startupTimeout
  later := .int config.timeout

/-- The time that a phase may take. -/
def Phase.limit (limits : TimeLimits) : Phase → Value
  | startup => limits.startup
  | setup => limits.later
  | invoke => limits.later

/-- The seconds for which to wait in a phase. -/
def Phase.seconds (limits : TimeLimits) (phase : Phase) : Except Fault Binary64 :=
  match (Application.mk .div false).apply (phase.limit limits) (.int 1000) with
  | .ok (.float x) => .ok x
  | .ok v => .error (.unsupported "/" v.typeName "int")
  | .error f => .error f

/-- What the supervisor can meet when it waits for a report. -/
inductive Arrival where
  /-- Nothing arrives in time. -/
  | silence
  /-- The worker is gone. -/
  | ending
  | report (status body : Value)
  /-- Something arrives that is no report; reading it fails. -/
  | garbled (f : Fault)
deriving Repr

/-- A worker as its supervisor sees it: what arrives, what it answers when asked whether it is
alive, and the exit code of its process.  A list that is used up goes on with silence, or with a
worker that is not alive. -/
structure Worker where
  arrivals : List Arrival
  alive : List Bool
  exitCode : Option Int

/-- What the supervisor does to the worker and to the pipe. -/
inductive Call where
  | process (payload : String) (inputs : Value)
  | start
  | closeSender
  | poll (seconds : Binary64)
  | receive
  | closeReceiver
  | isAlive
  | terminate
  | join (seconds : Option Nat)
  | kill
  | close
deriving DecidableEq, Repr

/-- The text of an exit code. -/
def exitText : Option Int → String
  | some n => toString n
  | none => "None"

def silenceError (phase : Phase) (limit : Value) : Error :=
  match phase with
  | .startup => .execution ("Sandbox worker did not start within " ++ limit.plainText ++ "ms")
  | _ => .timeout phase.name limit

def endingError (phase : Phase) (exitCode : Option Int) : Error :=
  .execution ("Sandbox worker exited unexpectedly during " ++ phase.name ++ " (exit code " ++
    exitText exitCode ++ ")")

/-- The error of a report that is not waited for, whose status has to be written for it. -/
def unexpectedError (phase : Phase) (status : Value) : Error :=
  match status.writeShown with
  | .ok shown =>
    .execution ("Unexpected sandbox message " ++ shown ++ " during " ++ phase.name)
  | .error f => .fault f

/-- What a report means in a phase: the body that was waited for, or an error.  A status cannot be
compared if it is a stand-in, but then it cannot be written either. -/
def readReport (phase : Phase) (status body : Value) : Except Error Value :=
  if status = .text failed then .error (.execution body.plainText)
  else if status = .text phase.expected then .ok body
  else .error (unexpectedError phase status)

/-- Waits for the report of a phase: its body or an error, the calls that were made, and what is
still to arrive. -/
def awaitReport (limits : TimeLimits) (exitCode : Option Int) (phase : Phase)
    (arrivals : List Arrival) : Except Error Value × List Call × List Arrival :=
  match phase.seconds limits with
  | .error f => (.error (.fault f), [], arrivals)
  | .ok seconds =>
    let poll := Call.poll seconds
    let silent := silenceError phase (phase.limit limits)
    match arrivals with
    | [] => (.error silent, [poll], [])
    | .silence :: rest => (.error silent, [poll], rest)
    | .ending :: rest =>
      (.error (endingError phase exitCode), [poll, .receive, .join (some 1)], rest)
    | .report status body :: rest => (readReport phase status body, [poll, .receive], rest)
    | .garbled f :: rest => (.error (.fault f), [poll, .receive], rest)

/-- Waits for the reports of several phases, as long as they arrive. -/
def awaitAll (limits : TimeLimits) (exitCode : Option Int) :
    List Phase → List Arrival → Except Error Value × List Call
  | [], _ => (.ok .none, [])
  | [phase], arrivals =>
    let (result, calls, _) := awaitReport limits exitCode phase arrivals
    (result, calls)
  | phase :: next :: rest, arrivals =>
    match awaitReport limits exitCode phase arrivals with
    | (.error e, calls, _) => (.error e, calls)
    | (.ok _, calls, arrivals) =>
      let (result, more) := awaitAll limits exitCode (next :: rest) arrivals
      (result, calls ++ more)

/-- Makes sure that the worker is gone. -/
def dispose (alive : List Bool) : List Call :=
  let stop :=
    match alive with
    | true :: true :: _ => [.terminate, .join (some 1), .isAlive, .kill]
    | true :: _ => [.terminate, .join (some 1), .isAlive]
    | _ => []
  [.closeReceiver, .isAlive] ++ stop ++ [.join none, .close]

/-- The outputs that a last report carries. -/
def outputsOf (body : Value) : Except Error Entries :=
  match body with
  | .map entries => .ok entries
  | _ => .error (.execution "Model logic must return a mapping containing output values")

/-- The error of inputs without a plain form.  It breaks the contract of an execution, unless their
parts break off with a fault of another kind. -/
def unplainError (fault : PlainFault) : Error :=
  if fault.fault.kind = .type then .contract fault.fault.text else .fault fault.fault

/-- The arguments of an execution as they are handed to a worker. -/
def accept (payload inputs : Value) : Except Error (String × Value) :=
  match payload.text? with
  | none => .error (.contract ("logic payload must be a string, got " ++ payload.typeName))
  | some text =>
    match inputs.entries? with
    | none => .error (.contract ("inputs must be a mapping, got " ++ inputs.typeName))
    | some _ =>
      match inputs.toPlain "inputs" with
      | .ok plain => .ok (text, plain)
      | .error fault => .error (unplainError fault)

/-- What an execution gives, and the calls that were made for it. -/
structure Supervision where
  result : Except Error Entries
  calls : List Call

/-- Executes a payload on inputs with a worker, which depends on what it is handed. -/
def execute (limits : TimeLimits) (worker : String → Value → Worker) (payload inputs : Value) :
    Supervision :=
  match accept payload inputs with
  | .error e => ⟨.error e, []⟩
  | .ok (text, plain) =>
    let w := worker text plain
    let (result, calls) := awaitAll limits w.exitCode [.startup, .setup, .invoke] w.arrivals
    let calls := [.process text plain, .start, .closeSender] ++ calls ++ dispose w.alive
    ⟨result.bind outputsOf, calls⟩

/-- The way of starting workers that a name asks for. -/
def startMethodOfName (name : String) : Except Error StartMethod :=
  match StartMethod.all.find? (·.name == name) with
  | some m => .ok m
  | none => .error (.fault (.ofValue ("cannot find context for " ++ Text.quoted name)))

end ModelPlaybook.Sandbox
