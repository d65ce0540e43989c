import ModelPlaybook.Sandbox.Plain
import ModelPlaybook.Value.Shown

/-!
# Blocked capabilities

Names that would reach the host are not left out of a sandbox: each is bound to an inert stand-in,
and whatever model logic does with it is denied by name.
-/

namespace ModelPlaybook.Sandbox

/-- The blocked names in groups. -/
def blockedGroups : List (String × List String) := [
  ("dynamic_code", ["__import__", "eval", "exec", "compile", "importlib", "runpy"]),
  ("process_environment",
    ["os", "sys", "subprocess", "environ", "getenv", "open", "input", "breakpoint", "help", "exit",
      "quit", "shutil", "pathlib", "io"]),
  ("ambient_globals",
    ["globals", "locals", "vars", "dir", "getattr", "setattr", "delattr", "builtins", "inspect",
      "gc", "type", "object", "super"]),
  ("timers", ["threading", "multiprocessing", "signal", "sched", "asyncio", "sleep", "concurrent"]),
  ("raw_buffers",
    ["bytes", "bytearray", "memoryview", "ctypes", "mmap", "pickle", "marshal", "struct"]),
  ("network", ["socket", "ssl", "http", "urllib", "requests", "httpx", "ftplib", "smtplib"])]

def blockedNames : List String :=
  blockedGroups.flatMap (·.2)

def isBlocked (name : String) : Bool :=
  blockedNames.contains name

/-- The type of the stand-ins in messages. -/
def standInType : String := "BlockedCapability"

/-- The value that stands for a blocked name; another one may stand for the same name. -/
def standIn (name : String) (n : Nat := 0) : Value :=
  .foreign standInType (.blocked name n)

/-- What model logic or a host can do with a stand-in. -/
inductive Use where
  /-- Attributes, calls, items, iteration, comparison, text, hashing and pickling. -/
  | operation
  | freeze
  | toPlain
deriving DecidableEq, Repr

/-- The outcome of using the stand-in for a blocked name. -/
def useStandIn (name : String) : Use → Except Fault Value
  | .operation => .error (.denied name)
  | .freeze => .ok (.text (standIn name).freeze.typeName)
  | .toPlain =>
    match (Value.map [(.text "v", standIn name)]).toPlain "value" with
    | .ok v => .ok v
    | .error fault => .error fault.fault

/-- The text that one logging call records. -/
def logMessage (arguments : List Value) : Except Fault String := do
  pure (" ".intercalate (← arguments.mapM (·.writePlain)))

end ModelPlaybook.Sandbox
