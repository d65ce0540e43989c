import ModelPlaybook.Number.DecimalText
import ModelPlaybook.Text.Quoted

/-!
# Faults

A fault is a failure of an operation on values, as opposed to a rule of the playbook language that
was broken.  Its kind carries the name under which model logic can catch it and under which it
appears in messages.
-/

namespace ModelPlaybook

inductive FaultKind where
  | type
  | value
  | key
  | index
  | missingAttribute
  | lookup
  | zeroDivision
  | overflow
  | encoding
  | notImplemented
  | permission
  | decimal (signal : DecimalSignal)
  | named (name : String)
deriving DecidableEq, Repr

/-- The class of a decimal signal: three conditions are invalid operations of a special kind. -/
def DecimalSignal.className : DecimalSignal → String
  | .overflow => "Overflow"
  | .divisionByZero => "DivisionByZero"
  | _ => "InvalidOperation"

def FaultKind.name : FaultKind → String
  | type => "TypeError"
  | value => "ValueError"
  | key => "KeyError"
  | index => "IndexError"
  | missingAttribute => "AttributeError"
  | lookup => "LookupError"
  | zeroDivision => "ZeroDivisionError"
  | overflow => "OverflowError"
  | encoding => "UnicodeDecodeError"
  | notImplemented => "NotImplementedError"
  | permission => "PermissionError"
  | decimal signal => signal.className
  | named name => name

/-- The kind with a name. -/
def FaultKind.ofName (name : String) : FaultKind :=
  let known : List FaultKind := [.type, .value, .key, .index, .missingAttribute, .lookup,
    .zeroDivision, .overflow, .encoding, .notImplemented, .permission]
  (known.find? (·.name = name)).getD (.named name)

structure Fault where
  kind : FaultKind
  text : String
deriving DecidableEq, Repr

namespace Fault

def ofSignal (s : DecimalSignal) : Fault :=
  ⟨.decimal s, s.text⟩

/-- A fault as it is shown inside a message: its kind and its quoted text. -/
def shown (f : Fault) : String :=
  match f.kind with
  | .decimal s => s.className ++ "(" ++ s.text ++ ")"
  | kind => kind.name ++ "(" ++ Text.quoted f.text ++ ")"

def divisionByZero : Fault := ⟨.zeroDivision, "division by zero"⟩

def intTooLarge : Fault := ⟨.overflow, "int too large to convert to float"⟩

def quotientTooLarge : Fault :=
  ⟨.overflow, "integer division result too large for a float"⟩

def ofType (text : String) : Fault := ⟨.type, text⟩

def ofValue (text : String) : Fault := ⟨.value, text⟩

/-- An ordering was asked of values that have none. -/
def unordered (symbol left right : String) : Fault :=
  .ofType ("'" ++ symbol ++ "' not supported between instances of '" ++ left ++ "' and '" ++
    right ++ "'")

/-- An operator was applied to values of types it does not know. -/
def unsupported (symbol left right : String) : Fault :=
  .ofType ("unsupported operand type(s) for " ++ symbol ++ ": '" ++ left ++ "' and '" ++ right ++
    "'")

def badBytes : Fault := ⟨.encoding, "<utf-8 decode error>"⟩

/-- A text was to be encoded that cannot be. -/
def badText : Fault := ⟨.named "UnicodeEncodeError", "<utf-8 encode error>"⟩

/-- A blocked name was used. -/
def denied (name : String) : Fault :=
  ⟨.permission, "Access to '" ++ name ++ "' is not permitted inside the sandbox"⟩

end Fault

/-- A decimal signal as a fault. -/
def liftSignal {α : Type} (r : Except DecimalSignal α) : Except Fault α :=
  match r with
  | .ok a => .ok a
  | .error s => .error (.ofSignal s)

end ModelPlaybook
