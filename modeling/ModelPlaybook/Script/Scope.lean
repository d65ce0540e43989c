import ModelPlaybook.Script.Namespace
import ModelPlaybook.Script.Object

/-!
# Names and scopes

Where a name is looked up and bound.  A function knows its own names from the start; all others
belong to the functions around it, to the script, or to what every script knows.
-/

namespace ModelPlaybook.Script

/-- The scope in a cell. -/
def Run.scopeAt (a : Address) : Run Scope := do
  match ← Run.read a with
  | .scope s => pure s
  | _ => pure ⟨.script, [], [], [], some "", none⟩

namespace Scope

/-- Binds a name. -/
def bind (s : Scope) (name : String) (o : Object) : Scope :=
  if s.bindings.any (·.1 == name) then
    { s with bindings := s.bindings.map fun entry =>
        if entry.1 == name then (name, o) else entry }
  else { s with bindings := (name, o) :: s.bindings }

/-- Takes the binding of a name away. -/
def unbind (s : Scope) (name : String) : Scope :=
  { s with bindings := s.bindings.filter (·.1 != name) }

def get? (s : Scope) (name : String) : Option Object :=
  s.bindings.lookup name

end Scope

/-- The deepest nesting of scopes. -/
def scopeDepth : Nat := 10000

namespace Frame

/-- A name that an error tells stands for nothing. -/
def raiseName {α : Type} (name text : String) : Run α :=
  Run.raiseError "NameError" [.text text] (some text) [("name", .text name)]

def unbound {α : Type} (name : String) : Run α :=
  raiseName name ("name '" ++ name ++ "' is not defined")

def unboundOwn {α : Type} (name : String) : Run α :=
  Run.raiseFault ⟨.named "UnboundLocalError",
    "cannot access local variable '" ++ name ++ "' where it is not associated with a value"⟩

def unboundFree {α : Type} (name : String) : Run α :=
  raiseName name ("cannot access free variable '" ++ name ++
    "' where it is not associated with a value in enclosing scope")

/-- What a name stands for in the whole script. -/
def global (name : String) : Run Object := do
  match (← Run.scopeAt Run.scriptScope).get? name, Namespace.known? name with
  | some o, _ => pure o
  | none, some o => pure o
  | none, none => unbound name

/-- What a name stands for in the functions around a scope, or in the whole script. -/
def fromOutside (name : String) : Nat → Option Address → Run Object
  | 0, _ => throw .exhausted
  | _ + 1, none => global name
  | fuel + 1, some a => do
    let s ← Run.scopeAt a
    match s.kind with
    | .function =>
      if s.own.contains name then
        match s.get? name with
        | some o => pure o
        | none => unboundFree name
      else if s.given.contains name then global name
      else fromOutside name fuel s.outer
    | .kind => fromOutside name fuel s.outer
    | .script => global name

/-- What a name stands for that no block binds to something else. -/
def lookupBound (f : Frame) (name : String) : Run Object := do
  let s ← Run.scopeAt f.scope
  match s.kind with
  | .function =>
    if s.own.contains name then
      match s.get? name with
      | some o => pure o
      | none => unboundOwn name
    else if s.given.contains name then global name
    else fromOutside name scopeDepth s.outer
  | _ =>
    match s.get? name with
    | some o => pure o
    | none => fromOutside name scopeDepth s.outer

/-- The scope that keeps what is printed, with what it has kept so far. -/
def printing (f : Frame) : Run (Address × String) :=
  within scopeDepth f.scope
where
  within : Nat → Address → Run (Address × String)
    | 0, _ => throw .exhausted
    | fuel + 1, a => do
      let s ← Run.scopeAt a
      match s.printed, s.outer with
      | some text, _ => pure (a, text)
      | none, some outer => within fuel outer
      | none, none => pure (a, "")

/-- What a name stands for. -/
def lookup (f : Frame) (name : String) : Run Object := do
  match name with
  | "print" => do pure (.printer (← f.printing).1)
  | "printed" => do Run.anew (.text (← f.printing).2)
  | name => f.lookupBound name

/-- The scope in which a name is bound. -/
def home (f : Frame) (name : String) : Run Address := do
  pure (if (← Run.scopeAt f.scope).given.contains name then Run.scriptScope else f.scope)

/-- Binds a name. -/
def bind (f : Frame) (name : String) (o : Object) : Run Unit := do
  let a ← f.home name
  Run.write a (.scope ((← Run.scopeAt a).bind name o))

/-- Takes a binding away that may be missing. -/
def unbind (f : Frame) (name : String) : Run Unit := do
  let a ← f.home name
  Run.write a (.scope ((← Run.scopeAt a).unbind name))

/-- Takes a binding away that has to be there. -/
def delete (f : Frame) (name : String) : Run Unit := do
  let s ← Run.scopeAt (← f.home name)
  match s.get? name, s.kind with
  | some _, _ => f.unbind name
  | none, .function => unboundOwn name
  | none, _ => unbound name

end Frame

end ModelPlaybook.Script
