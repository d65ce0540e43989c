import ModelPlaybook.Script.Method
import ModelPlaybook.Script.Primitive
import ModelPlaybook.Script.Printing
import ModelPlaybook.Script.Scope
import ModelPlaybook.Script.Signature

/-!
# Calls

How a function is run on arguments, and what calling any object does.
-/

namespace ModelPlaybook.Script

namespace Closure

def signature (c : Closure) : Signature where
  path := c.path
  positional := c.parameters.positional
  defaults := c.defaults
  hasRest := c.parameters.rest.isSome
  named := c.parameters.named.map (·.name)
  namedDefaults := c.namedDefaults
  hasNamedRest := c.parameters.namedRest.isSome

/-- What the parameters of a function are bound to. -/
def bindings (c : Closure) (g : Given) : Run (List (String × Object)) := do
  let filled ← c.signature.fill g
  let rest ← c.parameters.rest.toList.mapM fun name => do
    pure (name, ← Run.anew (.tuple filled.rest))
  let namedRest ← c.parameters.namedRest.toList.mapM fun name => do
    pure (name, ← Run.newDict (filled.others.map fun (name, o) => (.text name, o)))
  pure (filled.parameters ++ rest ++ namedRest)

/-- What stands before the names of what is defined inside a function. -/
def innerPath (path : String) : String :=
  path ++ ".<locals>."

/-- Runs a function on arguments. -/
def run (ev : Evaluator) (c : Closure) (g : Given) : Run Object := do
  let bindings ← c.bindings g
  let (own, handed, kept) :=
    match c.body with
    | .block statements =>
      (ownNames c.parameters.names statements, handedOverBy statements, some "")
    | .value _ => (c.parameters.names, [], none)
  match ← Run.allocate (.scope ⟨.function, own, handed, bindings, kept, some c.scope⟩) with
  | .cell a =>
    let frame : Frame := ⟨a, innerPath c.path⟩
    match c.body with
    | .block statements =>
      match ← ev.block frame statements with
      | .giveBack o => pure o
      | _ => pure .nothing
    | .value e => ev.expression frame e
  | _ => pure .nothing

end Closure

/-- Calls an object. -/
def Object.call (ev : Evaluator) (function : Object) (g : Given) : Run Object := do
  let refused : Run Object := do
    Run.raiseType ("'" ++ (← function.familyName) ++ "' object is not callable")
  match function with
  | .standIn name => Run.deny name
  | .kind k => do Run.anew (← make ev k g)
  | .primitive p => do Run.anew (← Primitive.call ev p g)
  | .printer a => Printing.print ev a g
  | .member l name => do Run.anew (← Library.call ev l name g)
  | .method receiver name => do Run.anew (← callMethod ev receiver name g)
  | .cell a =>
    match ← Run.read a with
    | .closure c => c.run ev g
    | .custom _ => customGiven ev a g
    | .bound receiver function => ev.call function ⟨receiver :: g.positional, g.named⟩
    | _ => refused
  | _ => refused

end ModelPlaybook.Script
