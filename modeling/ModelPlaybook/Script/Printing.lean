import ModelPlaybook.Script.Attribute
import ModelPlaybook.Script.Library
import ModelPlaybook.Script.Scope

/-!
# Printing

What a function prints is kept with its names, and the function can read it as a text.  What is
printed outside of functions is kept by the script.
-/

namespace ModelPlaybook.Script

namespace Printing

/-- Where printing writes to. -/
inductive Target where
  | scope (a : Address)
  | file (o : Object)

def Target.write (ev : Evaluator) (t : Target) (text : Run String) : Run Unit := do
  match t with
  | .scope a =>
    let more ← text
    let s ← Run.scopeAt a
    Run.write a (.scope { s with printed := some (s.printed.getD "" ++ more) })
  | .file o =>
    match ← o.getAttribute Library.member? "write" with
    | .nothing => o.missingAttribute "write"
    | writer =>
      let _ ← ev.apply writer [.text (← text)]

def slots : Slots where
  function := some "print"
  names := ["sep", "end", "file", "flush"]

/-- A text that stands between or after what is printed. -/
def mark (name usual : String) (o : Option Object) : Run String := do
  match o.getD .nothing with
  | .nothing => pure usual
  | .scalar (.text s) _ => pure s
  | o => Run.raiseType (name ++ " must be None or a string, not " ++ (← o.familyName))

/-- Prints objects. -/
def print (ev : Evaluator) (a : Address) (g : Given) : Run Object := do
  let target : Target :=
    match (g.get? "file").getD .nothing with
    | .nothing => .scope a
    | o => .file o
  match g.get? "file" with
  | some (.standIn name) => Run.deny name
  | _ => pure ()
  match ← slots.fill g.onlyNamed with
  | [separator, last, _, flush] =>
    let flushes ← flush.elim (pure false) (·.isTrue)
    let between ← mark "sep" " " separator
    let after ← mark "end" "\n" last
    g.positional.zipIdx.forM fun (o, i) => do
      if 0 < i then target.write ev (pure between)
      target.write ev o.plainText
    target.write ev (pure after)
    if flushes then
      Run.raiseFault ⟨.missingAttribute, "'PrintCollector' object has no attribute 'flush'"⟩
    pure .nothing
  | _ => pure .nothing

end Printing

end ModelPlaybook.Script
