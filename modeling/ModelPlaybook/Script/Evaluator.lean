import ModelPlaybook.Script.Plain

/-!
# What a running part of a script relies on

Expressions, statements, calls and iterators depend on one another.  Each is described on its own,
over an evaluator that stands for all of them; evaluators of growing depth tie them together.
-/

namespace ModelPlaybook.Script

/-- How a block of statements ends. -/
inductive Flow where
  | onward
  | breakLoop
  | continueLoop
  | giveBack (o : Object)

/-- The arguments of a call. -/
structure Given where
  positional : List Object
  named : List (String × Object)

structure Evaluator where
  expression : Frame → Expr → Run Object
  block : Frame → List Stmt → Run Flow
  call : Object → Given → Run Object
  /-- The next object of an iterator, as long as there is one. -/
  advance : Address → Run (Option Object)

namespace Evaluator

/-- Calls an object with positional arguments only. -/
def apply (ev : Evaluator) (function : Object) (arguments : List Object) : Run Object :=
  ev.call function ⟨arguments, []⟩

/-- An evaluator that answers nothing. -/
def exhausted : Evaluator where
  expression _ _ := throw .exhausted
  block _ _ := throw .exhausted
  call _ _ := throw .exhausted
  advance _ := throw .exhausted

end Evaluator

/-! ## Arguments -/

/-- A number of arguments in words. -/
def argumentCount (n : Nat) : String :=
  toString n ++ " argument" ++ (if n = 1 then "" else "s")

namespace Given

def count (g : Given) : Nat :=
  g.positional.length + g.named.length

def get? (g : Given) (name : String) : Option Object :=
  g.named.lookup name

/-- Stops at arguments with names. -/
def ensureUnnamed (g : Given) (function : String) : Run Unit := do
  if !g.named.isEmpty then
    Run.raiseType (function ++ "() takes no keyword arguments")

/-- No arguments at all. -/
def nothing (g : Given) (function : String) : Run Unit := do
  g.ensureUnnamed function
  if !g.positional.isEmpty then
    Run.raiseType (function ++ "() takes no arguments (" ++ toString g.positional.length ++
      " given)")

/-- The only argument. -/
def single (g : Given) (function : String) : Run Object := do
  g.ensureUnnamed function
  match g.positional with
  | [o] => pure o
  | os =>
    Run.raiseType (function ++ "() takes exactly one argument (" ++ toString os.length ++
      " given)")

/-- Stops unless the number of positional arguments lies between two bounds. -/
def ensureCount (g : Given) (function : String) (low high : Nat) : Run Unit := do
  let n := g.positional.length
  let complain (word : String) (bound : Nat) : Run Unit :=
    Run.raiseType (function ++ " expected " ++ word ++ argumentCount bound ++ ", got " ++
      toString n)
  if n < low then complain (if low = high then "" else "at least ") low
  else if high < n then complain (if low = high then "" else "at most ") high

/-- Positional arguments only, of a number between two bounds. -/
def several (g : Given) (function : String) (low high : Nat) : Run (List Object) := do
  g.ensureUnnamed function
  g.ensureCount function low high
  pure g.positional

/-- Positional arguments of a method, of a number between two bounds. -/
def severalOf (g : Given) (owner name : String) (low high : Nat) : Run (List Object) := do
  g.ensureUnnamed (owner ++ "." ++ name)
  g.ensureCount name low high
  pure g.positional

/-- The named arguments alone. -/
def onlyNamed (g : Given) : Given :=
  { g with positional := [] }

/-- One argument or none. -/
def atMostOne (g : Given) (function : String) : Run (Option Object) := do
  pure (← g.several function 0 1).head?

end Given

end ModelPlaybook.Script
