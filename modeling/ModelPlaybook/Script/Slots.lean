import ModelPlaybook.Script.Evaluator

/-!
# Slots

How the arguments of a call find the parameters of a function that scripts know by itself.  Such
functions say less about what is wrong with their arguments than functions of a script do, and look
at it in another order.
-/

namespace ModelPlaybook.Script

/-- The parameters of a function.  The first ones have to be there; those that can only be given by
position have no names in a call. -/
structure Slots where
  /-- The name of the function in messages, if they tell it. -/
  function : Option String
  names : List String
  required : Nat := 0
  unnamed : Nat := 0
  /-- How many of the parameters can be given by position. -/
  placed : Nat := names.length

namespace Slots

/-- How messages name the function. -/
def called (s : Slots) : String :=
  s.function.elim "function" (· ++ "()")

/-- Stops at more arguments than there are parameters. -/
def ensureRoom (s : Slots) (g : Given) : Run Unit := do
  let most := s.names.length
  if most < g.count then
    Run.raiseType (s.called ++ " takes at most " ++ toString most ++
      (if g.positional.isEmpty then " keyword" else "") ++ " argument" ++
      (if most = 1 then "" else "s") ++ " (" ++ toString g.count ++ " given)")

/-- The argument for a parameter, if there is one. -/
def argument? (s : Slots) (g : Given) (name : String) (i : Nat) : Run (Option Object) := do
  if i = s.placed && s.placed < g.positional.length then
    Run.raiseType (s.called ++ " takes at most " ++ toString s.placed ++ " positional argument" ++
      (if s.placed = 1 then "" else "s") ++ " (" ++ toString g.positional.length ++ " given)")
  let named := if i < s.unnamed then none else g.get? name
  let found := g.positional[i]?.or named
  if found.isNone && i < s.required then
    Run.raiseType (s.called ++ " missing required argument '" ++ name ++ "' (pos " ++
      toString (i + 1) ++ ")")
  pure found

/-- Stops at a named argument for a parameter that has one by position, or for none. -/
def ensureNames (s : Slots) (g : Given) : Run Unit := do
  let parameters := s.names.zipIdx.filter fun entry => s.unnamed ≤ entry.2
  match parameters.find? fun (name, i) => i < g.positional.length && (g.get? name).isSome with
  | some (name, i) =>
    Run.raiseType ("argument for " ++ s.called ++ " given by name ('" ++ name ++
      "') and position (" ++ toString (i + 1) ++ ")")
  | none =>
    match g.named.find? fun entry => !(parameters.map (·.1)).contains entry.1 with
    | some (name, _) =>
      Run.raiseType ("'" ++ name ++ "' is an invalid keyword argument for " ++
        s.function.elim "this function" (· ++ "()"))
    | none => pure ()

/-- Fills the parameters.  Each argument is converted when its parameter is reached. -/
def fillWith {α : Type} (s : Slots) (convert : Nat → Object → Run α) (g : Given) :
    Run (List (Option α)) := do
  s.ensureRoom g
  let filled ← s.names.zipIdx.mapM fun (name, i) => do
    match ← s.argument? g name i with
    | some o => do pure (some (← convert i o))
    | none => pure none
  s.ensureNames g
  pure filled

/-- Fills the parameters with arguments as they are. -/
def fill (s : Slots) (g : Given) : Run (List (Option Object)) :=
  s.fillWith (fun _ o => pure o) g

end Slots

end ModelPlaybook.Script
