import ModelPlaybook.Script.Evaluator

/-!
# Signatures

How the arguments of a call find the parameters of a function: by position or by name, with defaults
for those that are left out.
-/

namespace ModelPlaybook.Script

/-- The parameters of a function.  The defaults belong to the last positional ones. -/
structure Signature where
  /-- The name of the function in messages. -/
  path : String
  positional : List String
  defaults : List Object
  hasRest : Bool
  named : List String
  namedDefaults : List (String × Object)
  hasNamedRest : Bool

/-- The parameters with their arguments, and the arguments that are left. -/
structure Arguments where
  parameters : List (String × Object)
  rest : List Object
  others : List (String × Object)

/-- Names in a sentence, each in quotes. -/
def namesInWords (names : List String) : String :=
  let quoted := names.map fun name => "'" ++ name ++ "'"
  match quoted.reverse with
  | [] => ""
  | [one] => one
  | [last, first] => first ++ " and " ++ last
  | last :: rest => ", ".intercalate rest.reverse ++ ", and " ++ last

namespace Signature

/-- The parameters that have no arguments yet. -/
def missing (s : Signature) (kind : String) (names : List String) : Run Unit := do
  if !names.isEmpty then
    Run.raiseType (s.path ++ "() missing " ++ toString names.length ++ " required " ++ kind ++
      " argument" ++ (if names.length = 1 then "" else "s") ++ ": " ++ namesInWords names)

/-- Stops at more positional arguments than there are parameters for them. -/
def tooMany (s : Signature) (g : Given) : Run Unit := do
  let most := s.positional.length
  let least := most - s.defaults.length
  let takes :=
    if s.defaults.isEmpty then
      toString most ++ " positional argument" ++ (if most = 1 then "" else "s")
    else "from " ++ toString least ++ " to " ++ toString most ++ " positional arguments"
  let byName := (s.named.filter fun name => (g.get? name).isSome).length
  let count := g.positional.length
  let given :=
    if byName = 0 then toString count ++ (if count = 1 then " was" else " were") ++ " given"
    else toString count ++ " positional argument" ++ (if count = 1 then "" else "s") ++ " (and " ++
      toString byName ++ " keyword-only argument" ++ (if byName = 1 then "" else "s") ++
      ") were given"
  Run.raiseType (s.path ++ "() takes " ++ takes ++ " but " ++ given)

/-- Stops: a name that no parameter has. -/
def unexpected {α : Type} (s : Signature) (name : String) : Run α :=
  Run.raiseType (s.path ++ "() got an unexpected keyword argument '" ++ name ++ "'")

/-- Stops at a named argument that no parameter takes, or that has its parameter filled already. -/
def checkNamed (s : Signature) (g : Given) : Run Unit :=
  g.named.forM fun (name, _) => do
    let filled := s.positional.take g.positional.length
    if filled.contains name then
      Run.raiseType (s.path ++ "() got multiple values for argument '" ++ name ++ "'")
    else if !(s.positional ++ s.named).contains name && !s.hasNamedRest then s.unexpected name

/-- Fills the parameters. -/
def fill (s : Signature) (g : Given) : Run Arguments := do
  let names := s.positional
  s.checkNamed g
  if names.length < g.positional.length && !s.hasRest then s.tooMany g
  let withDefaults := names.drop (names.length - s.defaults.length)
  let defaults := withDefaults.zip s.defaults
  let direct := names.zip g.positional
  let pick (name : String) : Option Object :=
    (direct.lookup name).or ((g.get? name).or (defaults.lookup name))
  let pickNamed (name : String) : Option Object :=
    (g.get? name).or (s.namedDefaults.lookup name)
  s.missing "positional" (names.filter fun name => (pick name).isNone)
  s.missing "keyword-only" (s.named.filter fun name => (pickNamed name).isNone)
  let found (pick : String → Option Object) (names : List String) : List (String × Object) :=
    names.filterMap fun name => (pick name).map fun o => (name, o)
  pure {
    parameters := found pick names ++ found pickNamed s.named
    rest := g.positional.drop names.length
    others := g.named.filter fun entry => !(names ++ s.named).contains entry.1 }

end Signature

end ModelPlaybook.Script
