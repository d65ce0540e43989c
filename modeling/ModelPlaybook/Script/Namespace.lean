import ModelPlaybook.Script.Kind
import ModelPlaybook.Script.Library

/-!
# The names around a script

Names stand for something without having been assigned to: the blocked ones for their stand-ins,
the allowed bindings, and what every script knows.
-/

namespace ModelPlaybook.Script

namespace Namespace

def stepRoundings : List Rounding :=
  [.halfUp, .halfEven, .up, .down, .ceiling, .floor]

/-- The bindings that are allowed besides the blocked names. -/
def allowed : List (String × Object) := [
  ("math", .library .math), ("Decimal", .kind .decimal), ("json", .library .json),
  ("time", .library .time), ("datetime", .kind .dateTime), ("date", .kind .date),
  ("timedelta", .kind .duration), ("log", .logger), ("register", .primitive .register)] ++
    stepRoundings.map fun mode => (mode.name, .text mode.name)

/-- Names that scripts cannot spell, through which their attributes, items, iterations, calls,
assignments and output are guarded. -/
def guards : List String := [
  "__builtins__", "__metaclass__", "__name__", "_apply_", "_getattr_", "_getitem_", "_getiter_",
  "_inplacevar_", "_iter_unpack_sequence_", "_print_", "_unpack_sequence_", "_write_"]

/-- The functions that every script knows. -/
def functions : List (String × Object) := [
  ("abs", .primitive .abs), ("all", .primitive .all), ("any", .primitive .any),
  ("callable", .primitive .callable), ("chr", .primitive .chr), ("divmod", .primitive .divmod),
  ("hash", .primitive .hash), ("hex", .primitive .hex), ("id", .primitive .id),
  ("isinstance", .primitive .isInstance), ("issubclass", .primitive .isSubclass),
  ("len", .primitive .len), ("max", .primitive .max), ("min", .primitive .min),
  ("oct", .primitive .oct), ("ord", .primitive .ord), ("pow", .primitive .pow),
  ("repr", .primitive .repr), ("round", .primitive .round), ("sorted", .primitive .sorted),
  ("sum", .primitive .sum)]

/-- The kinds that every script knows, errors apart. -/
def kinds : List Kind := [
  .bool, .complex, .dict, .enumerate, .filter, .float, .frozenSet, .int, .list, .map, .range,
  .reversed, .set, .slice, .text, .tuple, .zip]

/-- Kinds of errors that have no name in scripts. -/
def unnamedErrors : List String :=
  ["DecimalException", "DivisionByZero", "InvalidOperation", "JSONDecodeError", "Overflow"] ++
    (errorParents.map (·.1)).filter fun name =>
      name ≠ "OSError" && errorIncludes "OSError" kindDepth name

/-- The kinds of errors with the names that scripts have for them. -/
def errors : List (String × Object) :=
  let named := (errorParents.map (·.1)).filter fun name => !unnamedErrors.contains name
  named.map (fun name => (name, .kind (.error name))) ++
    ["EnvironmentError", "IOError"].map fun name => (name, .kind (.error "OSError"))

/-- What every script knows, unless it binds a name to something else. -/
def known : List (String × Object) :=
  functions ++ kinds.map (fun k => (k.name, .kind k)) ++ errors ++ [("Ellipsis", .ellipsis)]

/-- Names of what every script knows that it cannot spell, or that are words of the language. -/
def knownWords : List String := ["False", "None", "True", "__build_class__", "_getattr_"]

/-- The stand-ins of the blocked names. -/
def standIns : List (String × Object) :=
  Sandbox.blockedNames.map fun name => (name, .standIn name)

/-- The bindings that a script starts with. -/
def atStart : List (String × Object) :=
  standIns ++ allowed

/-- What a name stands for that the script does not bind. -/
def known? (name : String) : Option Object :=
  (standIns ++ known).lookup name

def inOrder (names : List String) : List String :=
  names.mergeSort fun a b => decide (a ≤ b)

/-- The names of the bindings that are allowed, guards included. -/
def allowedNames : List String :=
  inOrder (allowed.map (·.1) ++ guards)

/-- The names of what every script knows, in order. -/
def knownNames : List String :=
  inOrder (known.map (·.1) ++ knownWords)

/-- The names that an entry point is called with. -/
def callNames : List String := ["__builtins__", "entrypoint", "inputs"]

end Namespace

end ModelPlaybook.Script
