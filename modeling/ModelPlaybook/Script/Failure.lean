import ModelPlaybook.Script.Conversion
import ModelPlaybook.Script.Iterator
import ModelPlaybook.Script.Slots

/-!
# Errors that scripts make

What calling a kind of errors gives.  Every error keeps its arguments.  The errors of some kinds
have some of them under names as well, and so their texts can say more.
-/

namespace ModelPlaybook.Script

/-- What an error is made with: the arguments that it keeps, and what it has under names. -/
structure Failure where
  kind : Object
  arguments : List Object
  details : List (String × Object) := []

namespace Failure

/-- The kinds of errors that the numbers of the operating system stand for. -/
def systemKinds : List (Int × String) := [
  (1, "PermissionError"), (2, "FileNotFoundError"), (3, "ProcessLookupError"),
  (4, "InterruptedError"), (10, "ChildProcessError"), (11, "BlockingIOError"),
  (13, "PermissionError"), (17, "FileExistsError"), (20, "NotADirectoryError"),
  (21, "IsADirectoryError"), (32, "BrokenPipeError"), (103, "ConnectionAbortedError"),
  (104, "ConnectionResetError"), (108, "BrokenPipeError"), (110, "TimeoutError"),
  (111, "ConnectionRefusedError"), (114, "BlockingIOError"), (115, "BlockingIOError")]

/-- The kind of an error with a number.  The general kind gives way to the one for the number. -/
def systemKind (maker number : Object) : Object :=
  match maker == .kind (.error "OSError"), number.index?.bind fun n => systemKinds.lookup n with
  | true, some name => .kind (.error name)
  | _, _ => maker

/-- Whether an object counts as a number. -/
def isNumeric : Object → Bool
  | .scalar s _ => s.number?.isSome
  | _ => false

/-- An error of the operating system: a number, what is wrong, and the files that it is about.  The
files are no longer among the arguments.  An error of an operation that did not wait can have in
their place how much the operation has written. -/
def ofSystem (maker : Object) (arguments : List Object) : Run Failure := do
  match arguments with
  | number :: text :: more =>
    if 3 < more.length then pure ⟨maker, arguments, []⟩
    else
      let kind := systemKind maker number
      let known := [("errno", number), ("strerror", text)]
      match more[0]?.filter (· != .nothing), more[2]?.filter (· != .nothing) with
      | none, _ => pure ⟨kind, arguments, known⟩
      | some file, second =>
        if kind == .kind (.error "BlockingIOError") && isNumeric file then
          pure ⟨kind, arguments, known ++ [("characters_written", .int (← file.whole))]⟩
        else
          let files := ("filename", file) :: (second.map ("filename2", ·)).toList
          pure ⟨kind, [number, text], known ++ files⟩
  | arguments => pure ⟨maker, arguments, []⟩

/-- Where an error in a script is, as far as it is told. -/
def placeParts : List String :=
  ["filename", "lineno", "offset", "text", "end_lineno", "end_offset"]

/-- The parts of the place of an error in a script. -/
def placeOf (ev : Evaluator) (o : Object) : Run (List (String × Object)) := do
  let parts ← ev.items o
  let n := parts.length
  if n < 4 then
    Run.raiseType ("function takes at least 4 arguments (" ++ toString n ++ " given)")
  if 6 < n then
    Run.raiseType ("function takes at most 6 arguments (" ++ toString n ++ " given)")
  if n = 5 then Run.raiseType "end_offset must be provided when end_lineno is provided"
  pure (placeParts.zip parts)

/-- An error in a script: what is wrong, and where. -/
def ofGrammar (ev : Evaluator) (maker : Object) (arguments : List Object) : Run Failure := do
  match arguments with
  | [message, place] => do pure ⟨maker, arguments, ("msg", message) :: (← placeOf ev place)⟩
  | message :: _ => pure ⟨maker, arguments, [("msg", message)]⟩
  | [] => pure ⟨maker, [], []⟩

/-- What an argument of an error about text or bytes has to be. -/
inductive CodingPart where
  | text
  | content
  | place

/-- Stops at an argument that does not fit its place. -/
def CodingPart.ensure (p : CodingPart) (position : Nat) (o : Object) : Run Unit := do
  match p with
  | .text =>
    let _ ← o.textArgument ("argument " ++ toString position)
  | .content => pure ()
  | .place =>
    let n ← o.whole
    if n < -sizeLimit ∨ sizeLimit ≤ n then Run.raiseTooLarge "ssize_t"

/-- An error about a stretch of text or bytes. -/
def ofCoding (parts : List (String × CodingPart)) (maker : Object) (arguments : List Object) :
    Run Failure := do
  if arguments.length ≠ parts.length then
    Run.raiseType ("function takes exactly " ++ argumentCount parts.length ++ " (" ++
      toString arguments.length ++ " given)")
  (parts.zip arguments).zipIdx.forM fun ((part, o), i) => part.2.ensure (i + 1) o
  (parts.zip arguments).forM fun (part, o) => do
    match part.2, o with
    | .content, .bytes _ _ => pure ()
    | .content, o =>
      Run.raiseType ("a bytes-like object is required, not '" ++ (← o.familyName) ++ "'")
    | _, _ => pure ()
  pure ⟨maker, arguments, (parts.map (·.1)).zip arguments⟩

def encodingParts : List (String × CodingPart) :=
  Object.codingParts.zip [.text, .text, .place, .place, .text]

def decodingParts : List (String × CodingPart) :=
  Object.codingParts.zip [.text, .content, .place, .place, .text]

/-- The arguments of some kinds of errors that are given by name. -/
def namedParts : List (String × List String) := [
  ("ImportError", ["name", "path"]), ("NameError", ["name"]), ("AttributeError", ["name", "obj"])]

/-- An error with arguments that are given by name. -/
def ofNamed (maker : Object) (family : String) (names : List String) (g : Given) :
    Run Failure := do
  let slots : Slots := { function := some family, names := names }
  let given ← slots.fill g.onlyNamed
  let details := (names.zip given).filterMap fun (name, o) => o.map (name, ·)
  let message :=
    match family, g.positional with
    | "ImportError", [o] => [("msg", o)]
    | _, _ => []
  pure ⟨maker, g.positional, message ++ details⟩

/-- The kinds of errors that have arguments under names. -/
def detailedKinds : List String :=
  namedParts.map (·.1) ++
    ["OSError", "SyntaxError", "UnicodeEncodeError", "UnicodeDecodeError",
      "UnicodeTranslateError", "StopIteration", "SystemExit"]

/-- What calling a kind of errors gives. -/
def ofCall (ev : Evaluator) (maker : Object) (g : Given) : Run Failure := do
  let family := (← maker.familyAmong? detailedKinds).getD ""
  match namedParts.lookup family with
  | some names => ofNamed maker family names g
  | none =>
    g.ensureUnnamed (← maker.kindName)
    match family, g.positional with
    | "OSError", os => ofSystem maker os
    | "SyntaxError", os => ofGrammar ev maker os
    | "UnicodeEncodeError", os => ofCoding encodingParts maker os
    | "UnicodeDecodeError", os => ofCoding decodingParts maker os
    | "UnicodeTranslateError", os => ofCoding (encodingParts.drop 1) maker os
    | "StopIteration", o :: more => pure ⟨maker, o :: more, [("value", o)]⟩
    | "SystemExit", [o] => pure ⟨maker, [o], [("code", o)]⟩
    | "SystemExit", o :: more => pure ⟨maker, o :: more, [("code", .tuple (o :: more))]⟩
    | _, os => pure ⟨maker, os, []⟩

end Failure

/-- The error that calling a kind of errors gives. -/
def Object.errorGiven (ev : Evaluator) (maker : Object) (g : Given) : Run Object := do
  let f ← Failure.ofCall ev maker g
  Run.allocate (.error f.kind f.arguments none f.details)

end ModelPlaybook.Script
