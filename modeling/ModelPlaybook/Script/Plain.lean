import ModelPlaybook.Script.Shown

/-!
# The plain text of objects

The text of a text is itself, and that of most other objects is their shown form.  The text of an
error follows from what it was made with, unless it is fixed: most kinds show their arguments, and
some say more about what went wrong.
-/

namespace ModelPlaybook.Script

namespace Object

/-- The plain text of an object that is no error. -/
def ownText (o : Object) : Run String := do
  match o with
  | .scalar s _ => Run.ofFault (Value.scalar s).writePlain
  | .frozenMap entries => pure (Value.mapText (← shownEntries [] compareDepth entries))
  | o => o.shown

/-- The text of an error with some arguments.  `write` gives the plain text of an object. -/
def argumentText (write : Object → Run String) (arguments : List Object) : Run String := do
  match arguments with
  | [] => pure ""
  | [o] => write o
  | arguments => shown (.tuple arguments)

/-- The text of an error of the operating system: its number, what is wrong, and the files that it
is about. -/
def systemText (write : Object → Run String) (arguments : List Object)
    (details : List (String × Object)) : Run String := do
  let part (name : String) : Run String := write ((details.lookup name).getD .nothing)
  let opening : Run String := do
    pure ("[Errno " ++ (← part "errno") ++ "] " ++ (← part "strerror"))
  match details.lookup "filename", details.lookup "filename2" with
  | some file, some second =>
    pure ((← opening) ++ ": " ++ (← file.shown) ++ " -> " ++ (← second.shown))
  | some file, none => pure ((← opening) ++ ": " ++ (← file.shown))
  | none, _ => if (details.lookup "errno").isSome then opening else argumentText write arguments

/-- The last part of a path. -/
def lastPart (path : String) : String :=
  String.ofList (path.toList.reverse.takeWhile (· ≠ '/')).reverse

/-- The text of an error in a script: what is wrong, and the file and the line if they are known. -/
def grammarText (write : Object → Run String) (details : List (String × Object)) :
    Run String := do
  let message ← write ((details.lookup "msg").getD .nothing)
  let file :=
    match details.lookup "filename" with
    | some (.scalar (.text path) _) => [lastPart path]
    | _ => []
  let line :=
    match details.lookup "lineno" with
    | some (.scalar (.int n) _) =>
      let known := -sizeLimit ≤ n && n < sizeLimit
      ["line " ++ toString (if known then n else -1)]
    | _ => []
  match file ++ line with
  | [] => pure message
  | places => pure (message ++ " (" ++ ", ".intercalate places ++ ")")

/-- The names under which an error about a stretch of text or bytes has its arguments. -/
def codingParts : List String :=
  ["encoding", "object", "start", "end", "reason"]

/-- What an error about text or bytes cannot do with them. -/
structure CodingTask where
  verb : String
  /-- One of the parts that the error is about. -/
  unit : String
  /-- How one of them is shown. -/
  unitText : Nat → String

def encodingTask : CodingTask :=
  ⟨"encode", "character", fun n => "'" ++ String.ofList (Text.escapeByNumber n) ++ "'"⟩

def decodingTask : CodingTask :=
  ⟨"decode", "byte", fun n => "0x" ++ String.ofList (Text.hexDigits 2 n)⟩

def translatingTask : CodingTask :=
  { encodingTask with verb := "translate" }

/-- The characters of a text, or the bytes of what holds bytes, as numbers. -/
def codes : Object → List Nat
  | .scalar (.text s) _ => s.toList.map Text.codeOfChar
  | .bytes content _ => content.map (·.toNat)
  | _ => []

/-- The text of an error about a stretch of text or bytes.  One part alone is shown. -/
def codingText (task : CodingTask) (write : Object → Run String)
    (details : List (String × Object)) : Run String := do
  let part (name : String) : Object := (details.lookup name).getD .nothing
  let number (name : String) : Int := ((part name).index?).getD 0
  let opening ←
    match details.lookup "encoding" with
    | some o => do pure ("'" ++ (← write o) ++ "' codec ")
    | none => pure ""
  let first := number "start"
  let last := number "end" - 1
  let place :=
    match (part "object").codes[first.toNat]?, decide (first = last) with
    | some n, true =>
      task.unit ++ " " ++ task.unitText n ++ " in position " ++ toString first
    | _, _ => task.unit ++ "s in position " ++ toString first ++ "-" ++ toString last
  pure (opening ++ "can't " ++ task.verb ++ " " ++ place ++ ": " ++ (← write (part "reason")))

/-- The kinds of errors whose text is not that of their arguments. -/
def wordedKinds : List String :=
  ["KeyError", "OSError", "SyntaxError", "UnicodeEncodeError", "UnicodeDecodeError",
    "UnicodeTranslateError"]

/-- The one of some kinds of errors that a kind belongs to. -/
def familyAmong? (names : List String) (maker : Object) : Run (Option String) :=
  names.findM? fun family => isKindWithin (.kind (.error family)) kindDepth maker

/-- The text of an error that follows from what it was made with.  A failed look-up shows its
key. -/
def errorText (write : Object → Run String) (maker : Object) (arguments : List Object)
    (details : List (String × Object)) : Run String := do
  match ← familyAmong? wordedKinds maker with
  | some "KeyError" => argumentText shown arguments
  | some "OSError" => systemText write arguments details
  | some "SyntaxError" => grammarText write details
  | some "UnicodeEncodeError" => codingText encodingTask write details
  | some "UnicodeDecodeError" => codingText decodingTask write details
  | some "UnicodeTranslateError" => codingText translatingTask write details
  | _ => argumentText write arguments

/-- The plain text of an object in which errors lie in one another up to some depth. -/
def plainTextWithin : Nat → Object → Run String
  | 0, _ => throw .exhausted
  | fuel + 1, o => do
    match o with
    | .cell a =>
      match ← Run.read a with
      | .error _ _ (some s) _ => pure s
      | .error maker arguments none details =>
        errorText (plainTextWithin fuel) maker arguments details
      | _ => o.ownText
    | o => o.ownText

/-- The plain text of an object. -/
def plainText (o : Object) : Run String :=
  o.plainTextWithin compareDepth

end Object

end ModelPlaybook.Script
