import ModelPlaybook.Json.Reading
import ModelPlaybook.Script.Conversion
import ModelPlaybook.Script.Operation
import ModelPlaybook.Script.Signature
import ModelPlaybook.Sorting.Stretch

/-!
# JSON for scripts

Writing objects as JSON in a style, and reading objects from JSON with functions that make the
numbers, the constants and the mappings.
-/

namespace ModelPlaybook.Script.Json

open ModelPlaybook.Json

/-! ## Writing -/

/-- How objects are written. -/
structure Style where
  asciiOnly : Bool
  allowsSpecial : Bool
  /-- Whether keys that JSON does not know are left out. -/
  skipsKeys : Bool
  sortsKeys : Bool
  checksCircles : Bool
  /-- What is put before each item for each container around it, if items stand on their own
  lines. -/
  indent : Option String
  itemSeparator : String
  keySeparator : String
  /-- What makes something known of other objects. -/
  fallback : Option Object

/-- The parameters of writing that can only be given by name, with their defaults. -/
def writingParameters : List (String × Object) := [
  ("skipkeys", .bool false), ("ensure_ascii", .bool true), ("check_circular", .bool true),
  ("allow_nan", .bool true), ("cls", .nothing), ("indent", .nothing), ("separators", .nothing),
  ("default", .nothing), ("sort_keys", .bool false)]

/-- A function with one parameter, some that can only be given by name, and any others. -/
def signature (name parameter : String) (named : List (String × Object)) : Signature where
  path := name
  positional := [parameter]
  defaults := []
  hasRest := false
  named := named.map (·.1)
  namedDefaults := named
  hasNamedRest := true

/-- The text that is put before items: given, or so many blanks. -/
def indentOf (ev : Evaluator) (o : Object) : Run (Option String) := do
  match o with
  | .nothing => pure none
  | .scalar (.text s) _ => pure (some s)
  | o =>
    match ← Object.combine ⟨.mul, false⟩ ev (.text " ") o with
    | .scalar (.text s) _ => pure (some s)
    | _ => pure none

/-- What is given to stand between items and behind keys. -/
def separatorsOf (ev : Evaluator) (ownLines : Bool) (o : Object) : Run (Object × Object) := do
  match o with
  | .nothing => pure (.text (if ownLines then "," else ", "), .text ": ")
  | o =>
    match ← exactly 2 (← ev.unpacked o) with
    | item :: key :: _ => pure (item, key)
    | _ => pure (.nothing, .nothing)

/-- A separator, which has to be a text; it is an argument with a number. -/
def separator (n : Nat) (o : Object) : Run String := do
  match o with
  | .scalar (.text s) _ => pure s
  | o =>
    Run.raiseType ("make_encoder() argument " ++ toString n ++ " must be str, not " ++
      (← o.familyName))

namespace Style

/-- A double, unless it has no decimal text and such texts are not allowed. -/
def double (st : Style) (x : Binary64) : Run String :=
  if st.allowsSpecial || x.isFinite then pure (jsonLayout.text x)
  else Run.raiseValue ("Out of range float values are not JSON compliant" ++
    (if st.indent.isSome then ": " ++ x.text else ""))

/-- A scalar, if JSON knows its kind. -/
def scalar? (st : Style) (s : Scalar) : Run (Option String) := do
  match s with
  | .none => pure (some "null")
  | .bool b => pure (some (boolText b))
  | .int n => do pure (some (← Run.ofFault (Value.int n).writeShown))
  | .float x => do pure (some (← st.double x))
  | .text t => pure (some (quotedWith st.asciiOnly t))
  | _ => pure none

/-- The name under which a key is written, unless it is left out. -/
def key? (st : Style) (k : Object) : Run (Option String) := do
  let text ←
    match k with
    | .scalar (.text s) _ => pure (some s)
    | .scalar s _ => st.scalar? s
    | _ => pure none
  if text.isSome || st.skipsKeys then pure text
  else
    let name ← if st.indent.isSome then k.typeName else k.familyName
    Run.raiseType ("keys must be str, int, float, bool or None, not " ++ name)

/-- The start of a line inside so many containers, where items stand on their own lines. -/
def lineStart (st : Style) (depth : Nat) : String :=
  match st.indent with
  | some s => "\n" ++ String.join (List.replicate depth s)
  | none => ""

/-- Written items between brackets. -/
def enclose (st : Style) (left right : String) (depth : Nat) (items : List String) : String :=
  let inner := st.lineStart (depth + 1)
  left ++ inner ++ (st.itemSeparator ++ inner).intercalate items ++ st.lineStart depth ++ right

/-- Stops at an object inside itself. -/
def ensureNew (st : Style) (around : List Object) (o : Object) : Run Unit := do
  if st.checksCircles && around.any (· == o) then Run.raiseValue "Circular reference detected"

/-- Writes an object.  `around` are the objects that it lies in. -/
def write (st : Style) (ev : Evaluator) (around : List Object) (depth : Nat) :
    Nat → Object → Run String
  | 0, _ => throw .exhausted
  | fuel + 1, o => do
    let sequence (items : List Object) : Run String := do
      if items.isEmpty then pure "[]"
      else
        st.ensureNew around o
        let texts ← items.mapM fun item => write st ev (o :: around) (depth + 1) fuel item
        pure (st.enclose "[" "]" depth texts)
    let mapping (entries : Pairs) : Run String := do
      if entries.isEmpty then pure "\x7b\x7d"
      else
        st.ensureNew around o
        let pairs := entries.map fun (k, v) => (Object.tuple [k, v], k, v)
        let sorted ←
          if st.sortsKeys then sortBy (fun p q => Object.compareBy .less p.1 q.1) pairs
          else pure pairs
        let texts ← sorted.mapM fun (_, k, v) => do
          match ← st.key? k with
          | none => pure none
          | some name =>
            let text ← write st ev (o :: around) (depth + 1) fuel v
            pure (some (quotedWith st.asciiOnly name ++ st.keySeparator ++ text))
        pure (st.enclose "\x7b" "\x7d" depth (texts.filterMap id))
    let other : Run String := do
      st.ensureNew around o
      match st.fallback with
      | some f => do write st ev (o :: around) depth fuel (← ev.apply f [o])
      | none =>
        Run.raiseType ("Object of type " ++ (← o.typeName) ++ " is not JSON serializable")
    match o with
    | .scalar s _ =>
      match ← st.scalar? s with
      | some text => pure text
      | none => other
    | .tuple items _ => sequence items
    | .frozenMap _ => other
    | o =>
      match ← o.listItems?, ← o.entries? with
      | some items, _ => sequence items
      | none, some entries => mapping entries
      | none, none => other

end Style

/-- Writes an object as JSON. -/
def dumps (ev : Evaluator) (g : Given) : Run Object := do
  let filled ← (signature "dumps" "obj" writingParameters).fill g
  let get (name : String) : Object := (filled.parameters.lookup name).getD .nothing
  match filled.others with
  | (name, _) :: _ => (signature "JSONEncoder.__init__" "self" []).unexpected name
  | [] =>
    let (item, key) ← separatorsOf ev (get "indent" != .nothing) (get "separators")
    let asciiOnly ← (get "ensure_ascii").isTrue
    match get "obj" with
    | .scalar (.text s) _ => pure (.text (quotedWith asciiOnly s))
    | o =>
      let st : Style := {
        asciiOnly := asciiOnly
        indent := ← indentOf ev (get "indent")
        keySeparator := ← separator 5 key
        itemSeparator := ← separator 6 item
        sortsKeys := ← (get "sort_keys").isTrue
        skipsKeys := ← (get "skipkeys").isTrue
        allowsSpecial := ← (get "allow_nan").isTrue
        checksCircles := ← (get "check_circular").isTrue
        fallback := if get "default" == .nothing then none else some (get "default") }
      pure (.text (← st.write ev [] 0 compareDepth o))

/-! ## Reading -/

/-- The parameters of reading that can only be given by name. -/
def readingParameters : List String :=
  ["object_hook", "parse_float", "parse_int", "parse_constant", "object_pairs_hook"]

/-- Makes objects of the parts of a text. -/
def builder (ev : Evaluator) (s : String) (hook : String → Option Object) (strict : Bool) :
    Builder Run Object where
  refuse r :=
    let message := r.message s
    Run.raiseError "JSONDecodeError" [.text message] (some message)
      [("msg", .text r.problem), ("doc", .text s), ("pos", .int r.position),
        ("lineno", .int (r.line s)), ("colno", .int (r.column s))]
  null := .nothing
  bool b := .bool b
  special name := made "parse_constant" name (pure (.float (special name)))
  whole cs :=
    let digits := String.ofList cs
    made "parse_int" digits do pure (.int (← Run.ofFault (WholeText.read 10 digits)))
  decimal cs :=
    let digits := String.ofList cs
    made "parse_float" digits do pure (.float ((Binary64.ofText? digits).getD .nan))
  text t := .text t
  array items := Run.newList items
  object members := do
    let pairs := members.map fun (name, o) => (Object.text name, o)
    match hook "object_pairs_hook", hook "object_hook" with
    | some f, _ => do ev.apply f [← Run.newList (pairs.map fun (k, o) => .tuple [k, o])]
    | none, some f => do ev.apply f [← Run.newDict (← Pairs.putAll [] pairs)]
    | none, none => do Run.newDict (← Pairs.putAll [] pairs)
  strict := strict
where
  /-- Calls a function that was given for a part of the text, or else makes the part as usual. -/
  made (name part : String) (usual : Run Object) : Run Object :=
    match hook name with
    | some f => ev.apply f [.text part]
    | none => usual
  special : String → Binary64
    | "Infinity" => .infinite false
    | "-Infinity" => .infinite true
    | _ => .nan .json

/-- The text that is to be read.  Bytes tell by their content how they stand for text. -/
def textOf (o : Object) : Run String := do
  match o with
  | .scalar (.text s) _ => pure s
  | .bytes content _ =>
    let opening := Text.Encoding.ofContent content
    match opening.decode .keepSurrogates content with
    | .ok s => pure s
    | .error f => Object.raiseUndecodable opening content f
  | o =>
    Run.raiseType ("the JSON object must be str, bytes or bytearray, not " ++ (← o.typeName))

/-- Reads an object from JSON. -/
def loads (ev : Evaluator) (g : Given) : Run Object := do
  let named := ("cls" :: readingParameters).map fun name => (name, Object.nothing)
  let filled ← (signature "loads" "s" named).fill g
  let get (name : String) : Object := (filled.parameters.lookup name).getD .nothing
  let s ← textOf (get "s")
  match filled.others.find? fun entry => entry.1 ≠ "strict" with
  | some (name, _) => (signature "JSONDecoder.__init__" "self" []).unexpected name
  | none =>
    let strict ← ((filled.others.lookup "strict").getD (.bool true)).isTrue
    -- A function for numbers or constants that counts as false is none.
    let hooks ← readingParameters.filterMapM fun name => do
      let f := get name
      let isGiven ← if name.startsWith "parse" then f.isTrue else pure (f != .nothing)
      pure (if isGiven then some (name, f) else none)
    (builder ev s (fun name => hooks.lookup name) strict).read s

end ModelPlaybook.Script.Json
