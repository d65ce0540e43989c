import ModelPlaybook.Script.Iterator

/-!
# Attributes

What stands behind a dot: data of an object, a method, a member of a library or of a class.  An
attribute that is not there counts as nothing instead of failing.
-/

namespace ModelPlaybook.Script

/-- Objects with methods in common. -/
inductive Owner where
  | list | dict | frozenMap | tuple | range | set | frozenSet
  | text | decimal | date | dateTime | duration | logger
deriving DecidableEq, Repr

namespace Owner

def methods : Owner → List String
  | list =>
    ["append", "clear", "copy", "count", "extend", "index", "insert", "pop", "remove", "reverse",
      "sort"]
  | dict =>
    ["clear", "copy", "get", "items", "keys", "pop", "popitem", "setdefault", "update", "values"]
  | frozenMap => ["copy", "get", "items", "keys", "values"]
  | tuple => ["count", "index"]
  | range => ["count", "index"]
  | set => ["add", "clear", "copy", "discard", "pop", "remove"]
  | frozenSet => ["copy"]
  | text => ["endswith", "join", "replace", "split", "startswith", "strip"]
  | decimal => ["quantize"]
  | date => ["isoformat", "weekday"]
  | dateTime => ["date", "isoformat", "weekday"]
  | duration => ["total_seconds"]
  | logger => ["info"]

end Owner

namespace Object

/-- The methods that an object shares with others. -/
def owner? (o : Object) : Run (Option Owner) := do
  match o with
  | .scalar (.text _) _ => pure (some .text)
  | .scalar (.decimal _) _ => pure (some .decimal)
  | .scalar (.date _) _ => pure (some .date)
  | .scalar (.dateTime _) _ => pure (some .dateTime)
  | .scalar (.duration _) _ => pure (some .duration)
  | .tuple _ _ => pure (some .tuple)
  | .frozenMap _ => pure (some .frozenMap)
  | .frozenSet _ _ => pure (some .frozenSet)
  | .range _ _ _ _ => pure (some .range)
  | .logger => pure (some .logger)
  | .cell a =>
    match ← Run.read a with
    | .list _ => pure (some .list)
    | .dict _ => pure (some .dict)
    | .set _ => pure (some .set)
    | .made _ (some _) => pure (some .dict)
    | _ => pure none
  | _ => pure none

/-- What a class has under a name, by itself or from its bases. -/
def member? (name : String) : Nat → Object → Run (Option Object)
  | 0, _ => pure none
  | fuel + 1, maker => do
    match maker with
    | .cell a =>
      match ← Run.read a with
      | .custom k =>
        match k.members.lookup name with
        | some o => pure (some o)
        | none =>
          for base in k.bases do
            match ← member? name fuel base with
            | some o => return some o
            | none => pure ()
          pure none
      | _ => pure none
    | _ => pure none

/-- A function as an attribute of an object takes the object as its first argument. -/
def boundTo (receiver member : Object) : Run Object := do
  match member with
  | .cell a =>
    match ← Run.read a with
    | .closure _ => Run.allocate (.bound receiver member)
    | _ => pure member
  | _ => pure member

/-- The data of a number, a date or the like under a name. -/
def scalarData? (s : Scalar) (name : String) : Option Object :=
  match s, name with
  | .date d, name => dayData? d name
  | .dateTime t, name =>
    match name with
    | "hour" => some (.int t.hour)
    | "minute" => some (.int t.minute)
    | "second" => some (.int t.second)
    | "microsecond" => some (.int t.microsecond)
    | "tzinfo" => if t.offset.isSome then some (.foreign "timezone") else none
    | name => dayData? t.date name
  | .duration d, "days" => some (.int d.days)
  | .duration d, "seconds" => some (.int d.seconds)
  | .duration d, "microseconds" => some (.int d.micros)
  | s, "real" => realPart? s
  | .int _, "imag" => some (.int 0)
  | .bool _, "imag" => some (.int 0)
  | .float _, "imag" => some (.float (.ofInt 0))
  | .decimal _, "imag" => some (.decimal .zero)
  | .int n, "numerator" => some (.int n)
  | .int _, "denominator" => some (.int 1)
  | _, _ => none
where
  dayData? (d : Date) : String → Option Object
    | "year" => some (.int d.year)
    | "month" => some (.int d.month)
    | "day" => some (.int d.day)
    | _ => none
  realPart? (s : Scalar) : Option Object :=
    (s.number?).map fun
      | .int n => .int n
      | .float x => .float x
      | .decimal d => .decimal d

/-- A method that an object shares with others, or nothing. -/
def methodOrNothing (o : Object) (name : String) : Run Object := do
  match ← o.owner? with
  | some owner => pure (if owner.methods.contains name then .method o name else .nothing)
  | none => pure .nothing

/-- Stops at the attributes that would let a text reach into objects. -/
def ensureNoFormatting (o : Object) (name : String) : Run Unit := do
  if ["format", "format_map"].contains name then
    match o with
    | .scalar (.text _) _ => refuse
    | .kind .text => refuse
    | _ => pure ()
where
  refuse : Run Unit :=
    Run.raiseFault ⟨.notImplemented, "Using the format*() methods of \x60str\x60 is not safe"⟩

/-- What an object has under a name. -/
def getAttribute (members : Library → String → Option Object) (o : Object) (name : String) :
    Run Object := do
  o.ensureNoFormatting name
  match o with
  | .standIn blocked => Run.deny blocked
  | .library l => pure ((members l name).getD .nothing)
  | .range start stop step _ =>
    match name with
    | "start" => pure (.int start)
    | "stop" => pure (.int stop)
    | "step" => pure (.int step)
    | name => o.methodOrNothing name
  | .slice start stop step =>
    match name with
    | "start" => pure start
    | "stop" => pure stop
    | "step" => pure step
    | _ => pure .nothing
  | .scalar s _ =>
    match scalarData? s name with
    | some found => pure found
    | none => o.methodOrNothing name
  | .cell a =>
    match ← Run.read a with
    | .error maker arguments _ details =>
      match ← maker.member? name kindDepth with
      | some found => o.boundTo found
      | none =>
        pure ((details.lookup name).getD (if name = "args" then .tuple arguments else .nothing))
    | .made maker _ =>
      match ← member? name kindDepth (.cell maker) with
      | some found => o.boundTo found
      | none => o.methodOrNothing name
    | .custom _ => pure ((← o.member? name kindDepth).getD .nothing)
    | _ => o.methodOrNothing name
  | o => o.methodOrNothing name

/-- Stops: an object has nothing under a name that it has to have. -/
def missingAttribute {α : Type} (o : Object) (name : String) : Run α := do
  let owner ←
    if ← o.isKind then do pure ("type object '" ++ (← o.kindName) ++ "'")
    else do pure ("'" ++ (← o.familyName) ++ "' object")
  Run.raiseFault ⟨.missingAttribute, owner ++ " has no attribute '" ++ name ++ "'"⟩

/-- Stops: the attributes of objects cannot be set or taken away. -/
def refuseAttributeChange {α : Type} (o : Object) (name : String) : Run α := do
  let refused : Run α := Run.raiseType "attribute-less object (assign or del)"
  let unknown (typeName : String) : Run α := Run.raiseFault ⟨.missingAttribute,
    "'" ++ typeName ++ "' object has no attribute '" ++ name ++ "'"⟩
  match o with
  | .standIn blocked => Run.deny blocked
  | .cell a =>
    match ← Run.read a with
    | .list _ => readOnly "list" unknown
    | .dict _ => readOnly "dict" unknown
    | _ => refused
  | _ => refused
where
  /-- The methods of lists and mappings are there but cannot be set. -/
  readOnly {α : Type} (typeName : String) (unknown : String → Run α) : Run α := do
    let owner : Owner := if typeName = "list" then .list else .dict
    if owner.methods.contains name then
      Run.raiseFault ⟨.missingAttribute,
        "'" ++ typeName ++ "' object attribute '" ++ name ++ "' is read-only"⟩
    else unknown typeName

end Object

end ModelPlaybook.Script
