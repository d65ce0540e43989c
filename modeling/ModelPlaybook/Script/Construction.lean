import ModelPlaybook.Script.Failure

/-!
# Making objects

What calling a kind gives: numbers and text from other objects, containers from their items, dates
and durations from their parts, iterators over other iterators, and errors.
-/

namespace ModelPlaybook.Script

namespace Object

/-! ## Containers -/

/-- The two parts of an item that is to become an entry. -/
def entryOf (ev : Evaluator) (index : Nat) (o : Object) : Run (Object × Object) := do
  let place := "dictionary update sequence element #" ++ toString index
  let source ← tryCatch o.iterator fun _ =>
    Run.raiseType ("cannot convert " ++ place ++ " to a sequence")
  match ← ev.drain source with
  | [k, v] => pure (k, v)
  | parts =>
    Run.raiseValue (place ++ " has length " ++ toString parts.length ++ "; 2 is required")

/-- Entries with those of another object put in: of a mapping, or of a sequence of pairs. -/
def mergeInto (ev : Evaluator) (entries : Pairs) (o : Object) : Run Pairs := do
  match o with
  | .standIn name => Run.deny name
  | o =>
    match ← o.entries? with
    | some more => entries.putAll more
    | none =>
      let step (acc : Pairs × Nat) (item : Object) : Run (Pairs × Nat) := do
        let (k, v) ← entryOf ev acc.2 item
        pure (← acc.1.put k v, acc.2 + 1)
      pure (← ev.visit (← o.iterator) step (entries, 0)).1

/-- The entries that the arguments of a mapping name. -/
def entriesGiven (ev : Evaluator) (g : Given) : Run Pairs := do
  g.ensureCount "dict" 0 1
  let entries ←
    match g.positional with
    | o :: _ => mergeInto ev [] o
    | [] => pure []
  entries.putAll (g.named.map fun (name, o) => (.text name, o))

/-- The items that the only argument of a container holds. -/
def itemsGiven (ev : Evaluator) (k : Kind) (g : Given) : Run (List Object) := do
  match k, ← g.atMostOne k.name with
  | .set, some o => distinctItems o
  | .frozenSet, some o => distinctItems o
  | _, some o => ev.items o
  | _, none => pure []
where
  distinctItems (o : Object) : Run (List Object) := do
    distinct (← ev.items o)

def rangeGiven (g : Given) : Run Object := do
  match ← g.several "range" 1 3 with
  | [stop] => pure (.range 0 (← stop.whole) 1)
  | [start, stop] => pure (.range (← start.whole) (← stop.whole) 1)
  | start :: stop :: step :: _ =>
    let first ← start.whole
    let last ← stop.whole
    match ← step.whole with
    | 0 => Run.raiseValue "range() arg 3 must not be zero"
    | n => pure (.range first last n)
  | [] => pure .nothing

def sliceGiven (g : Given) : Run Object := do
  match ← g.several "slice" 1 3 with
  | [stop] => pure (.slice .nothing stop .nothing)
  | [start, stop] => pure (.slice start stop .nothing)
  | start :: stop :: step :: _ => pure (.slice start stop step)
  | [] => pure .nothing

/-! ## Iterators over others -/

def enumerateGiven (g : Given) : Run Object := do
  let known (name expected : String) : Run Unit := do
    if name ≠ expected then
      Run.raiseType ("'" ++ name ++ "' is an invalid keyword argument for enumerate()")
  match g.positional, g.named with
  | [], [] => Run.raiseType "enumerate() missing required argument 'iterable'"
  | [o], [] => numbering o none
  | [], [(name, o)] =>
    known name "iterable"
    numbering o none
  | [o, start], [] => numbering o (some start)
  | [o], [(name, start)] =>
    known name "start"
    numbering o (some start)
  | [], [("start", start), (name, o)] =>
    known name "iterable"
    numbering o (some start)
  | [], [(name, o), (second, start)] =>
    known name "iterable"
    known second "start"
    numbering o (some start)
  | _, _ =>
    Run.raiseType ("enumerate() takes at most 2 arguments (" ++ toString g.count ++ " given)")
where
  numbering (o : Object) (start : Option Object) : Run Object := do
    let first ← start.elim (pure 0) (·.whole)
    Run.allocate (.iterator (.enumerated (← o.iterator) first))

def filterGiven (g : Given) : Run Object := do
  match ← g.several "filter" 2 2 with
  | test :: source :: _ => Run.allocate (.iterator (.filtered test (← source.iterator)))
  | _ => pure .nothing

def mapGiven (g : Given) : Run Object := do
  g.ensureUnnamed "map"
  match g.positional with
  | function :: source :: more =>
    Run.allocate (.iterator (.mapped function (← (source :: more).mapM (·.iterator))))
  | _ => Run.raiseType "map() must have at least two arguments."

def zipSlots : Slots where
  function := some "zip"
  names := ["strict"]

def zipGiven (g : Given) : Run Object := do
  let flags ← zipSlots.fillWith (fun _ flag => flag.isTrue) g.onlyNamed
  Run.allocate (.iterator
    (.zipped (flags == [some true]) (← g.positional.mapM (·.iterator))))

/-- The items of a sequence from the end to the start. -/
def reversedGiven (ev : Evaluator) (g : Given) : Run Object := do
  match ← g.several "reversed" 1 1 with
  | o :: _ =>
    match o with
    | .standIn name => Run.deny name
    | .frozenSet _ _ => refused o
    | .scalar (.text _) _ => backwards "reversed" o
    | .bytes _ _ => backwards "reversed" o
    | .tuple _ _ => backwards "reversed" o
    | .range _ _ _ _ => backwards "range_iterator" o
    | .frozenMap _ => backwards "dict_reversekeyiterator" o
    | .view _ _ => backwards "dict_reversekeyiterator" o
    | o =>
      match ← o.listItems?, ← o.entries? with
      | some _, _ => backwards "list_reverseiterator" o
      | none, some _ => backwards "dict_reversekeyiterator" o
      | none, none => refused o
  | [] => pure .nothing
where
  backwards (typeName : String) (o : Object) : Run Object := do
    Run.allocate (.iterator (.rest typeName (← ev.items o).reverse))
  refused (o : Object) : Run Object := do
    Run.raiseType ("'" ++ (← o.familyName) ++ "' object is not reversible")

/-! ## The calendar -/

/-- The whole number that a machine word holds. -/
def wordSized (n : Int) : Run Int :=
  if n.natAbs < 2 ^ (31 : Nat) then pure n
  else if 2 ^ (63 : Nat) ≤ n.natAbs then Run.raiseTooLarge "long"
  else
    Run.raiseFault ⟨.overflow,
      "signed integer is " ++ (if n < 0 then "less than minimum" else "greater than maximum")⟩

def dateParts : List String := ["year", "month", "day"]

def dateSlots : Slots where
  function := none
  names := dateParts
  required := 3

def dateGiven (g : Given) : Run Object := do
  match ← dateSlots.fillWith (fun _ o => do wordSized (← o.whole)) g with
  | [some y, some m, some d] =>
    match Date.make y m d with
    | .ok date => pure (.scalar (.date date))
    | .error cause => Run.raiseValue cause.text
  | _ => pure .nothing

def dateTimeSlots : Slots where
  function := none
  names := dateParts ++ ["hour", "minute", "second", "microsecond", "tzinfo", "fold"]
  required := 3
  placed := 8

/-- A part of a moment: its time zone is an object, and all others are numbers. -/
def momentPart (i : Nat) (o : Object) : Run (Int × Object) := do
  if i = 7 then pure (0, o) else do pure (← wordSized (← o.whole), o)

def dateTimeGiven (g : Given) : Run Object := do
  let parts ← dateTimeSlots.fillWith momentPart g
  match parts.map fun part => part.elim (0 : Int) (·.1) with
  | y :: m :: d :: hour :: minute :: second :: microsecond :: _ :: fold :: _ =>
    match DateTime.make y m d hour minute second microsecond none with
    | .ok t => do
      if fold ≠ 0 ∧ fold ≠ 1 then Run.raiseValue "fold must be either 0 or 1"
      match parts[7]? with
      | some (some (_, zone)) => ensureZone zone
      | _ => pure ()
      pure (.scalar (.dateTime t))
    | .error cause => Run.raiseValue cause.text
  | _ => pure .nothing
where
  /-- No time zones can be had in scripts. -/
  ensureZone (zone : Object) : Run Unit := do
    match zone with
    | .nothing => pure ()
    | o =>
      Run.raiseType ("tzinfo argument must be None or of a tzinfo subclass, not type '" ++
        (← o.familyName) ++ "'")

/-- The parts of a duration in the order of the arguments, with the microseconds in each. -/
def durationParts : List (String × Int) := [
  ("days", 86400000000), ("seconds", 1000000), ("microseconds", 1), ("milliseconds", 1000),
  ("minutes", 60000000), ("hours", 3600000000), ("weeks", 604800000000)]

/-- The parts of a duration in the order in which they are looked at. -/
def durationOrder : List String :=
  ["microseconds", "milliseconds", "seconds", "minutes", "hours", "days", "weeks"]

/-- Microseconds that are summed up: a whole number of them, and a rest that is less exact. -/
structure MicroSum where
  whole : Int
  rest : Binary64

/-- The fraction of a double. -/
def fractionOf (x : Binary64) : Binary64 :=
  x.cutRemainder (.ofInt 1)

/-- Adds a part of a duration, which is given in a unit of some microseconds. -/
def MicroSum.add (sum : MicroSum) (name : String) (unit : Int) (o : Object) : Run MicroSum := do
  match o with
  | .scalar (.float x) _ =>
    let whole := sum.whole + (← cutFloat .down x) * unit
    let fraction := fractionOf x
    if fraction.isZero then pure { sum with whole }
    else
      let micros := (Binary64.ofInt unit).mul fraction
      pure ⟨whole + (← cutFloat .down micros), sum.rest.add (fractionOf micros)⟩
  | o =>
    match o.index? with
    | some n => pure { sum with whole := sum.whole + n * unit }
    | none =>
      Run.raiseType ("unsupported type for timedelta " ++ name ++ " component: " ++
        (← o.familyName))

/-- The sum as one whole number.  The rest is rounded; halfway, the sum becomes even. -/
def MicroSum.total (sum : MicroSum) : Int :=
  let two := Binary64.ofInt 2
  let away (x : Binary64) : Int :=
    let n := (x.toWhole? .down).getD 0
    if (fractionOf x).abs.compare? (Binary64.ofInt 1 |>.div two) = some .lt then n
    else if x.isNegative then n - 1
    else n + 1
  let nearest := away sum.rest
  let distance := ((Binary64.ofInt nearest).sub sum.rest).abs
  if distance.compare? ((Binary64.ofInt 1).div two) = some .eq then
    let odd := sum.whole % 2
    sum.whole + 2 * away ((sum.rest.add (.ofInt odd)).div two) - odd
  else sum.whole + nearest

def durationSlots : Slots where
  function := some "__new__"
  names := durationParts.map (·.1)

def durationGiven (g : Given) : Run Object := do
  let given := (durationParts.map (·.1)).zip (← durationSlots.fill g)
  let sum ← durationOrder.foldlM (fun (sum : MicroSum) name => do
    match (given.lookup name).join, durationParts.lookup name with
    | some o, some unit => sum.add name unit o
    | _, _ => pure sum) (⟨0, .ofInt 0⟩ : MicroSum)
  pure (.scalar (← Run.ofFault (Duration.mk sum.total).checked))

/-! ## Objects of custom kinds -/

/-- An object of a custom kind. -/
def customGiven (ev : Evaluator) (a : Address) (g : Given) : Run Object := do
  let maker := Object.cell a
  match ← foundation? kindDepth maker with
  | some (.error _) => errorGiven ev maker g
  | some .dict => Run.allocate (.made a (some (← entriesGiven ev g)))
  | some _ => Run.allocate (.made a none)
  | none =>
    if g.count = 0 then Run.allocate (.made a none)
    else Run.raiseType ((← maker.kindName) ++ "() takes no arguments")

/-! ## Calling a kind -/

/-- The only argument of a kind that makes scalars, or else what the kind makes of none. -/
def scalarGiven (k : Kind) (g : Given) (missing : Scalar) (convert : Object → Run Scalar) :
    Run Object := do
  match ← g.atMostOne k.name with
  | some o => pure (.scalar (← convert o))
  | none => pure (.scalar missing)

def wholeSlots : Slots where
  function := some "int"
  names := ["x", "base"]
  unnamed := 1

def wholeGiven (g : Given) : Run Object := do
  match ← wholeSlots.fill g with
  | [some o, some base] => pure (.int (← o.wholeInBase base))
  | [some o, none] => pure (.int (← o.toWhole))
  | [none, some _] => Run.raiseType "int() missing string argument"
  | _ => pure (.int 0)

def textSlots : Slots where
  function := some "str"
  names := ["object", "encoding", "errors"]

def textGiven (g : Given) : Run Object := do
  match ← textSlots.fill g with
  | [o, encoding, errors] =>
    let named ← encoding.mapM (nameArgument "str() argument 'encoding'")
    let remedy ← errors.mapM (nameArgument "str() argument 'errors'")
    match o, named.isNone && remedy.isNone with
    | none, _ => pure (.text "")
    | some o, true => pure (.text (← o.plainText))
    | some (.bytes content _), false =>
      pure (.text (← decoded content (named.getD "utf-8") (remedy.getD "strict")))
    | some (.scalar (.text _) _), false => Run.raiseType "decoding str is not supported"
    | some o, false =>
      Run.raiseType ("decoding to str: need a bytes-like object, " ++ (← o.familyName) ++ " found")
  | _ => pure .nothing

def decimalSlots : Slots where
  function := none
  names := ["value", "context"]

/-- Stops at rules for decimals other than the usual ones; no others can be had in scripts. -/
def ensureUsualContext (o : Option Object) : Run Unit := do
  match o with
  | none => pure ()
  | some .nothing => pure ()
  | some _ => Run.raiseType "optional argument must be a context"

def decimalGiven (g : Given) : Run Object := do
  match ← decimalSlots.fill g with
  | [o, context] =>
    ensureUsualContext context
    match o with
    | some o => pure (.decimal (← o.toDecimal))
    | none => pure (.decimal .zero)
  | _ => pure .nothing

/-- The kinds that leave an object of their own as it is. -/
def keepingKinds : List Kind := [.int, .float, .text, .tuple, .frozenSet, .decimal]

/-- The only argument of a kind, if the kind leaves it as it is. -/
def kept? (k : Kind) (g : Given) : Run (Option Object) := do
  match g.positional, g.named with
  | [o], [] => do
    let isOwn := (← o.madeBy?) == some (.kind k)
    pure (if keepingKinds.contains k && isOwn then some o else none)
  | _, _ => pure none

/-- What a kind makes of the arguments. -/
def make (ev : Evaluator) (k : Kind) (g : Given) : Run Object := do
  match ← kept? k g with
  | some o => pure o
  | none => convert
where
  convert : Run Object := do
    match k with
    | .bool => scalarGiven k g (.bool false) fun o => do pure (.bool (← o.isTrue))
    | .int => wholeGiven g
    | .float => scalarGiven k g (.float (.ofInt 0)) fun o => do pure (.float (← o.toFloat))
    | .complex => pure (.foreign "complex")
    | .text => textGiven g
    | .tuple => pure (.tuple (← itemsGiven ev k g))
    | .list => Run.newList (← itemsGiven ev k g)
    | .dict => Run.newDict (← entriesGiven ev g)
    | .set => Run.newSet (← itemsGiven ev k g)
    | .frozenSet => pure (.frozenSet (← itemsGiven ev k g))
    | .range => rangeGiven g
    | .slice => sliceGiven g
    | .decimal => decimalGiven g
    | .date => dateGiven g
    | .dateTime => dateTimeGiven g
    | .duration => durationGiven g
    | .enumerate => enumerateGiven g
    | .filter => filterGiven g
    | .map => mapGiven g
    | .reversed => reversedGiven ev g
    | .zip => zipGiven g
    | .error _ => errorGiven ev (.kind k) g

end Object

end ModelPlaybook.Script
