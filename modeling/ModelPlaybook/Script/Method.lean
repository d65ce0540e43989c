import ModelPlaybook.Script.Attribute
import ModelPlaybook.Script.Construction
import ModelPlaybook.Script.Item
import ModelPlaybook.Script.Sorting

/-!
# Calling methods

What the methods do that objects have by themselves.
-/

namespace ModelPlaybook.Script

namespace Owner

/-- How messages name the kind of an owner. -/
def name : Owner → String
  | list => "list"
  | dict => "dict"
  | frozenMap => "mappingproxy"
  | tuple => "tuple"
  | range => "range"
  | set => "set"
  | frozenSet => "frozenset"
  | text => "str"
  | decimal => "Decimal"
  | date => "date"
  | dateTime => "datetime"
  | duration => "timedelta"
  | logger => "ModelLog"

end Owner

namespace Object

/-- The text of a failed search for a place. -/
def notFound {α : Type} (text : String) : Run α :=
  Run.raiseValue text

/-- The position of an object among others. -/
def positionAmong? (o : Object) : Nat → List Object → Run (Option Nat)
  | _, [] => pure none
  | i, item :: rest => do
    if ← item.isSame o then pure (some i) else positionAmong? o (i + 1) rest

/-- How often an object is among others. -/
def countAmong (o : Object) (items : List Object) : Run Nat := do
  pure (← items.filterM fun item => item.isSame o).length

/-! ## Lists -/

/-- Where a list is opened for a new item. -/
def insertionPlace (size : Nat) (n : Int) : Nat :=
  if n < 0 then (n + size).toNat else min n.toNat size

/-- Takes an item out of a list. -/
def popItem (a : Address) (items : List Object) (g : Given) : Run Object := do
  let index ←
    match ← g.severalOf "list" "pop" 0 1 with
    | o :: _ =>
      let n ← o.whole
      if -sizeLimit ≤ n ∧ n < sizeLimit then pure n else Run.raiseTooLarge "ssize_t"
    | [] => pure (-1)
  if items.isEmpty then raiseIndex "pop from empty list"
  else
    let i ← position items.length index "pop index out of range"
    Run.write a (.list (items.eraseIdx i))
    pure (items[i]?.getD .nothing)

def listMethod (ev : Evaluator) (a : Address) (items : List Object) (name : String) (g : Given) :
    Run Object := do
  let called := "list." ++ name
  let replaceBy (items : List Object) : Run Object := do
    Run.write a (.list items)
    pure .nothing
  match name with
  | "append" => replaceBy (items ++ [← g.single called])
  | "clear" =>
    g.nothing called
    replaceBy []
  | "copy" =>
    g.nothing called
    Run.newList items
  | "count" => pure (.int (← countAmong (← g.single called) items))
  | "extend" =>
    ev.extend a (← g.single called)
    pure .nothing
  | "index" =>
    match ← g.severalOf "list" "index" 1 1 with
    | o :: _ =>
      match ← positionAmong? o 0 items with
      | some i => pure (.int i)
      | none => notFound ((← o.shown) ++ " is not in list")
    | [] => pure .nothing
  | "insert" =>
    match ← g.severalOf "list" "insert" 2 2 with
    | index :: o :: _ =>
      let i := insertionPlace items.length (← index.whole)
      replaceBy (items.take i ++ o :: items.drop i)
    | _ => pure .nothing
  | "pop" => popItem a items g
  | "remove" =>
    match ← positionAmong? (← g.single called) 0 items with
    | some i => replaceBy (items.eraseIdx i)
    | none => notFound "list.remove(x): x not in list"
  | "reverse" =>
    g.nothing called
    replaceBy items.reverse
  | _ =>
    if !g.positional.isEmpty then Run.raiseType "sort() takes no positional arguments"
    replaceBy (← sortedGiven ev g items)

/-! ## Mappings -/

/-- The entry under a key, or what is to be taken instead. -/
def getEntry (owner : Owner) (entries : Pairs) (g : Given) : Run Object := do
  match ← g.severalOf owner.name "get" 1 2 with
  | key :: fallback => pure ((← entries.get? key).getD (fallback.headD .nothing))
  | [] => pure .nothing

/-- A method that only looks at a mapping. -/
def lookMethod? (o : Object) (owner : Owner) (entries : Pairs) (name : String) (g : Given) :
    Option (Run Object) :=
  let called := owner.name ++ "." ++ name
  let view (v : View) : Run Object := do
    g.nothing called
    pure (.view v o)
  match name with
  | "get" => some (getEntry owner entries g)
  | "items" => some (view .items)
  | "keys" => some (view .keys)
  | "values" => some (view .values)
  | "copy" => some do
    g.nothing called
    Run.newDict entries
  | _ => none

/-- Writes the entries of a mapping back to its cell. -/
def writeEntries (a : Address) (entries : Pairs) : Run Unit := do
  match ← Run.read a with
  | .made maker (some _) => Run.write a (.made maker (some entries))
  | _ => Run.write a (.dict entries)

def dictMethod (ev : Evaluator) (a : Address) (entries : Pairs) (name : String) (g : Given) :
    Run Object := do
  match name with
  | "clear" =>
    g.nothing "dict.clear"
    writeEntries a []
    pure .nothing
  | "pop" =>
    match ← g.severalOf "dict" "pop" 1 2 with
    | key :: fallback =>
      match ← entries.remove? key, fallback with
      | some (v, rest), _ =>
        writeEntries a rest
        pure v
      | none, o :: _ => pure o
      | none, [] => Run.raiseKey key
    | [] => pure .nothing
  | "popitem" =>
    g.nothing "dict.popitem"
    match entries.getLast? with
    | some (k, v) =>
      writeEntries a entries.dropLast
      pure (.tuple [k, v])
    | none => Run.raiseKey (.text "popitem(): dictionary is empty")
  | "setdefault" =>
    match ← g.severalOf "dict" "setdefault" 1 2 with
    | key :: fallback =>
      match ← entries.get? key with
      | some v => pure v
      | none =>
        let v := fallback.headD .nothing
        writeEntries a (← entries.put key v)
        pure v
    | [] => pure .nothing
  | _ =>
    g.ensureCount "update" 0 1
    let merged ←
      match g.positional with
      | o :: _ => mergeInto ev entries o
      | [] => pure entries
    writeEntries a (← merged.putAll (g.named.map fun (name, o) => (.text name, o)))
    pure .nothing

/-! ## Other containers -/

/-- Searches the items of a sequence that cannot be changed. -/
def searchMethod (owner : Owner) (items : List Object) (name : String) (g : Given) :
    Run Object := do
  let o ←
    if name = "count" then g.single (owner.name ++ ".count")
    else do pure ((← g.severalOf owner.name "index" 1 1).headD .nothing)
  if name = "count" then pure (.int (← countAmong o items))
  else
    match ← positionAmong? o 0 items with
    | some i => pure (.int i)
    | none =>
      if owner = .tuple then notFound "tuple.index(x): x not in tuple"
      else notFound ((← o.shown) ++ " is not in range")

def setMethod (a : Address) (items : List Object) (name : String) (g : Given) : Run Object := do
  let called := "set." ++ name
  let replaceBy (items : List Object) : Run Object := do
    Run.write a (.set items)
    pure .nothing
  let without (o : Object) : Run (List Object) := do
    o.checkKey
    items.filterM fun item => do pure !(← item.isSame o)
  match name with
  | "add" => replaceBy (← addElement items (← g.single called))
  | "clear" =>
    g.nothing called
    replaceBy []
  | "copy" =>
    g.nothing called
    Run.newSet items
  | "discard" => replaceBy (← without (← g.single called))
  | "pop" =>
    g.nothing called
    match setOrder items with
    | o :: _ =>
      Run.write a (.set (← without o))
      pure o
    | [] => Run.raiseKey (.text "pop from an empty set")
  | _ =>
    let o ← g.single called
    let rest ← without o
    if rest.length = items.length then Run.raiseKey o else replaceBy rest

/-! ## Text -/

/-- The parts of a text between blanks. -/
def words (cs : List Char) : List String :=
  let (last, parts) := cs.foldl (fun (acc : List Char × List String) c =>
    if !Text.isBlank c then (c :: acc.1, acc.2)
    else if acc.1.isEmpty then acc
    else ([], String.ofList acc.1.reverse :: acc.2)) ([], [])
  (if last.isEmpty then parts else String.ofList last.reverse :: parts).reverse

/-- The parts of a text, which one of two texts has to hold. -/
def hasEnd (atStart : Bool) (s part : String) : Bool :=
  if atStart then part.toList.isPrefixOf s.toList else part.toList.isSuffixOf s.toList

/-- Whether a text starts, or ends, with another one or with one of several. -/
def endMethod (atStart : Bool) (s name : String) (g : Given) : Run Object := do
  let plain (o : Object) : Run Bool := do
    match o with
    | .scalar (.text part) _ => pure (hasEnd atStart s part)
    | o => Run.raiseType ("tuple for " ++ name ++ " must only contain str, not " ++ (← o.typeName))
  match ← g.severalOf "str" name 1 1 with
  | .tuple parts _ :: _ => pure (.bool (← parts.anyM plain))
  | .scalar (.text part) _ :: _ => pure (.bool (hasEnd atStart s part))
  | o :: _ =>
    Run.raiseType (name ++ " first arg must be str or a tuple of str, not " ++ (← o.typeName))
  | [] => pure .nothing

/-- The texts that are to be joined. -/
def textsToJoin (items : List Object) : Run (List String) :=
  items.zipIdx.mapM fun (o, i) => do
    match o with
    | .scalar (.text s) _ => pure s
    | o =>
      Run.raiseType ("sequence item " ++ toString i ++ ": expected str instance, " ++
        (← o.typeName) ++ " found")

def textMethod (ev : Evaluator) (s name : String) (g : Given) : Run Object := do
  match name with
  | "startswith" => endMethod true s name g
  | "endswith" => endMethod false s name g
  | "join" =>
    let source ← tryCatch (do (← g.single "str.join").iterator) fun
      | .raised _ => Run.raiseType "can only join an iterable"
      | .exhausted => throw .exhausted
    pure (.text (s.intercalate (← textsToJoin (← ev.drain source))))
  | "replace" =>
    match ← g.severalOf "str" "replace" 2 2 with
    | [.scalar (.text old) _, .scalar (.text new) _] => pure (.text (s.replace old new))
    | [.scalar (.text _) _, o] =>
      Run.raiseType ("replace() argument 2 must be str, not " ++ (← o.typeName))
    | o :: _ => Run.raiseType ("replace() argument 1 must be str, not " ++ (← o.typeName))
    | [] => pure .nothing
  | "split" =>
    match (← g.severalOf "str" "split" 0 1).headD .nothing with
    | .nothing => Run.newList ((words s.toList).map .text)
    | .scalar (.text "") _ => Run.raiseValue "empty separator"
    | .scalar (.text mark) _ => Run.newList ((s.splitOn mark).map .text)
    | o => Run.raiseType ("must be str or None, not " ++ (← o.typeName))
  | _ =>
    match (← g.severalOf "str" "strip" 0 1).headD .nothing with
    | .nothing => pure (.text (Text.trim s))
    | .scalar (.text marks) _ =>
      let isMark (c : Char) : Bool := marks.toList.contains c
      let front := s.toList.dropWhile isMark
      pure (.text (String.ofList (front.reverse.dropWhile isMark).reverse))
    | _ => Run.raiseType "strip arg must be None or str"

/-! ## Numbers and the calendar -/

def badRounding {α : Type} : Run α :=
  Run.raiseType ("valid values for rounding are:\n  [ROUND_CEILING, ROUND_FLOOR, ROUND_UP, " ++
    "ROUND_DOWN,\n   ROUND_HALF_UP, ROUND_HALF_DOWN, ROUND_HALF_EVEN,\n   ROUND_05UP]")

/-- The parameters of `quantize`. -/
def quantizeSlots : Slots where
  function := none
  names := ["exp", "rounding", "context"]
  required := 1

/-- A decimal with the exponent of another one. -/
def quantized (d : Decimal) (g : Given) : Run Object := do
  match ← quantizeSlots.fill g with
  | [some unit, rounding, context] =>
    ensureUsualContext context
    let mode ←
      match rounding.getD .nothing with
      | .nothing => pure standardContext.rounding
      | .scalar (.text name) _ =>
        match Rounding.ofName? name with
        | some mode => pure mode
        | none => badRounding
      | _ => badRounding
    let exponent ←
      match unit, unit.index? with
      | .scalar (.decimal e) _, _ => pure e
      | _, some n => pure (Decimal.ofInt n)
      | _, none =>
        Run.raiseType ("conversion from " ++ (← unit.familyName) ++ " to Decimal is not supported")
    pure (.decimal (← Run.ofFault (liftSignal (standardContext.quantize mode d exponent))))
  | _ => pure .nothing

/-- The parameters of `isoformat`. -/
def momentSlots : Slots where
  function := some "isoformat"
  names := ["sep", "timespec"]

/-- The mark between the date and the clock, or the name of how exact the clock is. -/
def momentWord (i : Nat) (o : Object) : Run String := do
  match i, o with
  | 0, .scalar (.text mark) _ => if mark.length = 1 then pure mark else refused "str"
  | 0, o => do refused (← if o == .nothing then pure "None" else o.familyName)
  | _, o => nameArgument "isoformat() argument 2" o
where
  refused (typeName : String) : Run String :=
    Run.raiseType ("isoformat() argument 1 must be a unicode character, not " ++ typeName)

/-- The text of a moment. -/
def momentText (t : DateTime) (g : Given) : Run Object := do
  match ← momentSlots.fillWith momentWord g with
  | [mark, exactness] =>
    match Exactness.ofName? (exactness.getD "auto") with
    | some e => pure (.text (t.isoWith (mark.getD "T") e))
    | none => Run.raiseValue "Unknown timespec value"
  | _ => pure .nothing

/-- Makes a logging call: its arguments become one message. -/
def logCall (g : Given) : Run Object := do
  match g.named with
  | (name, _) :: _ =>
    Run.raiseType ("ModelLog.info() got an unexpected keyword argument '" ++ name ++ "'")
  | [] =>
    let message := " ".intercalate (← g.positional.mapM (·.plainText))
    modify fun m => { m with log := message :: m.log }
    pure .nothing

/-! ## All methods -/

/-- What a method of an object gives. -/
def callMethod (ev : Evaluator) (o : Object) (name : String) (g : Given) : Run Object := do
  let constant (owner : Owner) (result : Object) : Run Object := do
    g.nothing (owner.name ++ "." ++ name)
    pure result
  match o with
  | .scalar (.text s) _ => textMethod ev s name g
  | .scalar (.decimal d) _ => quantized d g
  | .scalar (.date d) _ =>
    constant .date (if name = "weekday" then .int d.weekday else .text d.iso)
  | .scalar (.dateTime t) _ =>
    match name with
    | "isoformat" => momentText t g
    | "date" => constant .dateTime (.scalar (.date t.date))
    | _ => constant .date (.int t.date.weekday)
  | .scalar (.duration d) _ =>
    constant .duration (.float (← Run.ofFault (Number.quotient d.microseconds 1000000)))
  | .tuple items _ => searchMethod .tuple items name g
  | .range _ _ _ _ => searchMethod .range (← ev.items o) name g
  | .frozenSet _ _ => constant .frozenSet o
  | .frozenMap entries => (lookMethod? o .frozenMap entries name g).getD (pure .nothing)
  | .logger => logCall g
  | .cell a =>
    match ← Run.read a with
    | .list items => listMethod ev a items name g
    | .set items => setMethod a items name g
    | .dict entries => (lookMethod? o .dict entries name g).getD (dictMethod ev a entries name g)
    | .made _ (some entries) =>
      (lookMethod? o .dict entries name g).getD (dictMethod ev a entries name g)
    | _ => pure .nothing
  | _ => pure .nothing

end Object

end ModelPlaybook.Script
