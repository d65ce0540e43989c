import ModelPlaybook.Script.Kind

/-!
# Comparing objects

Equality and order of objects, which objects can be keys, and how keys are looked up.  Containers
take identical parts for equal without looking into them.
-/

namespace ModelPlaybook.Script

/-- How deep a comparison looks into containers. -/
def compareDepth : Nat := 10000

namespace Object

/-- Denies a comparison with the stand-in of a blocked name. -/
def denyStandIns (x y : Object) : Run Unit := do
  match x, y with
  | .standIn name, _ => Run.deny name
  | _, .standIn name => Run.deny name
  | _, _ => pure ()

/-- A sequence of numbers written out as far as it matters for equality. -/
def rangeKey (start stop step : Int) : Nat × Int × Int :=
  let n := rangeCount start stop step
  (n, if n = 0 then 0 else start, if n ≤ 1 then 0 else step)

def isFrozenMap : Object → Bool
  | .frozenMap _ => true
  | _ => false

mutual

/-- Equality of objects. -/
def equals : Nat → Object → Object → Run Bool
  | 0, _, _ => throw .exhausted
  | fuel + 1, x, y => do
    denyStandIns x y
    match x, y with
    | .scalar a _, .scalar b _ => Run.ofFault (liftSignal (a.equals b))
    | .tuple xs _, .tuple ys _ => equalItems fuel xs ys
    | .range a b c _, .range d e f _ => pure (rangeKey a b c == rangeKey d e f)
    | .bytes xs _, .bytes ys _ => pure (xs == ys)
    | .slice a b c, .slice d e f => equalItems fuel [a, b, c] [d, e, f]
    | x, y =>
      if x == y then pure true
      else
        match ← x.listItems?, ← y.listItems? with
        | some xs, some ys =>
          if xs.length = ys.length then equalItems fuel xs ys else pure false
        | _, _ =>
          match ← x.entries?, ← y.entries? with
          | some xs, some ys =>
            -- A read-only mapping on the right is asked about the other one.
            if xs.length ≠ ys.length then pure false
            else if y.isFrozenMap then entriesWithin fuel ys xs
            else entriesWithin fuel xs ys
          | _, _ =>
            match ← x.elements?, ← y.elements? with
            | some xs, some ys =>
              if xs.length = ys.length then elementsWithin fuel xs ys else pure false
            | _, _ => pure false

/-- Whether two objects are the same or equal. -/
def matches? : Nat → Object → Object → Run Bool
  | 0, _, _ => throw .exhausted
  | fuel + 1, x, y => if x == y then pure true else equals fuel x y

def equalItems : Nat → List Object → List Object → Run Bool
  | 0, _, _ => throw .exhausted
  | _ + 1, [], ys => pure ys.isEmpty
  | _ + 1, _ :: _, [] => pure false
  | fuel + 1, x :: xs, y :: ys => do
    if ← matches? fuel x y then equalItems fuel xs ys else pure false

/-- Whether every entry of one mapping has an equal one in another. -/
def entriesWithin : Nat → Pairs → Pairs → Run Bool
  | 0, _, _ => throw .exhausted
  | _ + 1, [], _ => pure true
  | fuel + 1, (k, v) :: rest, ys => do
    match ← ys.findM? fun entry => matches? fuel k entry.1 with
    | some (_, w) => if ← matches? fuel v w then entriesWithin fuel rest ys else pure false
    | none => pure false

def elementsWithin : Nat → List Object → List Object → Run Bool
  | 0, _, _ => throw .exhausted
  | _ + 1, [], _ => pure true
  | fuel + 1, x :: xs, ys => do
    match ← ys.findM? fun y => matches? fuel x y with
    | some _ => elementsWithin fuel xs ys
    | none => pure false

end

def isEqual (x y : Object) : Run Bool :=
  equals compareDepth x y

def isSame (x y : Object) : Run Bool :=
  matches? compareDepth x y

/-! ## Order -/

/-- The test that holds of two objects in turned order. -/
def turned : Comparator → Comparator
  | .less => .greater
  | .atMost => .atLeast
  | .greater => .less
  | .atLeast => .atMost
  | c => c

/-- Stops at two objects that have no order.  A read-only mapping hands the question to the mapping
that it shows, from the right in turned order. -/
def unordered {α : Type} (c : Comparator) (x y : Object) : Run α := do
  let name (o : Object) : Run String := do
    match o with
    | .frozenMap _ => pure "dict"
    | o => o.familyName
  match y with
  | .frozenMap _ => Run.raiseFault (.unordered (turned c).symbol "dict" (← name x))
  | y => Run.raiseFault (.unordered c.symbol (← name x) (← name y))

/-- Inclusion of sets. -/
def orderSets (c : Comparator) (xs ys : List Object) : Run Bool := do
  let within (xs ys : List Object) : Run Bool := elementsWithin compareDepth xs ys
  match c with
  | .less => if xs.length < ys.length then within xs ys else pure false
  | .atMost => within xs ys
  | .greater => if ys.length < xs.length then within ys xs else pure false
  | _ => within ys xs

mutual

/-- Compares two objects by order. -/
def order (c : Comparator) : Nat → Object → Object → Run Bool
  | 0, _, _ => throw .exhausted
  | fuel + 1, x, y => do
    denyStandIns x y
    match x, y with
    | .scalar a _, .scalar b _ => Run.ofFault ((Value.scalar a).compareBy c (.scalar b))
    | .bytes xs _, .bytes ys _ => pure (c.holds (compare (xs.map UInt8.toNat) (ys.map UInt8.toNat)))
    | .tuple xs _, .tuple ys _ => orderItems c fuel xs ys
    | .slice a b d, .slice a' b' d' => orderItems c fuel [a, b, d] [a', b', d']
    | .library _, .library _ => Run.raiseFault (.unordered c.symbol "dict" "dict")
    | x, y =>
      match ← x.listItems?, ← y.listItems? with
      | some xs, some ys => orderItems c fuel xs ys
      | _, _ =>
        match ← x.elements?, ← y.elements? with
        | some xs, some ys => orderSets c xs ys
        | _, _ => unordered c x y

/-- Compares item by item: the first pair of different items decides, or else the lengths. -/
def orderItems (c : Comparator) : Nat → List Object → List Object → Run Bool
  | 0, _, _ => throw .exhausted
  | _ + 1, [], ys => pure (c.holds (compare 0 ys.length))
  | _ + 1, _ :: _, [] => pure (c.holds .gt)
  | fuel + 1, x :: xs, y :: ys => do
    if ← isSame x y then orderItems c fuel xs ys else order c fuel x y

end

/-- Compares two objects. -/
def compareBy (c : Comparator) (x y : Object) : Run Bool := do
  match c with
  | .equal => x.isEqual y
  | .notEqual => pure !(← x.isEqual y)
  | c => order c compareDepth x y

/-! ## Keys -/

def unhashable {α : Type} (o : Object) : Run α := do
  Run.raiseType ("unhashable type: '" ++ (← o.familyName) ++ "'")

/-- Stops at an object that cannot be a key. -/
def ensureKey : Nat → Object → Run Unit
  | 0, _ => throw .exhausted
  | fuel + 1, o => do
    match o with
    | .scalar (.decimal d) _ =>
      if d.isSignaling then Run.raiseType "Cannot hash a signaling NaN value"
    | .standIn name => Run.deny name
    | .tuple items _ => items.forM (ensureKey fuel)
    | .frozenMap _ => o.unhashable
    | .slice _ _ _ => o.unhashable
    | .library _ => o.unhashable
    | .view .values _ => pure ()
    | .view _ _ => o.unhashable
    | .cell a =>
      match ← Run.read a with
      | .list _ => o.unhashable
      | .dict _ => o.unhashable
      | .set _ => o.unhashable
      | .made _ (some _) => o.unhashable
      | _ => pure ()
    | _ => pure ()

def checkKey (o : Object) : Run Unit :=
  ensureKey compareDepth o

end Object

namespace Pairs

/-- The object under a key. -/
def get? (entries : Pairs) (key : Object) : Run (Option Object) := do
  key.checkKey
  pure ((← entries.findM? fun entry => entry.1.isSame key).map (·.2))

/-- Puts an object under a key: in place if the key is there, otherwise at the end. -/
def put (entries : Pairs) (key value : Object) : Run Pairs := do
  key.checkKey
  go entries
where
  go : Pairs → Run Pairs
    | [] => pure [(key, value)]
    | (k, v) :: rest => do
      if ← k.isSame key then pure ((k, value) :: rest) else pure ((k, v) :: (← go rest))

/-- Takes a key out, if it is there. -/
def remove? (entries : Pairs) (key : Object) : Run (Option (Object × Pairs)) := do
  key.checkKey
  go entries
where
  go : Pairs → Run (Option (Object × Pairs))
    | [] => pure none
    | (k, v) :: rest => do
      if ← k.isSame key then pure (some (v, rest))
      else pure ((← go rest).map fun (found, rest) => (found, (k, v) :: rest))

def putAll (entries more : Pairs) : Run Pairs :=
  more.foldlM (fun entries (k, v) => put entries k v) entries

end Pairs

/-- Whether an object is among others. -/
def isAmong (o : Object) (items : List Object) : Run Bool :=
  items.anyM fun item => item.isSame o

/-- Puts an object into a set. -/
def addElement (kept : List Object) (o : Object) : Run (List Object) := do
  o.checkKey
  if ← isAmong o kept then pure kept else pure (kept ++ [o])

/-- The items of a list as elements of a set, each once. -/
def distinct (items : List Object) : Run (List Object) :=
  items.foldlM addElement []

end ModelPlaybook.Script
