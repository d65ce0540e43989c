import ModelPlaybook.Script.Construction
import ModelPlaybook.Script.Operation
import ModelPlaybook.Script.Signature
import ModelPlaybook.Script.Sorting

/-!
# Functions that scripts know by themselves

Numbers, questions about objects and their kinds, sums and extremes, and the registration of entry
points.
-/

namespace ModelPlaybook.Script

namespace Primitive

/-! ## Numbers -/

/-- The distance of a number from zero. -/
def absolute (o : Object) : Run Object := do
  match o with
  | .scalar (.float x) _ => pure (.float x.abs)
  | .scalar (.decimal d) _ =>
    do pure (.decimal (← Run.ofFault (liftSignal (standardContext.abs d))))
  | .scalar (.duration d) _ =>
    do pure (.scalar (← Run.ofFault (Duration.mk d.microseconds.natAbs).checked))
  | o =>
    match o.index? with
    | some n => pure (if 0 ≤ n && o.isWhole then o else .int n.natAbs)
    | none => Run.raiseType ("bad operand type for abs(): '" ++ (← o.familyName) ++ "'")

/-- A whole number rounded to some places before the point. -/
def roundWhole (n places : Int) : Int :=
  if 0 ≤ places then n
  else
    let unit : Int := 10 ^ places.natAbs
    Duration.nearestQuotient n unit * unit

def roundSlots : Slots where
  function := some "round"
  names := ["number", "ndigits"]
  required := 1

/-- A number rounded to a whole number, or to some places. -/
def rounded (g : Given) : Run Object := do
  match ← roundSlots.fill g with
  | [some o, places] => one o (places.getD .nothing)
  | _ => pure .nothing
where
  one (o places : Object) : Run Object := do
    match o, places with
    | .scalar (.float x) _, .nothing => pure (.int (← Object.cutFloat .halfEven x))
    | .scalar (.float x) _, places =>
      let r := x.roundTo (← places.whole)
      if x.isFinite && !r.isFinite then
        Run.raiseFault ⟨.overflow, "rounded value too large to represent"⟩
      else pure (.float r)
    | .scalar (.decimal d) _, .nothing => pure (.int (← Object.cutDecimal .halfEven d))
    | .scalar (.decimal d) _, places =>
      match places.index? with
      | some n =>
        let unit := Decimal.finite false 1 (-n)
        pure (.decimal (← Run.ofFault (liftSignal (standardContext.quantize .halfEven d unit))))
      | none => Run.raiseType "optional arg must be an integer"
    | o, places =>
      match o.index? with
      | some n => do
        let r ← if places == .nothing then pure n else do pure (roundWhole n (← places.whole))
        pure (if r = n && o.isWhole then o else .int r)
      | none =>
        Run.raiseType ("type " ++ (← o.familyName) ++ " doesn't define __round__ method")

/-- Quotient and remainder together. -/
def quotientAndRest (ev : Evaluator) (x y : Object) : Run Object := do
  let numbers : Option (Number × Number) :=
    match x, y with
    | .scalar a _, .scalar b _ => do pure (← a.number?, ← b.number?)
    | _, _ => none
  match numbers with
  | some (.float _, n) => floats n
  | some (n, .float z) => if n.isDecimal then refused else floats (.float z)
  | some _ => both
  | none =>
    match x, y with
    | .scalar (.duration _) _, .scalar (.duration _) _ => both
    | _, _ => refused
where
  both : Run Object := do
    let q ← Object.combine ⟨.floorDiv, false⟩ ev x y
    let r ← Object.combine ⟨.mod, false⟩ ev x y
    pure (.tuple [q, r])
  floats (divisor : Number) : Run Object := do
    if divisor.isDecimal then refused
    else
      match divisor.isZero with
      | .ok true => Run.raiseFault ⟨.zeroDivision, "float divmod()"⟩
      | _ => both
  refused : Run Object := do
    Run.raiseFault (.unsupported "divmod()" (← x.familyName) (← y.familyName))

/-- A power with respect to a modulus, by squaring. -/
def powerWithin (m x : Int) (n : Nat) : Int :=
  (Nat.toDigits 2 n).foldl (fun (acc : Int) digit =>
    (acc * acc * (if digit = '1' then x else 1)).fmod m) ((1 : Int).fmod m)

/-- Euclid's algorithm: a factor that takes `a` to the greatest common divisor of `a` and `b`, up to
multiples of the first modulus, and that divisor.  `s` and `t` are the factors found so far. -/
def inverseStep : Nat → (a b s t : Int) → Int × Int
  | 0, a, _, s, _ => (s, a)
  | fuel + 1, a, b, s, t =>
    if b = 0 then (s, a)
    else inverseStep fuel b (a.fmod b) t (s - a.fdiv b * t)

/-- The number whose product with another one leaves one with respect to a modulus. -/
def inverse? (m x : Int) : Option Int :=
  let modulus : Int := m.natAbs
  let (s, divisor) := inverseStep (2 * modulus.toNat.log2 + 4) (x.fmod modulus) modulus 1 0
  if divisor = 1 ∨ modulus = 1 then some (s.fmod modulus) else none

def powerSlots : Slots where
  function := some "pow"
  names := ["base", "exp", "mod"]
  required := 2

/-- A power of whole numbers with respect to a modulus. -/
def wholePower (x n m : Int) : Run Object := do
  if m = 0 then Run.raiseValue "pow() 3rd argument cannot be 0"
  else if 0 ≤ n then pure (.int (powerWithin m x n.toNat))
  else
    match inverse? m x with
    | some x => pure (.int (powerWithin m x n.natAbs))
    | none => Run.raiseValue "base is not invertible for the given modulus"

/-- A power, with respect to a modulus if one is given. -/
def power (ev : Evaluator) (g : Given) : Run Object := do
  match ← powerSlots.fill g with
  | [some x, some y, z] =>
    match z.getD .nothing with
    | .nothing => Object.combine ⟨.pow, false⟩ ev x y
    | z =>
      match x.index?, y.index?, z.index? with
      | some a, some n, some m => wholePower a n m
      | _, _, _ =>
        if [x, y, z].any isDouble then
          Run.raiseType "pow() 3rd argument not allowed unless all arguments are integers"
        else
          Run.raiseType ("unsupported operand type(s) for ** or pow(): '" ++
            "', '".intercalate (← [x, y, z].mapM (·.familyName)) ++ "'")
  | _ => pure .nothing
where
  isDouble : Object → Bool
    | .scalar (.float _) _ => true
    | _ => false

/-- A whole number in a base that is a power of two, with its mark. -/
def inBase (base : Nat) (mark : String) (o : Object) : Run Object := do
  let n ← o.whole
  let digits := String.ofList (Nat.toDigits base n.natAbs)
  pure (.text ((if n < 0 then "-" else "") ++ mark ++ digits))

/-! ## Characters -/

def character (o : Object) : Run Object := do
  let n ← o.whole
  if n < -(2 ^ (31 : Nat)) ∨ 2 ^ (31 : Nat) ≤ n then
    Run.raiseTooLarge "int"
  else if n < 0 ∨ 0x10FFFF < n then Run.raiseValue "chr() arg not in range(0x110000)"
  else pure (.text (String.singleton (Text.charOfCode n.toNat)))

def codePoint (o : Object) : Run Object := do
  match o with
  | .scalar (.text s) _ =>
    match s.toList with
    | [c] => pure (.int (Text.codeOfChar c))
    | cs => refused cs.length
  | .bytes content _ =>
    match content with
    | [b] => pure (.int b.toNat)
    | bs => refused bs.length
  | o =>
    Run.raiseType ("ord() expected string of length 1, but " ++ (← o.familyName) ++ " found")
where
  refused (size : Nat) : Run Object :=
    Run.raiseType ("ord() expected a character, but string of length " ++ toString size ++ " found")

/-! ## Kinds -/

/-- Whether a test holds for a kind, or for one of several. -/
def someKind (test : Object → Run Bool) : Nat → Object → Run Bool
  | 0, _ => throw .exhausted
  | fuel + 1, kinds => do
    match kinds with
    | .standIn name => Run.deny name
    | .tuple many _ => many.anyM (someKind test fuel)
    | one => test one

def ofKindGiven (g : Given) : Run Object := do
  match ← g.several "isinstance" 2 2 with
  | o :: kinds :: _ =>
    let test (k : Object) : Run Bool := do
      if ← k.isKind then o.isOf k
      else Run.raiseType "isinstance() arg 2 must be a type, a tuple of types, or a union"
    pure (.bool (← someKind test compareDepth kinds))
  | _ => pure .nothing

def withinKindGiven (g : Given) : Run Object := do
  match ← g.several "issubclass" 2 2 with
  | .standIn name :: _ => Run.deny name
  | o :: kinds :: _ =>
    let test (k : Object) : Run Bool := do
      if !(← o.isKind) then Run.raiseType "issubclass() arg 1 must be a class"
      else if !(← k.isKind) then
        Run.raiseType "issubclass() arg 2 must be a class, a tuple of classes, or a union"
      else k.isKindWithin kindDepth o
    pure (.bool (← someKind test compareDepth kinds))
  | _ => pure .nothing

/-! ## Collections -/

def size (o : Object) : Run Object := do
  match o with
  | .standIn name => Run.deny name
  | o =>
    match ← o.size? with
    | some n =>
      if n < sizeLimit then pure (.int n)
      else Run.raiseTooLarge "ssize_t"
    | none => Run.raiseType ("object of type '" ++ (← o.familyName) ++ "' has no len()")

/-- Whether an object with a verdict is among the items of another one. -/
def someItem (ev : Evaluator) (verdict : Bool) (o : Object) : Run Bool := do
  let source ← o.iterator
  Run.untilSome (do
    match ← ev.advance source with
    | none => pure (some false)
    | some item => pure (if (← item.isTrue) = verdict then some true else none)) Run.loopLimit

def sumSlots : Slots where
  function := some "sum"
  names := ["iterable", "start"]
  unnamed := 1

def total (ev : Evaluator) (g : Given) : Run Object := do
  if g.positional.isEmpty && g.count ≤ 2 then
    Run.raiseType "sum() takes at least 1 positional argument (0 given)"
  match ← sumSlots.fill g with
  | [some source, start] =>
    let items ← source.iterator
    match start.getD (.int 0) with
    | .scalar (.text _) _ => Run.raiseType "sum() can't sum strings [use ''.join(seq) instead]"
    | .bytes _ _ => Run.raiseType "sum() can't sum bytes [use b''.join(seq) instead]"
    | start => ev.visit items (Object.combine ⟨.add, false⟩ ev) start
  | _ => pure .nothing

def sortedGiven (ev : Evaluator) (g : Given) : Run Object := do
  g.ensureCount "sorted" 1 1
  match g.positional with
  | source :: _ =>
    let items ← ev.items source
    Run.newList (← Object.sortedGiven ev g items)
  | [] => pure .nothing

/-! ## Hashes and entry points -/

/-- Whole numbers are spread over the numbers below a prime. -/
def hashPrime : Int := 2 ^ (61 : Nat) - 1

/-- A number by which an object can be told from others. -/
def hashed (o : Object) : Run Object := do
  o.checkKey
  match o.index? with
  | some n => pure (.int (if n < 0 then -((-n).fmod hashPrime) else n.fmod hashPrime))
  | none => pure (.int 0)

/-- How an entry point is registered. -/
def registering : Signature where
  path := "register_entrypoint.<locals>.register"
  positional := ["func"]
  defaults := []
  hasRest := false
  named := []
  namedDefaults := []
  hasNamedRest := false

/-- Registers an entry point. -/
def registerGiven (g : Given) : Run Object := do
  match (← registering.fill g).parameters with
  | [(_, o)] =>
    if ← o.isCallable then
      modify fun m => { m with registered := o :: m.registered }
      pure o
    else Run.raiseType "register() expects a callable"
  | _ => pure .nothing

/-- What a function gives. -/
def call (ev : Evaluator) (p : Primitive) (g : Given) : Run Object := do
  let one : Run Object := g.single (Object.primitiveName p)
  match p with
  | .abs => absolute (← one)
  | .all => do pure (.bool !(← someItem ev false (← one)))
  | .any => do pure (.bool (← someItem ev true (← one)))
  | .callable => do pure (.bool (← (← one).isCallable))
  | .chr => character (← one)
  | .divmod =>
    match ← g.several "divmod" 2 2 with
    | x :: y :: _ => quotientAndRest ev x y
    | _ => pure .nothing
  | .hash => hashed (← one)
  | .hex => inBase 16 "0x" (← one)
  | .id => do pure (.int (← one).identityNumber)
  | .isInstance => ofKindGiven g
  | .isSubclass => withinKindGiven g
  | .len => size (← one)
  | .max => Object.extremeGiven ev "max" .greater g
  | .min => Object.extremeGiven ev "min" .less g
  | .oct => inBase 8 "0o" (← one)
  | .ord => codePoint (← one)
  | .pow => power ev g
  | .repr => do pure (.text (← (← one).shown))
  | .round => rounded g
  | .sorted => sortedGiven ev g
  | .sum => total ev g
  | .register => registerGiven g

end Primitive

end ModelPlaybook.Script
