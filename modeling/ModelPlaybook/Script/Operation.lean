import ModelPlaybook.Script.Filling

/-!
# Operators on objects

Scalars are combined as the values that they are; here are the operators that make, extend or look
through containers, and the tests of comparisons.
-/

namespace ModelPlaybook.Script

namespace Object

/-- Whether an object is a view that is used like a set. -/
def isSetView : Object → Bool
  | .view .keys _ => true
  | .view .items _ => true
  | _ => false

/-- What an operator makes of two sets, if it knows sets. -/
def combineSets? (op : BinaryOperator) (xs ys : List Object) : Run (Option (List Object)) := do
  let inside (o : Object) (items : List Object) : Run Bool := isAmong o items
  let outside (o : Object) (items : List Object) : Run Bool := do pure !(← isAmong o items)
  match op with
  | .sub => pure (some (← xs.filterM (outside · ys)))
  | .bitAnd => pure (some (← xs.filterM (inside · ys)))
  | .bitOr => pure (some (xs ++ (← ys.filterM (outside · xs))))
  | .bitXor => pure (some ((← xs.filterM (outside · ys)) ++ (← ys.filterM (outside · xs))))
  | _ => pure none

/-- The number of repetitions that an object asks for. -/
def repetitions (n : Int) : Run Nat :=
  Run.ofFault (repeatCount n)

/-- An operator on operands of which no container rule is known.  A read-only mapping is joined as
the mapping that it shows. -/
def onShadows (app : Application) (x y : Object) : Run Object := do
  let shadowOf (o : Object) : Run Value := do
    match app.operator, o with
    | .bitOr, .frozenMap _ => pure (.map [])
    | _, o => o.shadow
  ofValue (← Run.ofFault (app.apply (← shadowOf x) (← shadowOf y)))

/-- Adds something to a list. -/
def addToList (app : Application) (ev : Evaluator) (a : Address) (xs : List Object) (y : Object) :
    Run Object := do
  if app.assigning then
    ev.extend a y
    pure (.cell a)
  else
    match ← y.listItems? with
    | some ys => Run.newList (xs ++ ys)
    | none => onShadows app (.cell a) y

/-- Repeats a list. -/
def repeatListCell (app : Application) (a : Address) (xs : List Object) (n : Int) :
    Run Object := do
  let items := repeatList xs (← Object.repetitions n)
  if app.assigning then
    Run.write a (.list items)
    pure (.cell a)
  else Run.newList items

/-- An operator on sets, or on anything else that is left. -/
def onSetsOrRest (app : Application) (x y : Object) : Run Object := do
  match ← x.elements?, ← y.elements? with
  | some xs, some ys =>
    match ← combineSets? app.operator xs ys with
    | some items =>
      match x with
      | .frozenSet _ _ => pure (.frozenSet items)
      | .cell a =>
        if app.assigning then
          Run.write a (.set items)
          pure x
        else Run.newSet items
      | _ => Run.newSet items
    | none => onShadows app x y
  | _, _ =>
    match app.operator, ← x.entries?, ← y.entries? with
    | .bitOr, some xs, some ys => Run.newDict (← xs.putAll ys)
    | _, _, _ => onShadows app x y

/-- Set operators that a view understands; its other operand can be anything with items. -/
def viewOperators : List BinaryOperator := [.sub, .bitAnd, .bitOr, .bitXor]

/-- A set operator of which an operand is a view. -/
def onViews (app : Application) (ev : Evaluator) (x y : Object) : Run Object := do
  let xs ← distinct (← ev.items x)
  let ys ← distinct (← ev.items y)
  Run.newSet ((← combineSets? app.operator xs ys).getD [])

/-- What an operator makes of two objects. -/
def combined (app : Application) (ev : Evaluator) (x y : Object) : Run Object := do
  match x, y with
  | .scalar _ _, .scalar _ _ => onShadows app x y
  | _, _ =>
    match app.operator, x, ← x.listItems?, y, ← y.listItems? with
    | .add, .cell a, some xs, y, _ => addToList app ev a xs y
    | .add, .tuple xs _, _, .tuple ys _, _ =>
      if ys.isEmpty then pure x
      else if xs.isEmpty then pure y
      else pure (.tuple (xs ++ ys))
    | .mul, .cell a, some xs, y, _ =>
      match y.index? with
      | some n => repeatListCell app a xs n
      | none => onShadows app x y
    | .mul, .tuple xs _, _, y, _ =>
      match y.index? with
      | some 1 => pure x
      | some n => pure (.tuple (repeatList xs (← Object.repetitions n)))
      | none => onShadows app x y
    | .mul, x, _, .cell _, some ys =>
      match x.index? with
      | some n => Run.newList (repeatList ys (← Object.repetitions n))
      | none => onShadows app x y
    | .mul, x, _, .tuple ys _, _ =>
      match x.index? with
      | some 1 => pure y
      | some n => pure (.tuple (repeatList ys (← Object.repetitions n)))
      | none => onShadows app x y
    | .mod, .scalar (.text s) _, _, y, _ => do pure (.text (← Format.fillText argumentSource s y))
    | .mod, .bytes content _, _, y, _ => do
      pure (.bytes (← Format.fillBytes argumentSource content y))
    | op, x, _, y, _ =>
      if viewOperators.contains op && (x.isSetView || y.isSetView) then onViews app ev x y
      else onSetsOrRest app x y

/-- Applies an operator to two objects. -/
def combine (app : Application) (ev : Evaluator) (x y : Object) : Run Object := do
  Run.anew (← combined app ev x y)

end Object

/-- The assigning form of an operator.  A failed look-up in the course of it counts as an operator
that has no such form. -/
def assignWith (ev : Evaluator) (op : BinaryOperator) (target o : Object) : Run Object := do
  let unsupported : Run Object := Run.raiseFault (unsupportedAssignment op.assigningSymbol)
  if BinaryOperator.assignable.contains op then
    (Object.combine ⟨op, true⟩ ev target o).unlessRaised (.error "KeyError") unsupported
  else unsupported

namespace UnaryOperator

def symbol : UnaryOperator → String
  | negative => "-"
  | positive => "+"
  | invert => "~"
  | not => "not"

/-- Applies an operator to a number. -/
def onNumber? (op : UnaryOperator) (n : Number) : Option (Except Fault Number) :=
  match op, n with
  | .negative, n => some n.neg
  | .positive, .decimal d =>
    some do pure (.decimal (← liftSignal (standardContext.plus d)))
  | .positive, n => some (.ok n)
  | .invert, .int n => some (.ok (.int (-n - 1)))
  | _, _ => none

/-- Applies an operator to a scalar. -/
def onScalar? (op : UnaryOperator) (s : Scalar) : Option (Except Fault Scalar) :=
  match op, s with
  | .negative, .duration d => some (Duration.mk (-d.microseconds)).checked
  | .positive, .duration d => some (.ok (.duration d))
  | op, s => do
    let r ← op.onNumber? (← s.number?)
    some do
      match ← r with
      | .int n => pure (.int n)
      | .float x => pure (.float x)
      | .decimal d => pure (.decimal d)

/-- Applies an operator to an object. -/
def run (op : UnaryOperator) (o : Object) : Run Object := do
  let refused : Run Object := do
    Run.raiseType ("bad operand type for unary " ++ op.symbol ++ ": '" ++ (← o.familyName) ++ "'")
  match op, o with
  | .not, o => pure (.bool !(← o.isTrue))
  | .positive, .scalar (.int _) _ => pure o
  | .positive, .scalar (.float _) _ => pure o
  | op, .scalar s _ =>
    match op.onScalar? s with
    | some r => Run.anew (.scalar (← Run.ofFault r))
    | none => refused
  | _, _ => refused

end UnaryOperator

/-! ## Tests -/

namespace Object

/-- Whether a sequence has another one as a part. -/
def hasPart {α : Type} [BEq α] (part : List α) : List α → Bool
  | [] => part.isEmpty
  | c :: rest => part.isPrefixOf (c :: rest) || hasPart part rest

/-- Whether a number is one of a range. -/
def inRange (start stop step n : Int) : Bool :=
  let count : Int := rangeCount start stop step
  (n - start) % step == 0 && decide (0 ≤ (n - start).fdiv step) &&
    decide ((n - start).fdiv step < count)

/-- Whether an object is in a container. -/
def isWithin (ev : Evaluator) (o container : Object) : Run Bool := do
  let search : Run Bool := do isAmong o (← ev.items container)
  match container, o with
  | .scalar (.text s) _, .scalar (.text part) _ => pure (hasPart part.toList s.toList)
  | .scalar (.text _) _, o =>
    Run.raiseType ("'in <string>' requires string as left operand, not " ++ (← o.familyName))
  | .bytes content _, .bytes part _ => pure (hasPart part content)
  | .bytes content _, o =>
    match o.index? with
    | some n =>
      if 0 ≤ n ∧ n < 256 then pure (content.any fun b => (b.toNat : Int) = n)
      else Run.raiseValue "byte must be in range(0, 256)"
    | none =>
      Run.raiseType ("a bytes-like object is required, not '" ++ (← o.familyName) ++ "'")
  | .standIn name, _ => Run.deny name
  | .range start stop step _, o =>
    match o.index? with
    | some n => pure (inRange start stop step n)
    | none => search
  | .view .keys source, o =>
    pure (← Pairs.get? ((← source.entries?).getD []) o).isSome
  | container, o =>
    match ← container.entries? with
    | some entries => pure (← entries.get? o).isSome
    | none =>
      match ← container.elements? with
      | some items =>
        -- A set is looked for as the frozen set of its elements.
        match o with
        | .cell a =>
          match ← Run.read a with
          | .set own => isAmong (.frozenSet own) items
          | _ =>
            o.checkKey
            isAmong o items
        | o =>
          o.checkKey
          isAmong o items
      | none =>
        match ← container.iteration?, container with
        | some _, _ => search
        | none, .cell a =>
          match ← Run.read a with
          | .iterator _ => search
          | _ => unsearchable container
        | none, _ => unsearchable container
where
  unsearchable (container : Object) : Run Bool := do
    Run.raiseType ("argument of type '" ++ (← container.familyName) ++ "' is not iterable")

end Object

/-- The verdict of a test on two objects. -/
def Test.run (ev : Evaluator) (t : Test) (x y : Object) : Run Bool := do
  match t with
  | .comparing c => Object.compareBy c x y
  | .within => x.isWithin ev y
  | .notWithin => pure !(← x.isWithin ev y)
  | .same => pure (x == y)
  | .notSame => pure (x != y)

end ModelPlaybook.Script
