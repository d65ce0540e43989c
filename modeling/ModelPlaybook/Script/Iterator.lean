import ModelPlaybook.Script.Evaluator

/-!
# Iterators

How an object is gone through item by item.  What an iterator still has to give is kept in a cell,
so that all who hold it share its progress.
-/

namespace ModelPlaybook.Script

namespace Object

def characters (s : String) : List Object :=
  s.toList.map fun c => .text (String.singleton c)

/-- What a view shows of some entries. -/
def viewed (v : View) (entries : Pairs) : List Object :=
  match v with
  | .keys => entries.map (·.1)
  | .values => entries.map (·.2)
  | .items => entries.map fun (k, w) => .tuple [k, w]

def notIterable {α : Type} (o : Object) : Run α := do
  Run.raiseFault (ModelPlaybook.notIterable (← o.familyName))

/-- How to go through an object, if that is possible and it is no iterator itself. -/
def iteration? (o : Object) : Run (Option Iteration) := do
  match o with
  | .scalar (.text s) _ => pure (some (.rest "str_ascii_iterator" (characters s)))
  | .bytes content _ =>
    pure (some (.rest "bytes_iterator" (content.map fun b => .int b.toNat)))
  | .tuple items _ => pure (some (.rest "tuple_iterator" items))
  | .frozenMap entries => pure (some (.rest "dict_keyiterator" (entries.map (·.1))))
  | .frozenSet items _ => pure (some (.rest "set_iterator" (setOrder items)))
  | .range start stop step _ => pure (some (.numbers start (rangeCount start stop step) step))
  | .view v (.cell a) => pure (some (.dictItems v a 0 ((← size? (.cell a)).getD 0)))
  | .view v source =>
    pure (some (.rest v.typeName (viewed v ((← source.entries?).getD []))))
  | .standIn name => Run.deny name
  | .cell a =>
    match ← Run.read a with
    | .list _ => pure (some (.listItems a 0))
    | .dict entries => pure (some (.dictItems .keys a 0 entries.length))
    | .set items => pure (some (.rest "set_iterator" (setOrder items)))
    | .made _ (some entries) => pure (some (.dictItems .keys a 0 entries.length))
    | _ => pure none
  | _ => pure none

/-- Whether an object is an iterator itself. -/
def isIterator (o : Object) : Run Bool := do
  match o with
  | .cell a =>
    match ← Run.read a with
    | .iterator _ => pure true
    | _ => pure false
  | _ => pure false

/-- The iterator of an object. -/
def iterator (o : Object) : Run Address := do
  match ← o.iteration? with
  | some i =>
    match ← Run.allocate (.iterator i) with
    | .cell a => pure a
    | _ => o.notIterable
  | none =>
    match o with
    | .cell a =>
      match ← Run.read a with
      | .iterator _ => pure a
      | _ => o.notIterable
    | o => o.notIterable

end Object

/-- The next entry of a mapping that must keep its size meanwhile. -/
def Iteration.nextEntry (a : Address) (v : View) (dict : Address) (index size : Nat) :
    Run (Option Object) := do
  let entries := (← Object.entries? (.cell dict)).getD []
  if entries.length ≠ size then
    Run.raiseFault ⟨.named "RuntimeError", "dictionary changed size during iteration"⟩
  else
    match (Object.viewed v entries)[index]? with
    | some o =>
      Run.write a (.iterator (.dictItems v dict (index + 1) size))
      if v = .items then pure (some (← Run.anew o)) else pure (some o)
    | none => pure none

/-- The next objects of several iterators, unless one of them ends. -/
def Evaluator.advanceAll (ev : Evaluator) : List Address → Run (Option (List Object))
  | [] => pure (some [])
  | a :: rest => do
    match ← ev.advance a with
    | none => pure none
    | some o => pure ((← ev.advanceAll rest).map (o :: ·))

/-- An iterator ended before the ones ahead of it, or after them. -/
def Evaluator.endsApart {α : Type} (index : Nat) (word : String) : Run α :=
  let others := if index = 1 then " 1" else "s 1-" ++ toString index
  Run.raiseValue ("zip() argument " ++ toString (index + 1) ++ " is " ++ word ++
    " than argument" ++ others)

/-- Stops at the first iterator, counted from a number on, that still gives an object. -/
def Evaluator.ensureEnded (ev : Evaluator) : Nat → List Address → Run Unit
  | _, [] => pure ()
  | index, a :: rest => do
    match ← ev.advance a with
    | some _ => endsApart index "longer"
    | none => ev.ensureEnded (index + 1) rest

/-- The next objects of several iterators, which have to end together. -/
def Evaluator.advanceTogether (ev : Evaluator) (sources : List Address) :
    Run (Option (List Object)) :=
  go 0 sources
where
  go (index : Nat) : List Address → Run (Option (List Object))
    | [] => pure (some [])
    | a :: rest => do
      match ← ev.advance a with
      | some o => pure ((← go (index + 1) rest).map (o :: ·))
      | none =>
        if index = 0 then ev.ensureEnded 1 rest
        else Evaluator.endsApart index "shorter"
        pure none

/-- The next object of an iterator that is no comprehension. -/
def Iteration.next (ev : Evaluator) (a : Address) (i : Iteration) : Run (Option Object) := do
  match i with
  | .rest _ [] => pure none
  | .rest typeName (o :: more) =>
    Run.write a (.iterator (.rest typeName more))
    pure (some o)
  | .listItems list index =>
    match ((← Object.listItems? (.cell list)).getD [])[index]? with
    | some o =>
      Run.write a (.iterator (.listItems list (index + 1)))
      pure (some o)
    | none =>
      Run.write a (.iterator (.rest i.typeName []))
      pure none
  | .dictItems v dict index size => Iteration.nextEntry a v dict index size
  | .numbers _ 0 _ => pure none
  | .numbers n (count + 1) step =>
    Run.write a (.iterator (.numbers (n + step) count step))
    pure (some (← Run.anew (.int n)))
  | .mapped function sources =>
    match ← ev.advanceAll sources with
    | some os => pure (some (← ev.apply function os))
    | none => pure none
  | .filtered test source =>
    Run.untilSome (do
      match ← ev.advance source with
      | none => pure (some none)
      | some o =>
        let verdict ← if test == .nothing then pure o else ev.apply test [o]
        pure (if ← verdict.isTrue then some (some o) else none)) Run.loopLimit
  | .zipped _ [] => pure none
  | .zipped strict sources =>
    let next ← if strict then ev.advanceTogether sources else ev.advanceAll sources
    next.mapM fun os => Run.anew (.tuple os)
  | .enumerated source n =>
    match ← ev.advance source with
    | some o =>
      Run.write a (.iterator (.enumerated source (n + 1)))
      pure (some (← Run.anew (.tuple [← Run.anew (.int n), o])))
    | none => pure none
  | .generator _ => pure none

namespace Evaluator

/-- Visits the objects of an iterator one by one. -/
def visit {α : Type} (ev : Evaluator) (a : Address) (step : α → Object → Run α) (start : α) :
    Run α :=
  Run.foldSome (ev.advance a) step Run.loopLimit start

/-- All that an iterator still gives. -/
def drain (ev : Evaluator) (a : Address) : Run (List Object) := do
  pure (← ev.visit a (fun acc o => pure (acc.push o)) (#[] : Array Object)).toList

/-- The items of an object that can be gone through. -/
def items (ev : Evaluator) (o : Object) : Run (List Object) := do
  match ← o.listItems? with
  | some os => pure os
  | none => ev.drain (← o.iterator)

/-- Adds the items of an object at the end of a list.  Those of an iterator are added one by one,
and so they stay there where it fails later on. -/
def extend (ev : Evaluator) (list : Address) (o : Object) : Run Unit := do
  let add (items : List Object) : Run Unit := do
    Run.write list (.list (((← Object.listItems? (.cell list)).getD []) ++ items))
  if ← o.isIterator then ev.visit (← o.iterator) (fun _ item => add [item]) ()
  else add (← ev.items o)

/-- The items of an object that is spread over several names. -/
def unpacked (ev : Evaluator) (o : Object) : Run (List Object) := do
  if (← o.isIterator) || (← o.iteration?).isSome then ev.items o
  else Run.raiseType ("cannot unpack non-iterable " ++ (← o.familyName) ++ " object")

end Evaluator

/-- Stops: there are fewer items than names. -/
def tooFew {α : Type} (word : String) (count : Nat) (items : List Object) : Run α :=
  Run.raiseValue ("not enough values to unpack (expected " ++ word ++ toString count ++ ", got " ++
    toString items.length ++ ")")

/-- Stops unless there are exactly so many items. -/
def exactly (count : Nat) (items : List Object) : Run (List Object) :=
  if items.length < count then tooFew "" count items
  else if count < items.length then
    Run.raiseValue ("too many values to unpack (expected " ++ toString count ++ ")")
  else pure items

end ModelPlaybook.Script
