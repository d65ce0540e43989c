import ModelPlaybook.Script.Attribute
import ModelPlaybook.Script.Item
import ModelPlaybook.Script.Scope

/-!
# Assignment

Binding the names of a target, and spreading an object over the parts of a target.  A target in
round brackets takes the items of the object, with its inner parts, before any part is bound.
-/

namespace ModelPlaybook.Script

namespace Expr

def isStarred : Expr → Bool
  | .starred _ => true
  | _ => false

/-- The parts of a target in round brackets. -/
def tupleParts? : Expr → Option (List Expr)
  | .tuple es => some es
  | _ => none

end Expr

/-- How deep targets are nested. -/
def targetDepth : Nat := 10000

/-- The items that an object gives to a target in round brackets.  Inner targets of that kind take
theirs at once, unless there are too few items. -/
def spread (ev : Evaluator) : Nat → List Expr → Object → Run (List Object)
  | 0, _, _ => throw .exhausted
  | fuel + 1, parts, o => do
    let items ← ev.items o
    let least := (parts.filter (!·.isStarred)).length
    if items.length < least then pure items
    else
      let behindStar := (parts.dropWhile (!·.isStarred)).length
      parts.zipIdx.foldlM (fun (acc : List Object) (part, i) => do
        match part.tupleParts? with
        | none => pure acc
        | some inner =>
          let fromEnd := parts.length - i
          let place := if fromEnd < behindStar then acc.length - fromEnd else i
          let given ← spread ev fuel inner (acc[place]?.getD .nothing)
          pure (acc.set place (.tuple given))) items

/-- The object for each part of a target; a starred part takes a list of what the others leave. -/
def shareOut (parts : List Expr) (items : List Object) : Run (List Object) := do
  let count := parts.length
  let before := (parts.takeWhile (!·.isStarred)).length
  if before = count then exactly count items
  else if items.length < count - 1 then tooFew "at least " (count - 1) items
  else
    let after := count - before - 1
    let middle := items.length - before - after
    let star ← Run.newList ((items.drop before).take middle)
    pure (items.take before ++ star :: items.drop (before + middle))

mutual

/-- Binds a target to an object. -/
def assignTo (ev : Evaluator) (f : Frame) : Expr → Object → Run Unit
  | .name _ id, o => f.bind id o
  | .attribute _ object id, _ => do
    (← ev.expression f object).refuseAttributeChange id
  | .item object index, o => do
    let container ← ev.expression f object
    let key ← ev.expression f index
    container.setItem ev key o
  | .tuple parts, o => do assignAll ev f parts (← shareOut parts (← ev.unpacked o))
  | .list parts, o => do assignAll ev f parts (← shareOut parts (← ev.unpacked o))
  | .starred e, o => assignTo ev f e o
  | _, _ => pure ()
termination_by structural e => e

def assignAll (ev : Evaluator) (f : Frame) : List Expr → List Object → Run Unit
  | e :: es, o :: os => do
    assignTo ev f e o
    assignAll ev f es os
  | _, _ => pure ()
termination_by structural es => es

end

/-- Binds a whole target to an object. -/
def assignWhole (ev : Evaluator) (f : Frame) (target : Expr) (o : Object) : Run Unit := do
  match target.tupleParts? with
  | some parts => assignTo ev f target (.tuple (← spread ev targetDepth parts o))
  | none => assignTo ev f target o

mutual

/-- Takes away what a target stands for. -/
def deleteTarget (ev : Evaluator) (f : Frame) : Expr → Run Unit
  | .name _ id => f.delete id
  | .attribute _ object id => do
    (← ev.expression f object).refuseAttributeChange id
  | .item object index => do
    let container ← ev.expression f object
    container.deleteItem (← ev.expression f index)
  | .tuple parts => deleteTargets ev f parts
  | .list parts => deleteTargets ev f parts
  | _ => pure ()
termination_by structural e => e

def deleteTargets (ev : Evaluator) (f : Frame) : List Expr → Run Unit
  | [] => pure ()
  | e :: es => do
    deleteTarget ev f e
    deleteTargets ev f es
termination_by structural es => es

end

end ModelPlaybook.Script
