import ModelPlaybook.Script.Assignment
import ModelPlaybook.Script.Binding

/-!
# Comprehensions

A comprehension is an iterator over nested loops.  Between two of its elements it keeps the
iterators of the loops that are open.
-/

namespace ModelPlaybook.Script

/-- The names that the clauses of a comprehension bind. -/
def clauseNames (clauses : List Clause) : List String :=
  clauses.flatMap fun (.mk target _ _) => target.bound

/-- Whether all conditions hold. -/
def allHold (ev : Evaluator) (f : Frame) : List Expr → Run Bool
  | [] => pure true
  | e :: es => do
    if ← (← ev.expression f e).isTrue then allHold ev f es else pure false

namespace Generator

/-- Goes on by one step: to an element, to the end, or to nothing that shows. -/
def step (ev : Evaluator) (a : Address) : Run (Option (Option Object)) := do
  match ← Run.read a with
  | .iterator (.generator g) =>
    match g.running, g.clauses[g.running.length - 1]? with
    | inner :: outer, some (.mk target _ conditions) =>
      -- A comprehension that fails is at its end.
      Run.write a (.iterator (.generator { g with running := [] }))
      match ← ev.advance inner with
      | none =>
        Run.write a (.iterator (.generator { g with running := outer }))
        pure none
      | some o =>
        assignWhole ev g.frame target o
        let opened ←
          if ← allHold ev g.frame conditions then
            match g.clauses[g.running.length]? with
            | none => pure (some none)
            | some (.mk _ source _) =>
              pure (some (some (← (← ev.expression g.frame source).iterator)))
          else pure none
        match opened with
        | some none =>
          let element ← ev.expression g.frame g.element
          Run.write a (.iterator (.generator g))
          pure (some (some element))
        | some (some next) =>
          Run.write a (.iterator (.generator { g with running := next :: g.running }))
          pure none
        | none =>
          Run.write a (.iterator (.generator g))
          pure none
    | _, _ => pure (some none)
  | _ => pure (some none)

/-- The next element. -/
def next (ev : Evaluator) (a : Address) : Run (Option Object) :=
  Run.untilSome (step ev a) Run.loopLimit

/-- Opens a comprehension.  The source of its first clause belongs to the surroundings. -/
def start (ev : Evaluator) (f : Frame) (name : String) (element : Expr) (clauses : List Clause)
    (handedOn : Bool) : Run Address := do
  let running ←
    match clauses with
    | .mk _ source _ :: _ => do pure [← (← ev.expression f source).iterator]
    | [] => pure []
  let scope : Scope := ⟨.function, clauseNames clauses, [], [], none, some f.scope⟩
  match ← Run.allocate (.scope scope) with
  | .cell s =>
    let frame : Frame := ⟨s, f.path ++ name ++ ".<locals>."⟩
    match ← Run.allocate (.iterator (.generator ⟨frame, element, clauses, running, handedOn⟩)) with
    | .cell a => pure a
    | _ => throw .exhausted
  | _ => throw .exhausted

end Generator

namespace Evaluator

/-- Fills a list or a set, or hands on the iterator. -/
def comprehension (ev : Evaluator) (f : Frame) (filled : Filled) (element : Expr)
    (clauses : List Clause) : Run Object := do
  match filled with
  | .generator => do pure (.cell (← Generator.start ev f "<genexpr>" element clauses true))
  | .list =>
    Run.newList (← ev.drain (← Generator.start ev f "<listcomp>" element clauses false))
  | .set =>
    let a ← Generator.start ev f "<setcomp>" element clauses false
    Run.newSet (← ev.visit a addElement [])

/-- Fills a mapping. -/
def dictComprehension (ev : Evaluator) (f : Frame) (key value : Expr) (clauses : List Clause) :
    Run Object := do
  let a ← Generator.start ev f "<dictcomp>" (.tuple [key, value]) clauses false
  Run.newDict (← ev.visit a (fun (acc : Pairs) o => do
    match o with
    | .tuple [k, v] _ => acc.put k v
    | _ => pure acc) [])

end Evaluator

end ModelPlaybook.Script
