import ModelPlaybook.Script.Evaluation

/-!
# Executing statements
-/

namespace ModelPlaybook.Script

/-- What a computation gives, an error that it raises included. -/
def Run.outcome {α : Type} (r : Run α) : Run (Except Object α) :=
  tryCatch (do pure (.ok (← r))) fun
    | .raised error => pure (.error error)
    | .exhausted => throw .exhausted

namespace Evaluator

/-- The values of the targets of an assignment.  One that takes items evaluates the value anew. -/
def assign (ev : Evaluator) (f : Frame) (targets : List Expr) (value : Expr) : Run Unit := do
  if targets.any (·.tupleParts?.isSome) then
    targets.forM fun target => do assignWhole ev f target (← ev.expression f value)
  else
    let o ← ev.expression f value
    targets.forM fun target => assignTo ev f target o

/-! ## Errors -/

/-- The error that raising an object raises. -/
def errorOf (ev : Evaluator) (o : Object) (refusal : String) : Run Object := do
  if ← o.isErrorKind then ev.apply o []
  else if ← o.isError then pure o
  else Run.raiseType refusal

/-- Raises an error, the one being handled if none is named. -/
def raise (ev : Evaluator) (f : Frame) (error cause : Option Expr) : Run Flow := do
  match error with
  | none =>
    match (← get).handled with
    | o :: _ => throw (.raised o)
    | [] => Run.raiseFault ⟨.named "RuntimeError", "No active exception to reraise"⟩
  | some e =>
    let o ← ev.expression f e
    let reason ←
      match cause with
      | some c => ev.expression f c
      | none => pure .nothing
    let raised ← ev.errorOf o "exceptions must derive from BaseException"
    if reason != .nothing then
      let _ ← ev.errorOf reason "exception causes must derive from BaseException"
    throw (.raised raised)

/-- Stops at an object by which errors cannot be told apart. -/
def ensureErrorKinds (kinds : List Object) : Run Unit :=
  kinds.forM fun k => do
    if !(← k.isErrorKind) then
      Run.raiseType "catching classes that do not inherit from BaseException is not allowed"

/-- Whether a handler is for an error. -/
def handles (ev : Evaluator) (f : Frame) (error : Object) : Option Expr → Run Bool
  | none => pure true
  | some e => do
    let kinds ←
      match ← ev.expression f e with
      | .tuple many _ => pure many
      | one => pure [one]
    ensureErrorKinds kinds
    kinds.anyM fun k => error.isOf k

/-- Runs the body of a handler, during which its error is known. -/
def handleWith (ev : Evaluator) (f : Frame) (error : Object) (name : Option String)
    (body : List Stmt) : Run Flow := do
  name.forM fun id => f.bind id error
  let before := (← get).handled
  modify fun m => { m with handled := error :: before }
  let outcome ← Run.outcome (ev.block f body)
  modify fun m => { m with handled := before }
  name.forM fun id => f.unbind id
  match outcome with
  | .ok flow => pure flow
  | .error e => throw (.raised e)

/-- Hands an error to the first handler for it. -/
def handle (ev : Evaluator) (f : Frame) (error : Object) : List Handler → Run Flow
  | [] => throw (.raised error)
  | .mk _ kind name body :: rest => do
    if ← ev.handles f error kind then ev.handleWith f error name body
    else handle ev f error rest

/-- Tries a block.  The final block runs in any case and has the last word if it ends early. -/
def attempt (ev : Evaluator) (f : Frame) (body : List Stmt) (handlers : List Handler)
    (otherwise final : List Stmt) : Run Flow := do
  let handled : Run Flow := do
    match ← Run.outcome (ev.block f body) with
    | .ok .onward => ev.block f otherwise
    | .ok flow => pure flow
    | .error e => ev.handle f e handlers
  let outcome ← Run.outcome handled
  match ← ev.block f final, outcome with
  | .onward, .ok flow => pure flow
  | .onward, .error e => throw (.raised e)
  | flow, _ => pure flow

/-! ## Loops -/

/-- How a loop goes on after its body: to the next round, or to its end. -/
def afterBody : Flow → Option Flow
  | .onward => none
  | .continueLoop => none
  | .breakLoop => some .onward
  | .giveBack o => some (.giveBack o)

def whileLoop (ev : Evaluator) (f : Frame) (test : Expr) (body otherwise : List Stmt) : Run Flow :=
  Run.untilSome (do
    if ← (← ev.expression f test).isTrue then do pure (afterBody (← ev.block f body))
    else do pure (some (← ev.block f otherwise))) Run.loopLimit

def forLoop (ev : Evaluator) (f : Frame) (target source : Expr) (body otherwise : List Stmt) :
    Run Flow := do
  let a ← (← ev.expression f source).iterator
  Run.untilSome (do
    match ← ev.advance a with
    | none => do pure (some (← ev.block f otherwise))
    | some o =>
      assignWhole ev f target o
      pure (afterBody (← ev.block f body))) Run.loopLimit

/-! ## Definitions -/

/-- Passes a function or a class through its decorators, the nearest first. -/
def decorate (ev : Evaluator) (decorators : List Object) (o : Object) : Run Object :=
  decorators.reverse.foldlM (fun o d => ev.apply d [o]) o

/-- Stops at an object that no class can be based on. -/
def ensureBase (o : Object) : Run Unit := do
  match o with
  | .standIn name => Run.deny name
  | .kind k =>
    if [.bool, .range, .slice].contains k then
      Run.raiseType ("type '" ++ k.name ++ "' is not an acceptable base type")
  | o =>
    if !(← o.isKind) then
      Run.raiseType ("metaclass conflict: the metaclass of a derived class must be a (non-strict) "
        ++ "subclass of the metaclasses of all its bases")

/-- Makes a class out of a block: the names that the block binds are its members. -/
def classOf (ev : Evaluator) (f : Frame) (name : String) (bases : List Object)
    (keywords : List (String × Object)) (body : List Stmt) : Run Object := do
  bases.forM ensureBase
  let path := f.path ++ name
  let scope : Scope := ⟨.kind, boundBy body, handedOverBy body, [], none, some f.scope⟩
  match ← Run.allocate (.scope scope) with
  | .cell a =>
    let _ ← ev.block ⟨a, path ++ "."⟩ body
    if !keywords.isEmpty then
      Run.raiseType (name ++ ".__init_subclass__() takes no keyword arguments")
    Run.allocate (.custom ⟨name, path, bases, (← Run.scopeAt a).bindings⟩)
  | o => pure o

/-! ## Statements -/

/-- Executes a statement. -/
def execute (ev : Evaluator) (f : Frame) (s : Stmt) : Run Flow := do
  match s with
  | .expr e =>
    let _ ← ev.expression f e
    pure .onward
  | .assign targets value =>
    ev.assign f targets value
    pure .onward
  | .update _ op target value =>
    let before ← ev.expression f target
    assignTo ev f target (← assignWith ev op before (← ev.expression f value))
    pure .onward
  | .delete targets =>
    deleteTargets ev f targets
    pure .onward
  | .pass => pure .onward
  | .breakLoop _ => pure .breakLoop
  | .continueLoop _ => pure .continueLoop
  | .giveBack _ (some e) => do pure (.giveBack (← ev.expression f e))
  | .giveBack _ none => pure (.giveBack .nothing)
  | .raise error cause => ev.raise f error cause
  | .check test message =>
    if ← (← ev.expression f test).isTrue then pure .onward
    else
      let arguments ← ev.values f message.toList
      Run.raiseError "AssertionError" arguments none
  | .branch test body otherwise =>
    if ← (← ev.expression f test).isTrue then ev.block f body else ev.block f otherwise
  | .whileLoop test body otherwise => ev.whileLoop f test body otherwise
  | .forLoop target source body otherwise => ev.forLoop f target source body otherwise
  | .attempt body handlers otherwise final => ev.attempt f body handlers otherwise final
  | .define _ name parameters body decorators =>
    let wrappers ← ev.values f decorators
    let o ← ev.function f name parameters (.block body)
    f.bind name (← ev.decorate wrappers o)
    pure .onward
  | .defineClass _ name bases keywords body decorators =>
    let wrappers ← ev.values f decorators
    let parents ← ev.values f bases
    let o ← ev.classOf f name parents (← ev.given f [] keywords).named body
    f.bind name (← ev.decorate wrappers o)
    pure .onward
  | .importNames _ _ => Run.deny "__import__"
  | .globalNames _ => pure .onward

/-- Executes statements one after the other, as long as none of them ends the block. -/
def run (ev : Evaluator) (f : Frame) : List Stmt → Run Flow
  | [] => pure .onward
  | s :: rest => do
    match ← ev.execute f s with
    | .onward => run ev f rest
    | flow => pure flow

/-- The kind of the errors that say that an iterator is at its end. -/
def ending : Kind := .error "StopIteration"

/-- The next object of an iterator.  One that is no comprehension is at its end too where what it
calls says so. -/
def next (ev : Evaluator) (a : Address) : Run (Option Object) := do
  match ← Run.read a with
  | .iterator (.generator g) =>
    if g.handedOn then
      (Generator.next ev a).unlessRaised ending
        (Run.raiseFault ⟨.named "RuntimeError", "generator raised StopIteration"⟩)
    else Generator.next ev a
  | .iterator i => (i.next ev a).unlessRaised ending (pure none)
  | _ => pure none

/-- One level of evaluation above another one. -/
def above (ev : Evaluator) : Evaluator where
  expression := ev.evaluate
  block := ev.run
  call := Object.call ev
  advance := ev.next

/-- An evaluator for scripts of a depth. -/
def ofDepth : Nat → Evaluator
  | 0 => exhausted
  | n + 1 => (ofDepth n).above

end Evaluator

end ModelPlaybook.Script
