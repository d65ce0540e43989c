import ModelPlaybook.Sandbox.Worker
import ModelPlaybook.Script.Execution
import ModelPlaybook.Script.Grammar.Statement
import ModelPlaybook.Script.Placement
import ModelPlaybook.Script.Policy

/-!
# Trying model logic

Model logic is read, checked and executed, and the entry point that it registers, or else its
function `compute`, is called with the frozen inputs.
-/

namespace ModelPlaybook.Script

/-- How deep a script may nest what it evaluates. -/
def evaluationDepth : Nat := 6000

def evaluator : Evaluator :=
  .ofDepth evaluationDepth

/-- The name of the function that serves as an entry point if none is registered. -/
def entryName : String := "compute"

/-- A script at its start.  Objects are numbered from a number on. -/
def initialMachine (next : Nat) : Machine where
  cells := #[.scope ⟨.script, [], [], Namespace.atStart, some "", none⟩]
  log := []
  registered := []
  handled := []
  next := next

def scriptFrame : Frame := ⟨Run.scriptScope, ""⟩

/-! ## Reading -/

/-- The description of a script that cannot be read. -/
def Malformed.description (m : Malformed) : String :=
  "SyntaxError: ('Line " ++ toString m.line ++ ": SyntaxError: invalid syntax',)"

/-- The description of a script that breaks the policy. -/
def describeComplaints (cs : List Complaint) : String :=
  "SyntaxError: " ++ (Value.tuple (cs.map fun c => .text c.text)).shown

/-- Reads and checks a script. -/
def readScript (text : String) : Except String (List Stmt) :=
  match parse text with
  | .error m => .error m.description
  | .ok script =>
    match complaints script, misplaced? script with
    | [], none => .ok script
    | [], some m => .error ("SyntaxError: " ++ m.text)
    | cs, _ => .error (describeComplaints cs)

/-! ## Errors that reach the worker -/

/-- The text of an error, or a note in its place. -/
def noted (error : Object) : Run String := do
  match ← Run.outcome error.plainText with
  | .ok s => pure s
  | .error _ => pure "<unprintable error>"

/-- The description of an error: its kind, and its text if it has one. -/
def describe (error : Object) : Run String := do
  let name ← error.typeName
  let text ← noted error
  pure (if text = "" then name else name ++ ": " ++ text)

/-- The exit code of a process that an error ends. -/
def exitCodeOf (error : Object) : Run Int := do
  if ← error.isOf (.kind (.error "SystemExit")) then
    match error with
    | .cell a =>
      match ← Run.read a with
      | .error _ [] .. => pure 0
      | .error _ [.nothing] .. => pure 0
      | .error _ [o] .. => pure (o.index?.getD 1)
      | _ => pure 1
    | _ => pure 1
  else pure 1

/-- How a computation ends. -/
inductive Ending (α : Type) where
  | done (a : α)
  | raised (description : String)
  | exited (code : Int)
  | exhausted

/-- Follows a computation to its end.  Errors of some kinds end the process. -/
def conclude {α : Type} (r : Run α) (m : Machine) : Ending α × Machine :=
  let followed : Run (Ending α) := do
    match ← Run.outcome r with
    | .ok a => pure (.done a)
    | .error e =>
      if ← e.isOf (.kind (.error "Exception")) then do pure (.raised (← describe e))
      else do pure (.exited (← exitCodeOf e))
  match followed m with
  | .ok ending m => (ending, m)
  | .error _ m => (.exhausted, m)

/-! ## Entry points -/

/-- Executes a script and finds its entry point: the one registered last, or the function of the
default name. -/
def entryPoint? (script : List Stmt) : Run (Option Object) := do
  let _ ← evaluator.block scriptFrame script
  match (← get).registered with
  | o :: _ => pure (some o)
  | [] =>
    match (← Run.scopeAt Run.scriptScope).get? entryName with
    | some o => pure (if ← o.isCallable then some o else none)
    | none => pure none

/-! ## What entry points give -/

/-- A computation, or the ordinary error with which it stops. -/
def attempt {α : Type} (r : Run α) : Run (Except Fault α) := do
  match ← Run.outcome r with
  | .ok a => pure (.ok a)
  | .error e =>
    if ← e.isOf (.kind (.error "Exception")) then do
      pure (.error ⟨.ofName (← e.typeName), ← noted e⟩)
    else throw (.raised e)

/-- Parts that have been gathered, and the fault with which they break off.  They are sound if
nothing about them stops a conversion. -/
structure Gathered (α : Type) where
  parts : α
  break? : Option Fault
  sound : Bool

/-- Gathers parts one by one, up to the first that stops a conversion: what lies behind it is never
asked for. -/
def gather {α β : Type} (next : Run (Option β)) (take : α → β → Run (α × Bool)) :
    Nat → α → Run (Gathered α)
  | 0, _ => throw .exhausted
  | n + 1, parts => do
    match ← attempt next with
    | .error f => pure ⟨parts, some f, false⟩
    | .ok none => pure ⟨parts, none, true⟩
    | .ok (some part) =>
      let (parts, sound) ← take parts part
      if sound then gather next take n parts else pure ⟨parts, none, false⟩

/-- The entry that an item of a mapping is. -/
def entryOf (item : Object) : Run (Object × Object) := do
  match ← exactly 2 (← evaluator.unpacked item) with
  | [k, v] => pure (k, v)
  | _ => pure (item, .nothing)

/-- Where the items of a mapping come from: a custom kind can say what they are. -/
def itemSource (o : Object) : Run Address := do
  let custom ←
    match ← o.madeBy? with
    | some maker => Object.member? "items" kindDepth maker
    | none => pure none
  match custom with
  | some member => do (← evaluator.apply (← o.boundTo member) []).iterator
  | none => (Object.view .items o).iterator

/-- Puts something under a key, in the place of what is there already. -/
def putUnder (key : Value) (c : Cargo) (entries : List (Value × Cargo)) : List (Value × Cargo) :=
  if entries.any (·.1 = key) then
    entries.map fun entry => if entry.1 = key then (key, c) else entry
  else entries ++ [(key, c)]

/-- What the conversion of an object meets, and whether it is sound. -/
def cargo : Nat → Object → Run (Cargo × Bool)
  | 0, _ => throw .exhausted
  | fuel + 1, o => do
    let typeName ← o.typeName
    match o with
    | .scalar s _ => pure (.scalar s, true)
    | .tuple _ _ => itemsOf fuel typeName o
    | .frozenMap _ => entriesOf fuel typeName o
    | .cell a =>
      match ← Run.read a with
      | .list _ => itemsOf fuel typeName o
      | .dict _ => entriesOf fuel typeName o
      | .made _ (some _) => entriesOf fuel typeName o
      | _ => pure (.other typeName, false)
    | _ => pure (.other typeName, false)
where
  itemsOf (fuel : Nat) (typeName : String) (o : Object) : Run (Cargo × Bool) := do
    let source ← o.iterator
    let take (items : List Cargo) (item : Object) : Run (List Cargo × Bool) := do
      let (c, sound) ← cargo fuel item
      pure (c :: items, sound)
    let gathered ← gather (evaluator.advance source) take Run.loopLimit []
    pure (.sequence typeName gathered.parts.reverse gathered.break?, gathered.sound)
  entriesOf (fuel : Nat) (typeName : String) (o : Object) : Run (Cargo × Bool) := do
    match ← attempt (itemSource o) with
    | .error f => pure (.mapping typeName [] (some f), false)
    | .ok source =>
      let take (entries : List (Value × Cargo)) (entry : Object × Object) :
          Run (List (Value × Cargo) × Bool) := do
        let key ← entry.1.toValue compareDepth
        match key.text? with
        | some _ =>
          let (c, sound) ← cargo fuel entry.2
          pure (putUnder key c entries, sound)
        -- nothing is asked of what stands under such a key
        | none => pure (entries ++ [(key, .scalar .none)], false)
      let next : Run (Option (Object × Object)) := do
        (← evaluator.advance source).mapM entryOf
      let gathered ← gather next take Run.loopLimit []
      pure (.mapping typeName gathered.parts gathered.break?, gathered.sound)

/-- What an entry point gives.  Something that is no mapping is not looked into. -/
def given (o : Object) : Run Cargo := do
  if (← o.entries?).isSome then pure (← cargo compareDepth o).1
  else pure (.other (← o.typeName))

/-- What the entry point does with inputs. -/
def invoke (entry : Object) (inputs : Value) (m : Machine) : Sandbox.Invocation × Machine :=
  let called : Run Object := do evaluator.apply entry [← ofValue inputs.freeze]
  match conclude called m with
  | (.raised description, m) => (.raises description, m)
  | (.exited code, m) => (.exits code, m)
  | (.exhausted, m) => (.hangs, m)
  | (.done o, m) =>
    match conclude (given o) m with
    | (.done c, m) => (.gives c, m)
    | (.raised description, m) => (.raises description, m)
    | (.exited code, m) => (.exits code, m)
    | (.exhausted, m) => (.hangs, m)

/-- What trying model logic shows: what it does, and the messages that it logs. -/
structure Trial where
  behaviour : Sandbox.Behaviour
  log : List String

/-- Tries model logic on inputs. -/
def tryOn (text : String) (inputs : Value) : Trial :=
  let ended (loading : Sandbox.Loading) (m : Machine) : Trial :=
    ⟨⟨loading, .hangs⟩, m.log.reverse⟩
  let start := initialMachine (unusedNumber inputs)
  match readScript text with
  | .error description => ended (.raises description) start
  | .ok script =>
    match conclude (entryPoint? script) start with
    | (.raised description, m) => ended (.raises description) m
    | (.exited code, m) => ended (.exits code) m
    | (.exhausted, m) => ended .hangs m
    | (.done none, m) => ended .registersNothing m
    | (.done (some entry), m) =>
      let (invocation, m) := invoke entry inputs m
      ⟨⟨.registers, invocation⟩, m.log.reverse⟩

end ModelPlaybook.Script
