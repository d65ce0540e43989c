import ModelPlaybook.Script.Call
import ModelPlaybook.Script.Comprehension

/-!
# Evaluating expressions
-/

namespace ModelPlaybook.Script

namespace Evaluator

/-- The items that a starred object gives. -/
def starred (ev : Evaluator) (o : Object) : Run (List Object) := do
  match o with
  | .standIn name => Run.deny name
  | o =>
    let source ← tryCatch o.iterator fun _ => do
      Run.raiseType ("Value after * must be an iterable, not " ++ (← o.familyName))
    ev.drain source

/-- Evaluates expressions from left to right; a starred one gives all its items. -/
def values (ev : Evaluator) (f : Frame) : List Expr → Run (List Object)
  | [] => pure []
  | .starred e :: rest => do
    let items ← ev.starred (← ev.expression f e)
    pure (items ++ (← values ev f rest))
  | e :: rest => do
    let o ← ev.expression f e
    pure (o :: (← values ev f rest))

/-- How messages name the function through which calls go that spread an object over arguments. -/
def spreading : String := "finlogic.sandbox.policy._apply()"

/-- The entries of a mapping as named arguments. -/
def spreadEntries (o : Object) : Run (List (Object × Object)) := do
  match o, ← o.entries? with
  | _, some entries => pure entries
  | .standIn name, none => Run.deny name
  | o, none =>
    Run.raiseType (spreading ++ " argument after ** must be a mapping, not " ++ (← o.familyName))

/-- Arguments with names that are told apart, followed by others. -/
def joinNamed (given more : Pairs) : Run Pairs := do
  let isGiven (name : Object) : Bool := given.any (·.1 == name)
  match more.find? fun entry => isGiven entry.1 with
  | some (name, _) =>
    Run.raiseType (spreading ++ " got multiple values for keyword argument '" ++
      (← name.plainText) ++ "'")
  | none => pure (given ++ more)

/-- The named arguments of a call; the entries of a mapping can be among them.  Those with a name in
the call are joined to the ones before them when a mapping or the end of the call comes. -/
def namedValues (ev : Evaluator) (f : Frame) (given waiting : Pairs) :
    List Keyword → Run Pairs
  | [] => joinNamed given waiting
  | .mk (some name) e :: rest => do
    let o ← ev.expression f e
    namedValues ev f given (waiting ++ [(.text name, o)]) rest
  | .mk none e :: rest => do
    let joined ← joinNamed given waiting
    let entries ← spreadEntries (← ev.expression f e)
    namedValues ev f (← joinNamed joined entries) [] rest

/-- The arguments of a call. -/
def given (ev : Evaluator) (f : Frame) (arguments : List Expr) (keywords : List Keyword) :
    Run Given := do
  let positional ← ev.values f arguments
  let pairs ← ev.namedValues f [] [] keywords
  let named ← pairs.mapM fun (name, o) => do
    match name with
    | .scalar (.text name) _ => pure (name, o)
    | _ => Run.raiseType "keywords must be strings"
  if isSpread && named.any (·.1 == "func") then
    Run.raiseType "_apply() got multiple values for argument 'func'"
  pure ⟨positional, named⟩
where
  /-- Whether an object is spread over arguments. -/
  isSpread : Bool :=
    (arguments.any fun | .starred _ => true | _ => false) ||
      keywords.any fun | .mk name _ => name.isNone

/-- Fills a displayed mapping. -/
def entries (ev : Evaluator) (f : Frame) (filled : Pairs) : List Entry → Run Pairs
  | [] => pure filled
  | .mk (some key) value :: rest => do
    let k ← ev.expression f key
    let v ← ev.expression f value
    entries ev f (← filled.put k v) rest
  | .mk none value :: rest => do
    let o ← ev.expression f value
    match o, ← o.entries? with
    | _, some more => entries ev f (← filled.putAll more) rest
    | .standIn name, none => Run.deny name
    | _, none => Run.raiseType ("'" ++ (← o.familyName) ++ "' object is not a mapping")

/-- Follows a chain of comparisons up to the first one that fails. -/
def chain (ev : Evaluator) (f : Frame) (left : Object) : List Link → Run Object
  | [] => pure (.bool true)
  | .mk t right :: rest => do
    let o ← ev.expression f right
    let verdict ← t.run ev left o
    if rest.isEmpty || !verdict then pure (.bool verdict) else chain ev f o rest

/-- The last operand that is evaluated when the first one with a verdict decides. -/
def firstWith (ev : Evaluator) (f : Frame) (verdict : Bool) : List Expr → Run Object
  | [] => pure (.bool verdict)
  | [e] => ev.expression f e
  | e :: rest => do
    let o ← ev.expression f e
    if (← o.isTrue) = verdict then pure o else firstWith ev f verdict rest

/-- An optional part of a slice. -/
def bound (ev : Evaluator) (f : Frame) : Option Expr → Run Object
  | some e => ev.expression f e
  | none => pure .nothing

/-- The defaults of the parameters that can only be given by name. -/
def namedDefaults (ev : Evaluator) (f : Frame) (named : List Named) :
    Run (List (String × Object)) := do
  let found ← named.mapM fun (.mk name default) => do
    match default with
    | some e => do pure (some (name, ← ev.expression f e))
    | none => pure none
  pure (found.filterMap id)

/-- Makes a function. -/
def function (ev : Evaluator) (f : Frame) (name : String) (parameters : Parameters) (body : Body) :
    Run Object := do
  let defaults ← ev.values f parameters.defaults
  let named ← ev.namedDefaults f parameters.named
  Run.allocate (.closure
    ⟨name, f.path ++ name, parameters, defaults, named, body, f.scope⟩)

/-- Evaluates an expression. -/
def evaluate (ev : Evaluator) (f : Frame) (e : Expr) : Run Object := do
  match e with
  | .constant s => pure (Object.scalar s).asWritten
  | .bytes content => pure (Object.bytes content).asWritten
  | .ellipsis => pure .ellipsis
  | .name _ id => f.lookup id
  | .attribute _ object id => do (← ev.expression f object).getAttribute Library.member? id
  | .item object index =>
    let container ← ev.expression f object
    container.item (← ev.expression f index)
  | .slice start stop step =>
    let first ← ev.bound f start
    let last ← ev.bound f stop
    pure (.slice first last (← ev.bound f step))
  | .call _ callee arguments keywords =>
    let o ← ev.expression f callee
    ev.call o (← ev.given f arguments keywords)
  | .unary op operand =>
    let o ← op.run (← ev.expression f operand)
    pure (if operand.isConstant then o.asWritten else o)
  | .binary op left right =>
    let x ← ev.expression f left
    let o ← Object.combine ⟨op, false⟩ ev x (← ev.expression f right)
    pure (if left.isConstant && right.isConstant then o.asWritten else o)
  | .compare first rest => do ev.chain f (← ev.expression f first) rest
  | .all operands => ev.firstWith f false operands
  | .any operands => ev.firstWith f true operands
  | .choice test whenTrue whenFalse =>
    if ← (← ev.expression f test).isTrue then ev.expression f whenTrue
    else ev.expression f whenFalse
  | .function _ parameters body => ev.function f "<lambda>" parameters (.value body)
  | .list items => do Run.newList (← ev.values f items)
  | .tuple items =>
    let o := Object.tuple (← ev.values f items)
    if items.all (·.isConstant) then pure o.asWritten else Run.anew o
  | .set items => do Run.newSet (← distinct (← ev.values f items))
  | .starred operand => ev.expression f operand
  | .dict shown => do Run.newDict (← ev.entries f [] shown)
  | .comprehension filled element clauses => ev.comprehension f filled element clauses
  | .dictComprehension key value clauses => ev.dictComprehension f key value clauses

end Evaluator

end ModelPlaybook.Script
