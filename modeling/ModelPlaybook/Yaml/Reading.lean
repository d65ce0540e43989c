import ModelPlaybook.Value.Operation
import ModelPlaybook.Yaml.Node
import ModelPlaybook.Yaml.Scan

/-!
# Values of YAML texts

A document stands for a value.  Where several parts of it cannot be read, the failure that lies
least deep counts, and of equally deep ones the first.  The entries that a mapping merges come
before its own, so that its own win.
-/

namespace ModelPlaybook.Yaml

/-- A part of a value, or the failure that stands for all failures in it and how deep it lies. -/
abbrev Built (α : Type) := Except (Nat × Failure) α

namespace Built

variable {α β : Type}

def placed (depth : Nat) (r : Result α) : Built α :=
  r.mapError fun f => (depth, f)

/-- Two parts. -/
def both (a : Built α) (b : Built β) : Built (α × β) :=
  match a, b with
  | .ok a, .ok b => .ok (a, b)
  | .error e, .ok _ => .error e
  | .ok _, .error e => .error e
  | .error (m, e), .error (n, f) => if m ≤ n then .error (m, e) else .error (n, f)

def all : List (Built α) → Built (List α)
  | [] => .ok []
  | a :: rest => (a.both (all rest)).map fun (x, xs) => x :: xs

end Built

/-- The value of a scalar. -/
def Content.read (tag : Tag) (s : String) : Result Value :=
  match tag with
  | .null => .ok .none
  | .bool => do pure (.bool (← bool s))
  | .int => do pure (.int (← int s))
  | .float => do pure (.float (← float s))
  | .text => .ok (.text s)
  | .timestamp => do pure (.scalar (← timestamp s))
  | .binary => do pure (.bytes (← bytes s))
  | .merge => refuse (.unknownTag (Tag.commonPrefix ++ "merge"))
  | .standard => refuse (.unknownTag (Tag.commonPrefix ++ "value"))
  | .unknown name => refuse (.unknownTag name)
  | .sequence => refuse .notSequence
  | .mapping => refuse .notMapping
  | .set => refuse .notMapping
  | .pairs => refuse .notSequence

namespace Node

/-- Whether a tag asks for a scalar. -/
def wantsScalar (tag : Tag) : Bool :=
  match tag with
  | .sequence => false
  | .mapping => false
  | .set => false
  | .pairs => false
  | _ => true

mutual

/-- The text of a scalar; a mapping stands for its main value. -/
def mainText? : Node → Option String
  | scalar _ s => some s
  | mapping _ entries => mainTextOf? entries
  | _ => none
termination_by structural node => node

def mainTextOf? : List (Node × Node) → Option String
  | [] => none
  | (key, v) :: rest => if key.tag = .standard then mainText? v else mainTextOf? rest
termination_by structural entries => entries

end

/-- Whether a value can be a key. -/
def canBeKey : Value → Bool
  | .list _ => false
  | .map _ => false
  | .set _ => false
  | _ => true

/-- The value of a node that has a tag for scalars but is none. -/
def ofMainText (depth : Nat) (tag : Tag) (text : Option String) : Built Value :=
  match tag with
  | .merge => .placed depth (Content.read .merge "")
  | .standard => .placed depth (Content.read .standard "")
  | .unknown name => .placed depth (refuse (.unknownTag name))
  | tag =>
    match text with
    | some s => .placed depth (Content.read tag s)
    | none => .placed depth (refuse .notScalar)

/-- The entry of a key and a value. -/
def entry (depth : Nat) (key value : Built Value) : Built (Value × Value) :=
  match key with
  | .error e => if e.1 ≤ depth then .error e else .placed depth (refuse .unhashableKey)
  | .ok k => if canBeKey k then Built.both (.ok k) value else .placed depth (refuse .unhashableKey)

mutual

/-- The value of a node that lies at a given depth.  The mark of a mapping's main value is plain
text where it stands as a key. -/
def build (depth : Nat) (isKey : Bool) : Node → Built Value
  | scalar tag s =>
    if isKey && tag = .standard then .ok (.text s)
    else if wantsScalar tag then .placed depth (Content.read tag s)
    else .placed (depth + 1) (Content.read tag s)
  | sequence tag items =>
    match tag with
    | .sequence => (Built.all (buildItems (depth + 1) items)).map .list
    | .pairs => (Built.all (buildPairs (depth + 1) items)).map .list
    | .mapping => .placed (depth + 1) (refuse .notMapping)
    | .set => .placed (depth + 1) (refuse .notMapping)
    | tag => ofMainText depth tag none
  | mapping tag entries =>
    let content : Built Entries :=
      match buildEntries (depth + 1) entries with
      | .error f => .placed (depth + 1) (.error f)
      | .ok (merged, own) => (Built.all (merged ++ own)).map Entries.ofPairs
    match tag with
    | .mapping => content.map .map
    | .set => content.map fun entries => .set (entries.map (·.1))
    | .sequence => .placed (depth + 1) (refuse .notSequence)
    | .pairs => .placed (depth + 1) (refuse .notSequence)
    | tag => ofMainText depth tag (mainTextOf? entries)
  | enclosing _ _ => .placed depth (refuse .tooDeep)
termination_by structural node => node

def buildItems (depth : Nat) : List Node → List (Built Value)
  | [] => []
  | item :: rest => build depth false item :: buildItems depth rest
termination_by structural items => items

/-- The entries of a mapping: those it merges, and its own. -/
def buildEntries (depth : Nat) :
    List (Node × Node) → Result (List (Built (Value × Value)) × List (Built (Value × Value)))
  | [] => .ok ([], [])
  | (key, v) :: rest =>
    if key.tag = .merge then
      match mergedEntries depth v with
      | .error f => .error f
      | .ok merged => do
        let (more, own) ← buildEntries depth rest
        pure (merged ++ more, own)
    else
      let first := entry depth (build depth true key) (build depth false v)
      match buildEntries depth rest with
      | .error f => .error f
      | .ok (merged, own) => .ok (merged, first :: own)
termination_by structural entries => entries

/-- The entries that one node adds to a mapping that merges it.  Of several mappings the first one
wins, so it comes last. -/
def mergedEntries (depth : Nat) : Node → Result (List (Built (Value × Value)))
  | mapping _ entries => do
    let (merged, own) ← buildEntries depth entries
    pure (merged ++ own)
  | sequence _ items => do
    let parts ← mergedItems depth items
    pure parts.reverse.flatten
  | _ => refuse .notMergeable
termination_by structural node => node

def mergedItems (depth : Nat) : List Node → Result (List (List (Built (Value × Value))))
  | [] => .ok []
  | item :: rest =>
    match item with
    | mapping _ entries => do
      let (merged, own) ← buildEntries depth entries
      pure ((merged ++ own) :: (← mergedItems depth rest))
    | _ => refuse .notMergeable
termination_by structural items => items

/-- The items of a sequence of single entries. -/
def buildPairs (depth : Nat) : List Node → List (Built Value)
  | [] => []
  | item :: rest =>
    let first : Built Value :=
      match item with
      | mapping _ [(key, v)] =>
        (Built.both (build depth false key) (build depth false v)).map fun (k, v) => .tuple [k, v]
      | _ => .placed depth (refuse .notSingleEntry)
    first :: buildPairs depth rest
termination_by structural items => items

end

end Node

/-- The value that a source holds; one without a document holds nothing.  A collection that holds
itself has no value of its own: it is cut off where it is nested `Node.unrolledDepth` times. -/
def Source.read (source : Source) : Result Value := do
  let (tokens, failure) := source.tokens
  match ← Node.ofTokens tokens failure with
  | none => pure .none
  | some root => (root.build 0 false).mapError (·.2)

/-- The value that a text holds. -/
def read (text : String) : Result Value :=
  (Source.ofText text).read

/-- The value that a file holds. -/
def readFile (content : List UInt8) : Result Value :=
  (Source.ofFile content).read

end ModelPlaybook.Yaml
