import ModelPlaybook.Yaml.Scalar.Content
import ModelPlaybook.Yaml.Token

/-!
# YAML nodes

A document is a tree of nodes: scalars, sequences and mappings, each with a tag.  An alias stands
for the node that its anchor marks, so that the tree holds that node once more.  A collection may
hold an alias of itself; such a collection has no end, and the tree holds it to a fixed depth only.
-/

namespace ModelPlaybook.Yaml

inductive Node where
  | scalar (tag : Tag) (text : String)
  | sequence (tag : Tag) (items : List Node)
  | mapping (tag : Tag) (entries : List (Node × Node))
  /-- An alias of a collection inside itself. -/
  | enclosing (anchor : String) (tag : Tag)
deriving Repr

namespace Node

def tag : Node → Tag
  | scalar tag _ => tag
  | sequence tag _ => tag
  | mapping tag _ => tag
  | enclosing _ tag => tag

/-- What stands where nothing is written. -/
def empty : Node :=
  .scalar .null ""

mutual

/-- A node with another one in place of an anchor. -/
def fill (anchor : String) (inner : Node) : Node → Node
  | scalar tag s => scalar tag s
  | sequence tag items => sequence tag (fillItems anchor inner items)
  | mapping tag entries => mapping tag (fillEntries anchor inner entries)
  | enclosing name tag => if name = anchor then inner else enclosing name tag
termination_by structural node => node

def fillItems (anchor : String) (inner : Node) : List Node → List Node
  | [] => []
  | item :: rest => fill anchor inner item :: fillItems anchor inner rest
termination_by structural items => items

def fillEntries (anchor : String) (inner : Node) : List (Node × Node) → List (Node × Node)
  | [] => []
  | (key, v) :: rest =>
    (fill anchor inner key, fill anchor inner v) :: fillEntries anchor inner rest
termination_by structural entries => entries

end

/-- A collection without its content. -/
def emptied : Node → Node
  | sequence tag _ => sequence tag []
  | mapping tag _ => mapping tag []
  | node => node

/-- A collection that holds itself, written out so many times inside itself. -/
def unroll (anchor : String) (node : Node) : Nat → Node
  | 0 => node.emptied
  | n + 1 => fill anchor (unroll anchor node n) node

/-- How deep a collection is written out that holds itself. -/
def unrolledDepth : Nat := 3

end Node

/-- Where a node stands, which decides how it may be written. -/
inductive Place where
  | flow
  | block
  /-- The key or the value of a block mapping: the items of a sequence need not be indented. -/
  | entry
deriving DecidableEq, Repr

/-- What is left to read of the tokens, and what has been declared so far. -/
structure Composer where
  rest : List Token
  failure : Failure
  handles : List (String × String)
  /-- The nodes that anchors mark.  While a collection is read, an alias of it stands there. -/
  anchors : List (String × Node)
  /-- The anchors of collections that hold themselves. -/
  endless : List String

abbrev Composing := StateT Composer Result

namespace Composing

def fail {α : Type} (problem : Problem) : Composing α :=
  throw (.malformed problem)

def peek : Composing Token := do
  let s ← get
  match s.rest with
  | t :: _ => pure t
  | [] => throw s.failure

def skip : Composing Unit :=
  modify fun s => { s with rest := s.rest.tail }

/-- Moves over a token if it is the next one. -/
def accept (t : Token) : Composing Bool := do
  if (← peek) = t then
    skip
    pure true
  else pure false

def isNext (ts : List Token) : Composing Bool := do
  pure (ts.contains (← peek))

/-! ## Anchors and tags -/

/-- The whole name of a tag. -/
def tagName (t : TagText) : Composing String := do
  match t with
  | .whole name => pure name
  | .short handle suffix =>
    match (← get).handles.lookup handle with
    | some expansion => pure (expansion ++ suffix)
    | none => fail (.undefinedHandle handle)

def anchor? : Composing (Option String) := do
  match ← peek with
  | .anchor name =>
    skip
    pure (some name)
  | _ => pure none

def tag? : Composing (Option TagText) := do
  match ← peek with
  | .tag t =>
    skip
    pure (some t)
  | _ => pure none

/-- Reads an anchor and a tag, in either order.  The name of the tag is asked for behind both. -/
def properties : Composing (Option String × Option String) := do
  let (anchor, tag) ←
    match ← anchor? with
    | some anchor => pure (some anchor, ← tag?)
    | none =>
      match ← tag? with
      | some tag => pure (← anchor?, some tag)
      | none => pure (none, none)
  pure (anchor, ← tag.mapM tagName)

/-- The node that an alias stands for. -/
def resolve (name : String) : Composing Node := do
  match (← get).anchors.lookup name with
  | some (.enclosing name tag) =>
    modify fun s => { s with endless := name :: s.endless }
    pure (.enclosing name tag)
  | some node => pure node
  | none => fail (.undefinedAlias name)

/-- Notes that the node of an anchor, which has a tag, comes next. -/
def declare (anchor : Option String) (tag : Tag) : Composing Unit := do
  match anchor with
  | none => pure ()
  | some name =>
    if ((← get).anchors.lookup name).isSome then fail (.repeatedAnchor name)
    else modify fun s => { s with anchors := (name, .enclosing name tag) :: s.anchors }

/-- Notes the node of an anchor. -/
def complete (anchor : Option String) (node : Node) : Composing Node := do
  match anchor with
  | none => pure node
  | some name =>
    if (← get).endless.contains name then
      let whole := node.unroll name Node.unrolledDepth
      modify fun s => { s with
        anchors := (name, whole) :: s.anchors.map fun (n, m) => (n, .fill name whole m) }
      pure whole
    else
      modify fun s => { s with anchors := (name, node) :: s.anchors }
      pure node

/-- The tag of a collection; an exclamation mark alone stands for the usual one. -/
def collectionTag (usual : Tag) (name : Option String) : Tag :=
  match name with
  | none => usual
  | some "!" => usual
  | some name => .ofName name

/-- The tag of a scalar.  Without a tag only a plain one is looked at; an exclamation mark alone
asks for a look at any. -/
def scalarTag (name : Option String) (text : String) (plain : Bool) : Tag :=
  match name with
  | none => if plain then .ofText text else .text
  | some "!" => .ofText text
  | some name => .ofName name

/-! ## Nodes -/

mutual

/-- Reads a node. -/
def node (place : Place) : Nat → Composing Node
  | 0 => fail .tooDeep
  | fuel + 1 => do
    match ← peek with
    | .reference name =>
      skip
      resolve name
    | _ =>
      let (anchor, tag) ← properties
      let t ← peek
      let sequence (items : Composing (List Node)) : Composing Node := do
        let tag := collectionTag .sequence tag
        declare anchor tag
        complete anchor (.sequence tag (← items))
      let mapping (entries : Composing (List (Node × Node))) : Composing Node := do
        let tag := collectionTag .mapping tag
        declare anchor tag
        complete anchor (.mapping tag (← entries))
      let scalar (text : String) (plain : Bool) : Composing Node := do
        let tag := scalarTag tag text plain
        declare anchor tag
        complete anchor (.scalar tag text)
      match t with
      | .blockEntry =>
        if place = .entry then sequence (looseItems fuel)
        else if anchor.isSome || tag.isSome then scalar "" true
        else fail .missingNode
      | .scalar text plain =>
        skip
        scalar text plain
      | .flowSequenceStart =>
        skip
        sequence (flowItems true fuel)
      | .flowMappingStart =>
        skip
        mapping (flowEntries true fuel)
      | .blockSequenceStart =>
        if place = .flow then emptyOrFail anchor tag
        else
          skip
          sequence (blockItems fuel)
      | .blockMappingStart =>
        if place = .flow then emptyOrFail anchor tag
        else
          skip
          mapping (blockEntries fuel)
      | _ => emptyOrFail anchor tag
where
  /-- A node that consists of its anchor or its tag alone. -/
  emptyOrFail (anchor tag : Option String) : Composing Node := do
    if anchor.isSome || tag.isSome then
      let tag := scalarTag tag "" true
      declare anchor tag
      complete anchor (.scalar tag "")
    else fail .missingNode

/-- Reads a node, unless one of the given tokens comes next. -/
def nodeUnless (place : Place) (ends : List Token) : Nat → Composing Node
  | 0 => fail .tooDeep
  | fuel + 1 => do
    if ← isNext ends then pure .empty else node place fuel

/-- Reads the items of a block sequence and its end. -/
def blockItems : Nat → Composing (List Node)
  | 0 => fail .tooDeep
  | fuel + 1 => do
    if ← accept .blockEntry then
      let item ← nodeUnless .block [.blockEntry, .blockEnd] fuel
      pure (item :: (← blockItems fuel))
    else if ← accept .blockEnd then pure []
    else fail .unclosedBlock

/-- Reads the items of a sequence that is not indented. -/
def looseItems : Nat → Composing (List Node)
  | 0 => fail .tooDeep
  | fuel + 1 => do
    if ← accept .blockEntry then
      let item ← nodeUnless .block [.blockEntry, .key, .value, .blockEnd] fuel
      pure (item :: (← looseItems fuel))
    else pure []

/-- Reads the value of an entry, if there is one. -/
def entryValue (place : Place) (ends : List Token) : Nat → Composing Node
  | 0 => fail .tooDeep
  | fuel + 1 => do
    if ← accept .value then nodeUnless place ends fuel else pure .empty

/-- Reads the entries of a block mapping and its end. -/
def blockEntries : Nat → Composing (List (Node × Node))
  | 0 => fail .tooDeep
  | fuel + 1 => do
    if ← accept .key then
      let key ← nodeUnless .entry [.key, .value, .blockEnd] fuel
      let value ← entryValue .entry [.key, .value, .blockEnd] fuel
      pure ((key, value) :: (← blockEntries fuel))
    else if ← accept .blockEnd then pure []
    else fail .unclosedBlock

/-- Reads the items of a bracketed sequence and its end.  An item may be a single entry without
brackets of its own. -/
def flowItems (first : Bool) : Nat → Composing (List Node)
  | 0 => fail .tooDeep
  | fuel + 1 => do
    if ← accept .flowSequenceEnd then pure []
    else
      if !first then
        if !(← accept .flowEntry) then fail .unclosedSequence
      if ← accept .key then
        let key ← nodeUnless .flow [.value, .flowEntry, .flowSequenceEnd] fuel
        let value ← entryValue .flow [.flowEntry, .flowSequenceEnd] fuel
        pure (.mapping .mapping [(key, value)] :: (← flowItems false fuel))
      else if ← accept .flowSequenceEnd then pure []
      else
        let item ← node .flow fuel
        pure (item :: (← flowItems false fuel))

/-- Reads the entries of a bracketed mapping and its end. -/
def flowEntries (first : Bool) : Nat → Composing (List (Node × Node))
  | 0 => fail .tooDeep
  | fuel + 1 => do
    if ← accept .flowMappingEnd then pure []
    else
      if !first then
        if !(← accept .flowEntry) then fail .unclosedMapping
      if ← accept .key then
        let key ← nodeUnless .flow [.value, .flowEntry, .flowMappingEnd] fuel
        let value ← entryValue .flow [.flowEntry, .flowMappingEnd] fuel
        pure ((key, value) :: (← flowEntries false fuel))
      else if ← accept .flowMappingEnd then pure []
      else
        let key ← node .flow fuel
        pure ((key, .empty) :: (← flowEntries false fuel))

end

/-! ## Documents -/

/-- The handles that every document has. -/
def usualHandles : List (String × String) :=
  [("!", "!"), ("!!", Tag.commonPrefix)]

/-- Reads the directives of a document.  Its own handles come before the usual ones. -/
def directives : Nat → Bool → List (String × String) → Composing Unit
  | 0, _, _ => fail .tooDeep
  | fuel + 1, hasVersion, handles => do
    match ← peek with
    | .directive d =>
      skip
      match d with
      | .version major _ =>
        if hasVersion then fail .repeatedVersion
        else if major ≠ 1 then fail .foreignVersion
        else directives fuel true handles
      | .shorthand handle expansion =>
        if (handles.lookup handle).isSome then fail (.repeatedHandle handle)
        else directives fuel hasVersion ((handle, expansion) :: handles)
      | .other _ => directives fuel hasVersion handles
    | _ => modify fun s => { s with handles := handles ++ usualHandles }

def skipDocumentEnds : Nat → Composing Unit
  | 0 => pure ()
  | fuel + 1 => do
    if ← accept .documentEnd then skipDocumentEnds fuel

/-- Whether the token that comes next leaves a document without content. -/
def isContentMissing : Composing Bool := do
  match ← peek with
  | .directive _ => pure true
  | .documentStart => pure true
  | .documentEnd => pure true
  | .streamEnd => pure true
  | _ => pure false

/-- Reads the lines before a document, down to the mark that starts it. -/
def documentStart (fuel : Nat) : Composing Unit := do
  directives fuel false []
  if !(← accept .documentStart) then fail .missingDocumentStart

/-- Reads what follows the root of a document: nothing may. -/
def documentEnd (fuel : Nat) (root : Node) : Composing (Option Node) := do
  skipDocumentEnds fuel
  if ← isNext [.streamEnd] then pure (some root)
  else
    documentStart fuel
    fail .secondDocument

/-- Reads the one document of a text; a text may also hold none. -/
def document (fuel : Nat) : Composing (Option Node) := do
  match ← peek with
  | .streamEnd => pure none
  | t =>
    let isExplicit :=
      match t with
      | .directive _ => true
      | .documentStart => true
      | _ => false
    if isExplicit then documentStart fuel
    let root ←
      if isExplicit && (← isContentMissing) then pure .empty else node .block fuel
    documentEnd fuel root

end Composing

/-- The document that tokens make.  Each step of reading takes a token or goes one call deeper, so
the fuel is more than enough. -/
def Node.ofTokens (tokens : List Token) (failure : Option Failure) : Result (Option Node) := do
  let start : Composer :=
    ⟨tokens, failure.getD (.malformed .unclosedBlock), Composing.usualHandles, [], []⟩
  let (root, _) ← (Composing.document (4 * tokens.length + 8)).run start
  pure root

end ModelPlaybook.Yaml
