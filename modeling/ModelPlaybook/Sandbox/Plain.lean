import ModelPlaybook.Fault
import ModelPlaybook.Value.Equality

/-!
# Plain data and frozen data

Values enter a sandbox frozen, so that model logic cannot change them, and leave it as plain data:
scalars, lists, and mappings with text keys.
-/

namespace ModelPlaybook

namespace Value

mutual

/-- The read-only form of a value: no part of it can be changed.  A set is made anew of the forms of
its elements. -/
def freeze : Value → Value
  | .map entries => .frozenMap (freezeEntries entries)
  | .frozenMap entries => .frozenMap (freezeEntries entries)
  | .list items => .tuple (freezeItems items)
  | .tuple items => .tuple (freezeItems items)
  | .set items => .frozenSet (distinct (freezeItems items))
  | .frozenSet items => .frozenSet (distinct (freezeItems items))
  | v => v
termination_by structural v => v

def freezeItems : List Value → List Value
  | [] => []
  | x :: xs => freeze x :: freezeItems xs
termination_by structural xs => xs

def freezeEntries : List (Value × Value) → List (Value × Value)
  | [] => []
  | (k, v) :: rest => (k, freeze v) :: freezeEntries rest
termination_by structural xs => xs

end

end Value

/-- A value as its conversion meets it.  A sequence gives its items and a mapping its entries, which
have different keys, one after the other; one of a custom type can break off with a fault. -/
inductive Cargo where
  | scalar (s : Scalar)
  | sequence (typeName : String) (items : List Cargo) (break? : Option Fault)
  | mapping (typeName : String) (entries : List (Value × Cargo)) (break? : Option Fault)
  /-- A value of a type that plain data does not have. -/
  | other (typeName : String)
deriving Repr, Inhabited

namespace Cargo

def isMapping : Cargo → Bool
  | .mapping _ _ _ => true
  | _ => false

/-- The name of the type in messages. -/
def typeName : Cargo → String
  | .scalar s => s.typeName
  | .sequence name _ _ => name
  | .mapping name _ _ => name
  | .other name => name

mutual

/-- What the conversion of a value meets; the parts of a value never break off. -/
def ofValue : Value → Cargo
  | .scalar s => .scalar s
  | .list items => .sequence "list" (ofItems items) none
  | .tuple items => .sequence "tuple" (ofItems items) none
  | .map entries => .mapping "dict" (ofEntries entries) none
  | .frozenMap entries => .mapping "mappingproxy" (ofEntries entries) none
  | v => .other v.typeName
termination_by structural v => v

def ofItems : List Value → List Cargo
  | [] => []
  | x :: xs => ofValue x :: ofItems xs
termination_by structural xs => xs

def ofEntries : List (Value × Value) → List (Value × Cargo)
  | [] => []
  | (k, v) :: rest => (k, ofValue v) :: ofEntries rest
termination_by structural xs => xs

end

end Cargo

/-- Why something has no plain form: at some path there is a key that is no text, or a value of a
type that plain data does not have, or else its parts break off. -/
inductive PlainFault where
  | key (path typeName : String)
  | type (path typeName : String)
  | broken (f : Fault)
deriving DecidableEq, Repr

/-- A fault as it comes out.  The fault with which parts break off passes as it is. -/
def PlainFault.fault : PlainFault → Fault
  | key path typeName => .ofType (path ++ " has a non-string key of type " ++ typeName)
  | type path typeName => .ofType (path ++ " has unsupported type " ++ typeName)
  | broken f => f

/-- The path of an entry, and that of an item. -/
def entryPath (path key : String) : String :=
  path ++ "." ++ key

def itemPath (path : String) (index : Nat) : String :=
  path ++ "[" ++ toString index ++ "]"

namespace Cargo

/-- Stops where parts break off. -/
def ensureWhole : Option Fault → Except PlainFault Unit
  | none => .ok ()
  | some f => .error (.broken f)

mutual

/-- The plain form at a path.  The first part that is not plain stops it, in depth-first order; the
key of an entry is looked at before its value. -/
def toPlain (path : String) : Cargo → Except PlainFault Value
  | .scalar s => .ok (.scalar s)
  | .sequence _ items break? => do
    let plains ← plainItems path 0 items
    ensureWhole break?
    pure (.list plains)
  | .mapping _ entries break? => do
    let plains ← plainEntries path entries
    ensureWhole break?
    pure (.map plains)
  | .other typeName => .error (.type path typeName)
termination_by structural c => c

def plainItems (path : String) (index : Nat) : List Cargo → Except PlainFault (List Value)
  | [] => .ok []
  | x :: xs => do
    let y ← toPlain (itemPath path index) x
    let ys ← plainItems path (index + 1) xs
    pure (y :: ys)
termination_by structural xs => xs

def plainEntries (path : String) : List (Value × Cargo) → Except PlainFault Entries
  | [] => .ok []
  | (k, c) :: rest =>
    match k.text? with
    | some name => do
      let w ← toPlain (entryPath path name) c
      let more ← plainEntries path rest
      pure ((k, w) :: more)
    | none => .error (.key path k.typeName)
termination_by structural xs => xs

end

end Cargo

/-- The plain form of a value at a path. -/
def Value.toPlain (path : String) (v : Value) : Except PlainFault Value :=
  (Cargo.ofValue v).toPlain path

end ModelPlaybook
