import ModelPlaybook.Calendar
import ModelPlaybook.Number.DecimalText
import ModelPlaybook.Number.Shortest

/-!
# Values

The values that documents hold and that models receive and return.  `Scalar` is plain data without
parts; `Value` adds the containers, byte strings, derived inputs and objects of foreign types.
Mappings keep the order in which their keys were written.
-/

namespace ModelPlaybook

/-- Plain data without parts. -/
inductive Scalar where
  | none
  | bool (b : Bool)
  | int (n : Int)
  | float (x : Binary64)
  | decimal (d : Decimal)
  | text (s : String)
  | date (d : Date)
  | dateTime (t : DateTime)
  | duration (d : Duration)
deriving DecidableEq, Repr, Inhabited

/-- A value.  `frozenMap` and `frozenSet` are the read-only forms of `map` and `set`; `derived` is
an input computed from an expression; `foreign` is an object of which only the type is known, or the
stand-in for a blocked name. -/
inductive Value where
  | scalar (s : Scalar)
  | list (items : List Value)
  | tuple (items : List Value)
  | map (entries : List (Value × Value))
  | frozenMap (entries : List (Value × Value))
  | set (items : List Value)
  | frozenSet (items : List Value)
  | bytes (content : List UInt8)
  | derived (expression : String)
  | foreign (typeName : String) (origin : Origin := .computed)
deriving Repr, Inhabited

/-- The keys and values of a mapping in order. -/
abbrev Entries := List (Value × Value)

namespace Value

@[match_pattern] abbrev none : Value := .scalar .none
@[match_pattern] abbrev bool (b : Bool) : Value := .scalar (.bool b)
@[match_pattern] abbrev int (n : Int) : Value := .scalar (.int n)
@[match_pattern] abbrev float (x : Binary64) : Value := .scalar (.float x)
@[match_pattern] abbrev decimal (d : Decimal) : Value := .scalar (.decimal d)
@[match_pattern] abbrev text (s : String) : Value := .scalar (.text s)

end Value

/-- The name of a scalar's type in messages. -/
def Scalar.typeName : Scalar → String
  | .none => "NoneType"
  | .bool _ => "bool"
  | .int _ => "int"
  | .float _ => "float"
  | .decimal _ => "Decimal"
  | .text _ => "str"
  | .date _ => "date"
  | .dateTime _ => "datetime"
  | .duration _ => "timedelta"

/-- The name of a value's type in messages. -/
def Value.typeName : Value → String
  | .scalar s => s.typeName
  | .list _ => "list"
  | .tuple _ => "tuple"
  | .map _ => "dict"
  | .frozenMap _ => "mappingproxy"
  | .set _ => "set"
  | .frozenSet _ => "frozenset"
  | .bytes _ => "bytes"
  | .derived _ => "DerivedInput"
  | .foreign name _ => name

/-- The name of a scalar's type together with the family that the type belongs to. -/
def Scalar.familyName : Scalar → String
  | .decimal _ => "decimal.Decimal"
  | .date _ => "datetime.date"
  | .dateTime _ => "datetime.datetime"
  | .duration _ => "datetime.timedelta"
  | s => s.typeName

/-- The name of a value's type together with the family that the type belongs to. -/
def Value.familyName : Value → String
  | .scalar s => s.familyName
  | v => v.typeName

/-- The kinds of values, as far as two values can be of the same type. -/
inductive ValueKind where
  | none | bool | int | float | decimal | text | date | dateTime | duration
  | list | tuple | map | frozenMap | set | frozenSet | bytes | derived | foreign (typeName : String)
deriving DecidableEq, Repr

def Scalar.kind : Scalar → ValueKind
  | .none => .none
  | .bool _ => .bool
  | .int _ => .int
  | .float _ => .float
  | .decimal _ => .decimal
  | .text _ => .text
  | .date _ => .date
  | .dateTime _ => .dateTime
  | .duration _ => .duration

def Value.kind : Value → ValueKind
  | .scalar s => s.kind
  | .list _ => .list
  | .tuple _ => .tuple
  | .map _ => .map
  | .frozenMap _ => .frozenMap
  | .set _ => .set
  | .frozenSet _ => .frozenSet
  | .bytes _ => .bytes
  | .derived _ => .derived
  | .foreign name _ => .foreign name

/-- The entries of a mapping, read-only or not. -/
def Value.entries? : Value → Option Entries
  | .map entries => some entries
  | .frozenMap entries => some entries
  | _ => Option.none

/-- The items of a list or a tuple. -/
def Value.sequence? : Value → Option (List Value)
  | .list items => some items
  | .tuple items => some items
  | _ => Option.none

def Value.text? : Value → Option String
  | .scalar (.text s) => some s
  | _ => Option.none

theorem Value.eq_text_of_text? {v : Value} {name : String} (hname : v.text? = some name) :
    v = .text name := by
  unfold text? at hname
  split at hname
  · cases hname
    rfl
  · cases hname

/-- Whether a value counts as true where a truth value is asked for. -/
def Value.isTruthy : Value → Bool
  | .scalar .none => false
  | .scalar (.bool b) => b
  | .scalar (.int n) => n ≠ 0
  | .scalar (.float x) => !x.isZero
  | .scalar (.decimal d) => !d.isZero
  | .scalar (.text s) => s ≠ ""
  | .scalar (.date _) => true
  | .scalar (.dateTime _) => true
  | .scalar (.duration d) => d.microseconds ≠ 0
  | .list items => !items.isEmpty
  | .tuple items => !items.isEmpty
  | .map entries => !entries.isEmpty
  | .frozenMap entries => !entries.isEmpty
  | .set items => !items.isEmpty
  | .frozenSet items => !items.isEmpty
  | .bytes content => !content.isEmpty
  | .derived _ => true
  | .foreign _ _ => true

namespace Value

/-- The name that a value blocks as a stand-in. -/
def blocks? : Value → Option String
  | .foreign _ (.blocked name _) => some name
  | _ => Option.none

mutual

/-- Whether two values are identical as data; this is finer than `Value.equals`. -/
def decideEq : (a b : Value) → Decidable (a = b)
  | .scalar a, b =>
    match b with
    | .scalar b => decidable_of_iff (a = b) ⟨fun h => h ▸ rfl, fun h => by cases h; rfl⟩
    | .list _ | .tuple _ | .map _ | .frozenMap _ | .set _ | .frozenSet _
    | .bytes _ | .derived _ | .foreign _ _ => isFalse nofun
  | .list a, b =>
    match b with
    | .list b =>
      match decideEqItems a b with
      | isTrue h => isTrue (h ▸ rfl)
      | isFalse h => isFalse fun e => h (by cases e; rfl)
    | .scalar _ | .tuple _ | .map _ | .frozenMap _ | .set _ | .frozenSet _
    | .bytes _ | .derived _ | .foreign _ _ => isFalse nofun
  | .tuple a, b =>
    match b with
    | .tuple b =>
      match decideEqItems a b with
      | isTrue h => isTrue (h ▸ rfl)
      | isFalse h => isFalse fun e => h (by cases e; rfl)
    | .scalar _ | .list _ | .map _ | .frozenMap _ | .set _ | .frozenSet _
    | .bytes _ | .derived _ | .foreign _ _ => isFalse nofun
  | .map a, b =>
    match b with
    | .map b =>
      match decideEqEntries a b with
      | isTrue h => isTrue (h ▸ rfl)
      | isFalse h => isFalse fun e => h (by cases e; rfl)
    | .scalar _ | .list _ | .tuple _ | .frozenMap _ | .set _ | .frozenSet _
    | .bytes _ | .derived _ | .foreign _ _ => isFalse nofun
  | .frozenMap a, b =>
    match b with
    | .frozenMap b =>
      match decideEqEntries a b with
      | isTrue h => isTrue (h ▸ rfl)
      | isFalse h => isFalse fun e => h (by cases e; rfl)
    | .scalar _ | .list _ | .tuple _ | .map _ | .set _ | .frozenSet _
    | .bytes _ | .derived _ | .foreign _ _ => isFalse nofun
  | .set a, b =>
    match b with
    | .set b =>
      match decideEqItems a b with
      | isTrue h => isTrue (h ▸ rfl)
      | isFalse h => isFalse fun e => h (by cases e; rfl)
    | .scalar _ | .list _ | .tuple _ | .map _ | .frozenMap _ | .frozenSet _
    | .bytes _ | .derived _ | .foreign _ _ => isFalse nofun
  | .frozenSet a, b =>
    match b with
    | .frozenSet b =>
      match decideEqItems a b with
      | isTrue h => isTrue (h ▸ rfl)
      | isFalse h => isFalse fun e => h (by cases e; rfl)
    | .scalar _ | .list _ | .tuple _ | .map _ | .frozenMap _ | .set _
    | .bytes _ | .derived _ | .foreign _ _ => isFalse nofun
  | .bytes a, b =>
    match b with
    | .bytes b => decidable_of_iff (a = b) ⟨fun h => h ▸ rfl, fun h => by cases h; rfl⟩
    | .scalar _ | .list _ | .tuple _ | .map _ | .frozenMap _ | .set _
    | .frozenSet _ | .derived _ | .foreign _ _ => isFalse nofun
  | .derived a, b =>
    match b with
    | .derived b => decidable_of_iff (a = b) ⟨fun h => h ▸ rfl, fun h => by cases h; rfl⟩
    | .scalar _ | .list _ | .tuple _ | .map _ | .frozenMap _ | .set _
    | .frozenSet _ | .bytes _ | .foreign _ _ => isFalse nofun
  | .foreign a o, b =>
    match b with
    | .foreign b p =>
      decidable_of_iff (a = b ∧ o = p)
        ⟨fun h => h.1 ▸ h.2 ▸ rfl, fun h => by cases h; exact ⟨rfl, rfl⟩⟩
    | .scalar _ | .list _ | .tuple _ | .map _ | .frozenMap _ | .set _
    | .frozenSet _ | .bytes _ | .derived _ => isFalse nofun
termination_by structural a => a

def decideEqItems : (a b : List Value) → Decidable (a = b)
  | [], [] => isTrue rfl
  | [], _ :: _ => isFalse nofun
  | _ :: _, [] => isFalse nofun
  | x :: xs, y :: ys =>
    match decideEq x y, decideEqItems xs ys with
    | isTrue h, isTrue hs => isTrue (h ▸ hs ▸ rfl)
    | isFalse h, _ => isFalse fun e => h (List.cons.inj e).1
    | _, isFalse h => isFalse fun e => h (List.cons.inj e).2
termination_by structural a => a

def decideEqEntries : (a b : List (Value × Value)) → Decidable (a = b)
  | [], [] => isTrue rfl
  | [], _ :: _ => isFalse nofun
  | _ :: _, [] => isFalse nofun
  | (k, v) :: xs, (l, w) :: ys =>
    match decideEq k l, decideEq v w, decideEqEntries xs ys with
    | isTrue hk, isTrue hv, isTrue hs => isTrue (hk ▸ hv ▸ hs ▸ rfl)
    | isFalse h, _, _ => isFalse fun e => h (Prod.mk.inj (List.cons.inj e).1).1
    | _, isFalse h, _ => isFalse fun e => h (Prod.mk.inj (List.cons.inj e).1).2
    | _, _, isFalse h => isFalse fun e => h (List.cons.inj e).2
termination_by structural a => a

end

instance : DecidableEq Value :=
  decideEq

end Value

namespace Entries

/-- The value under a text key. -/
def get? (entries : Entries) (name : String) : Option Value :=
  (entries.find? fun entry => entry.1.text? == some name).map (·.2)

def contains (entries : Entries) (name : String) : Bool :=
  (get? entries name).isSome

end Entries

end ModelPlaybook
