import ModelPlaybook.Script.Operation

/-!
# Items and slices

Reading, replacing and taking out the items of containers.  A negative index counts from the end.
Only lists and mappings that a script made itself can be changed.
-/

namespace ModelPlaybook.Script

/-- Some of the positions of a sequence: the first one, the one at which they end, and the distance
between two. -/
structure Selection where
  start : Int
  stop : Int
  step : Int

namespace Selection

/-- The positions that a slice of a sequence of a size selects. -/
def ofBounds (size : Nat) (start stop : Option Int) (step : Int) : Selection :=
  let low : Int := if step < 0 then -1 else 0
  let high : Int := if step < 0 then size - 1 else size
  let clamp (bound : Option Int) (missing : Int) : Int :=
    match bound with
    | none => missing
    | some n => if n < 0 then max (n + size) low else min n high
  let first := clamp start (if step < 0 then high else low)
  let last := clamp stop (if step < 0 then low else high)
  ⟨first, last, step⟩

/-- How many positions are selected. -/
def count (s : Selection) : Nat :=
  Object.rangeCount s.start s.stop s.step

def positions (s : Selection) : List Nat :=
  (List.range s.count).map fun (i : Nat) => (s.start + i * s.step).toNat

/-- The selected items, in the order of the selection. -/
def pick {α : Type} (s : Selection) (items : List α) : List α :=
  let all := items.toArray
  s.positions.filterMap fun i => all[i]?

/-- The items without the selected ones. -/
def drop {α : Type} (s : Selection) (items : List α) : List α :=
  let gone := s.positions
  (items.zipIdx.filter fun (_, i) => !gone.contains i).map (·.1)

/-- The items with others in place of the selected ones, one for one. -/
def replace {α : Type} (s : Selection) (items others : List α) : List α :=
  (s.positions.zip others).foldl (fun acc (i, o) => acc.set i o) items

end Selection

namespace Object

/-- The whole number that bounds a slice. -/
def sliceBound (o : Object) : Run (Option Int) := do
  match o, o.index? with
  | .nothing, _ => pure none
  | _, some n => pure (some n)
  | _, none =>
    Run.raiseType "slice indices must be integers or None or have an __index__ method"

/-- What a slice selects of a sequence of a size. -/
def selection (size : Nat) (start stop step : Object) : Run Selection := do
  match ← step.sliceBound with
  | some 0 => Run.raiseValue "slice step cannot be zero"
  | step =>
    let first ← start.sliceBound
    let last ← stop.sliceBound
    pure (.ofBounds size first last (step.getD 1))

def raiseIndex {α : Type} (text : String) : Run α :=
  Run.raiseFault ⟨.index, text⟩

/-- The position in a sequence that an index means. -/
def position (size : Nat) (index : Int) (beyond : String) : Run Nat := do
  let i := if index < 0 then index + size else index
  if 0 ≤ i ∧ i < size then pure i.toNat else raiseIndex beyond

/-- The position in a sequence that is kept item by item. -/
def keptPosition (size : Nat) (index : Int) (beyond : String) : Run Nat :=
  if -sizeLimit ≤ index ∧ index < sizeLimit then position size index beyond
  else raiseIndex "cannot fit 'int' into an index-sized integer"

/-- How messages name a kind of sequence. -/
structure SequenceWords where
  beyond : String
  badIndex : String → String

def sequenceWords (name : String) : SequenceWords where
  beyond := name ++ " index out of range"
  badIndex t := name ++ " indices must be integers or slices, not " ++ t

def textWords : SequenceWords where
  beyond := "string index out of range"
  badIndex t := "string indices must be integers, not '" ++ t ++ "'"

def bytesWords : SequenceWords where
  beyond := "index out of range"
  badIndex t := "byte indices must be integers or slices, not " ++ t

def rangeWords : SequenceWords where
  beyond := "range object index out of range"
  badIndex t := "range indices must be integers or slices, not " ++ t

/-- An item of a sequence, or a slice of it. -/
def sequenceItem {α : Type} (words : SequenceWords) (items : List α) (one : α → Object)
    (many : List α → Run Object) (index : Object) : Run Object := do
  match index with
  | .slice start stop step =>
    many ((← selection items.length start stop step).pick items)
  | index =>
    match index.index? with
    | some n =>
      match items[← keptPosition items.length n words.beyond]? with
      | some a => pure (one a)
      | none => raiseIndex words.beyond
    | none => do Run.raiseType (words.badIndex (← index.familyName))

/-- A number of a range, or a part of it. -/
def rangeItem (start stop step : Int) (index : Object) : Run Object := do
  let size := rangeCount start stop step
  match index with
  | .slice a b c =>
    let s ← selection size a b c
    pure (.range (start + s.start * step) (start + s.stop * step) (s.step * step))
  | index =>
    match index.index? with
    | some n => pure (.int (start + (← position size n rangeWords.beyond) * step))
    | none => do Run.raiseType (rangeWords.badIndex (← index.familyName))

/-- The item of an object under an index or a key. -/
def item (o index : Object) : Run Object := do
  match o with
  | .scalar (.text s) _ =>
    let found ← sequenceItem textWords s.toList (fun c => .text (String.singleton c))
      (fun cs => pure (if cs = s.toList then o else .text (String.ofList cs))) index
    Run.anew found
  | .tuple items _ =>
    let part (os : List Object) : Run Object :=
      if os.length = items.length && os == items then pure o else Run.anew (.tuple os)
    sequenceItem (sequenceWords "tuple") items id part index
  | .bytes content _ =>
    let part (bs : List UInt8) : Run Object :=
      if bs = content then pure o else Run.anew (.bytes bs)
    sequenceItem bytesWords content (fun b => .int b.toNat) part index
  | .range start stop step _ => do Run.anew (← rangeItem start stop step index)
  | .standIn name => Run.deny name
  | .kind k => Run.raiseType ("type '" ++ k.familyName ++ "' is not subscriptable")
  | o =>
    match ← o.listItems?, ← o.entries? with
    | some items, _ => sequenceItem (sequenceWords "list") items id Run.newList index
    | none, some entries =>
      match ← entries.get? index with
      | some v => pure v
      | none => Run.raiseKey index
    | none, none =>
      Run.raiseType ("'" ++ (← o.familyName) ++ "' object is not subscriptable")

/-! ## Changes -/

/-- Stops unless an object may have its items changed. -/
def ensureWritable (o : Object) : Run Unit := do
  let refused : Run Unit := Run.raiseType "object does not support item or slice assignment"
  match o with
  | .standIn name => Run.deny name
  | .cell a =>
    match ← Run.read a with
    | .list _ => pure ()
    | .dict _ => pure ()
    | _ => refused
  | _ => refused

/-- A list with another content in place of a slice. -/
def replaceSlice (ev : Evaluator) (items : List Object) (start stop step value : Object) :
    Run (List Object) := do
  let s ← selection items.length start stop step
  let source ← tryCatch value.iterator fun _ =>
    Run.raiseType (if s.step = 1 then "can only assign an iterable"
      else "must assign iterable to extended slice")
  let others ← ev.drain source
  if s.step = 1 then
    pure (items.take s.start.toNat ++ others ++ items.drop (s.start.toNat + s.count))
  else if others.length ≠ s.count then
    Run.raiseValue ("attempt to assign sequence of size " ++ toString others.length ++
      " to extended slice of size " ++ toString s.count)
  else pure (s.replace items others)

/-- Puts a value under an index or a key. -/
def setItem (ev : Evaluator) (o index value : Object) : Run Unit := do
  o.ensureWritable
  match o with
  | .cell a =>
    match ← Run.read a, index with
    | .dict entries, index => Run.write a (.dict (← entries.put index value))
    | .list items, .slice start stop step =>
      Run.write a (.list (← replaceSlice ev items start stop step value))
    | .list items, index =>
      match index.index? with
      | some n =>
        let i ← keptPosition items.length n "list assignment index out of range"
        Run.write a (.list (items.set i value))
      | none => Run.raiseType ((sequenceWords "list").badIndex (← index.familyName))
    | _, _ => pure ()
  | _ => pure ()

/-- Takes out what is under an index or a key. -/
def deleteItem (o index : Object) : Run Unit := do
  o.ensureWritable
  match o with
  | .cell a =>
    match ← Run.read a, index with
    | .dict entries, index =>
      match ← entries.remove? index with
      | some (_, rest) => Run.write a (.dict rest)
      | none => Run.raiseKey index
    | .list items, .slice start stop step =>
      Run.write a (.list ((← selection items.length start stop step).drop items))
    | .list items, index =>
      match index.index? with
      | some n =>
        let i ← keptPosition items.length n "list assignment index out of range"
        Run.write a (.list (items.eraseIdx i))
      | none => Run.raiseType ((sequenceWords "list").badIndex (← index.familyName))
    | _, _ => pure ()
  | _ => pure ()

end Object

end ModelPlaybook.Script
