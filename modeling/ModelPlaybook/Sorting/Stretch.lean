import ModelPlaybook.Sorting.Merge

/-!
# Sorting by stretches

A list is cut into stretches that are sorted already, ascending or strictly descending ones; short
stretches are filled up by insertion.  Neighbouring stretches are merged in an order that keeps the
merges balanced, so equal elements keep their places.
-/

namespace ModelPlaybook

namespace Sorting

variable {m : Type → Type} [Monad m] {α : Type}

/-! ## Finding stretches -/

/-- The stretch at the start of a list, last element first, with the elements behind it. -/
def leading (less : α → α → m Bool) (descending : Bool) (last : α) :
    List α → List α → m (List α × List α)
  | found, [] => pure (found, [])
  | found, x :: rest => do
    if (← less x last) = descending then leading less descending x (x :: found) rest
    else pure (found, x :: rest)

/-- Puts an element into a sorted stretch, behind all that are not greater. -/
def insertSorted (less : α → α → m Bool) (sorted : Array α) (x : α) : m (Array α) := do
  let holds (i : Nat) : m Bool := ask sorted i fun y => do pure !(← less x y)
  let i ← halve holds (sorted.size + 1) 0 sorted.size
  pure (sorted.extract 0 i ++ #[x] ++ sorted.extract i sorted.size)

/-- The next stretch of a list, of a least length as far as there are elements, and the rest. -/
def nextStretch (less : α → α → m Bool) (least : Nat) : List α → m (Array α × List α)
  | [] => pure (#[], [])
  | [x] => pure (#[x], [])
  | x :: y :: rest => do
    let descending ← less y x
    let (found, rest) ← leading less descending y [y, x] rest
    let start := (if descending then found else found.reverse).toArray
    let missing := least - start.size
    pure (← (rest.take missing).foldlM (insertSorted less) start, rest.drop missing)

/-- The length to which short stretches are filled up: between 32 and 64, such that the number of
stretches is a power of two or a little less. -/
def leastLength : Nat → Nat → Nat → Nat
  | 0, n, r => n + r
  | fuel + 1, n, r =>
    if 64 ≤ n then leastLength fuel (n / 2) (max r (n % 2)) else n + r

/-! ## Balance -/

/-- A stretch that waits to be merged.  `power` is the depth, in a balanced tree over the list, of
the cut between it and the next one. -/
structure Waiting (α : Type) where
  start : Nat
  items : Array α
  power : Nat

/-- The first binary digit in which `a / n` and `b / n` differ, counted from one; both are below
two. -/
def firstDifference (n : Nat) : Nat → Nat → Nat → Nat
  | 0, _, _ => 1
  | fuel + 1, a, b =>
    if n ≤ a then 1 + firstDifference n fuel (2 * (a - n)) (2 * (b - n))
    else if n ≤ b then 1
    else 1 + firstDifference n fuel (2 * a) (2 * b)

/-- The depth of the cut between a stretch and the next one, which lies between their middles. -/
def cutPower (size : Nat) (w : Waiting α) (next : Nat) : Nat :=
  let a := 2 * w.start + w.items.size
  firstDifference size (size.log2 + 3) a (a + w.items.size + next)

/-- Merges the stretches before a cut that are cut from one another more deeply.  The last stretch
is kept apart from those below it. -/
def mergeDeeper (less : α → α → m Bool) (power : Nat) :
    Nat → Waiting α → List (Waiting α) → m (List (Waiting α) × Nat)
  | threshold, top, [] => pure ([{ top with power := power }], threshold)
  | threshold, top, w :: below => do
    if power < w.power then
      let (items, threshold) ← mergePair less threshold w.items top.items
      mergeDeeper less power threshold ⟨w.start, items, power⟩ below
    else pure ({ top with power := power } :: w :: below, threshold)

/-- Cuts a list into stretches, and merges those that need not wait.  The last stretch is the first
of the answer. -/
def stretches (less : α → α → m Bool) (size least : Nat) :
    Nat → Nat → List (Waiting α) → List α → m (List (Waiting α) × Nat)
  | 0, threshold, waiting, _ => pure (waiting, threshold)
  | _, threshold, waiting, [] => pure (waiting, threshold)
  | fuel + 1, threshold, waiting, x :: xs => do
    let (items, rest) ← nextStretch less least (x :: xs)
    let start := size - (xs.length + 1)
    let (waiting, threshold) ←
      match waiting with
      | [] => pure ([], threshold)
      | top :: below => mergeDeeper less (cutPower size top items.size) threshold top below
    stretches less size least fuel threshold (⟨start, items, 0⟩ :: waiting) rest

/-- Merges all stretches that wait, from the end; a stretch goes first with the shorter of its
neighbours. -/
def mergeAll (less : α → α → m Bool) : Nat → Nat → List (Array α) → m (Array α)
  | 0, _, waiting => pure waiting.reverse.toArray.flatten
  | _ + 1, _, [] => pure #[]
  | _ + 1, _, [items] => pure items
  | fuel + 1, threshold, c :: b :: a :: below => do
    if a.size < c.size then
      let (merged, threshold) ← mergePair less threshold a b
      mergeAll less fuel threshold (c :: merged :: below)
    else
      let (merged, threshold) ← mergePair less threshold b c
      mergeAll less fuel threshold (merged :: a :: below)
  | _ + 1, threshold, [b, a] => do pure (← mergePair less threshold a b).1

end Sorting

/-- Sorts a list; equal elements keep their places. -/
def sortBy {m : Type → Type} [Monad m] {α : Type} (less : α → α → m Bool) (items : List α) :
    m (List α) := do
  let size := items.length
  let least := Sorting.leastLength (size.log2 + 1) size 0
  let (waiting, threshold) ← Sorting.stretches less size least size Sorting.leapLength [] items
  pure (← Sorting.mergeAll less size threshold (waiting.map (·.items))).toList

end ModelPlaybook
