/-!
# Merging sorted stretches

Two neighbouring stretches are merged element by element.  Once one of them has won often in a row,
longer parts are moved at once, and their ends are found by doubling steps and halving.  The order
of the comparisons is fixed, so the result is determined also for elements whose comparison is no
order, such as numbers with a NaN among them.
-/

namespace ModelPlaybook.Sorting

variable {m : Type → Type} [Monad m] {α : Type}

/-! ## Searching -/

/-- Asks about the element at a position. -/
def ask (items : Array α) (i : Nat) (test : α → m Bool) : m Bool :=
  match items[i]? with
  | some x => test x
  | none => pure false

/-- Where a test first fails between two positions, by halving. -/
def halve (holds : Nat → m Bool) : Nat → Nat → Nat → m Nat
  | 0, low, _ => pure low
  | fuel + 1, low, high =>
    if low < high then do
      let middle := (low + high) / 2
      if ← holds middle then halve holds fuel (middle + 1) high
      else halve holds fuel low middle
    else pure low

/-- Doubles a distance as long as a test holds and a limit is not reached: the last distance at
which it held, and the end. -/
def stride (holds : Nat → m Bool) (limit : Nat) : Nat → Nat → Nat → m (Nat × Nat)
  | 0, last, _ => pure (last, limit)
  | fuel + 1, last, next =>
    if next < limit then do
      if ← holds next then stride holds limit fuel next (2 * next + 1)
      else pure (last, next)
    else pure (last, limit)

/-- Where a test first fails among so many positions, searched from a position near it. -/
def boundary (holds : Nat → m Bool) (size hint : Nat) : m Nat := do
  if ← holds hint then
    let (last, next) ← stride (fun n => holds (hint + n)) (size - hint) size 0 1
    halve holds size (hint + last + 1) (hint + next)
  else
    let fails (n : Nat) : m Bool := do pure !(← holds (hint - n))
    let (last, next) ← stride fails (hint + 1) size 0 1
    halve holds size (hint + 1 - next) (hint - last)

/-! ## Merging -/

/-- How a merge goes on: element by element, with the number of elements that the first and the
second stretch have won in a row, or by longer parts. -/
inductive Pace where
  | single (first second : Nat)
  | leap

/-- How long a part has to be for the next one to be searched in the same way. -/
def leapLength : Nat := 7

/-- A merge from the front.  `i` and `j` are the numbers of elements taken from the stretches, and
`threshold` is how many elements in a row make a merge leap. -/
structure Front (α : Type) where
  first : Array α
  second : Array α
  i : Nat
  j : Nat
  merged : Array α
  threshold : Nat

namespace Front

def firstLeft (s : Front α) : Nat :=
  s.first.size - s.i

def secondLeft (s : Front α) : Nat :=
  s.second.size - s.j

def takeFirst (s : Front α) (n : Nat) : Front α :=
  { s with i := s.i + n, merged := s.merged ++ s.first.extract s.i (s.i + n) }

def takeSecond (s : Front α) (n : Nat) : Front α :=
  { s with j := s.j + n, merged := s.merged ++ s.second.extract s.j (s.j + n) }

/-- What is left follows, of the first stretch first. -/
def finish (s : Front α) : Array α × Nat :=
  (s.merged ++ s.first.extract s.i s.first.size ++ s.second.extract s.j s.second.size, s.threshold)

/-- What is left follows, of the second stretch first. -/
def finishSecond (s : Front α) : Array α × Nat :=
  (s.merged ++ s.second.extract s.j s.second.size ++ s.first.extract s.i s.first.size, s.threshold)

/-- Merges the rest.  The last element of the first stretch comes last. -/
def merge (less : α → α → m Bool) : Nat → Pace → Front α → m (Array α × Nat)
  | 0, _, s => pure s.finish
  | fuel + 1, pace, s =>
    match s.first[s.i]?, s.second[s.j]?, pace with
    | some x, some y, .single a b => do
      if ← less y x then
        let s := s.takeSecond 1
        if s.secondLeft = 0 then pure s.finish
        else if s.threshold ≤ b + 1 then
          merge less fuel .leap { s with threshold := s.threshold + 1 }
        else merge less fuel (.single 0 (b + 1)) s
      else
        let s := s.takeFirst 1
        if s.firstLeft = 1 then pure s.finishSecond
        else if s.threshold ≤ a + 1 then
          merge less fuel .leap { s with threshold := s.threshold + 1 }
        else merge less fuel (.single (a + 1) 0) s
    | some _, some y, .leap => do
      let n ← boundary (fun k => ask s.first (s.i + k) fun x => do pure !(← less y x)) s.firstLeft 0
      let s := { s with threshold := max 1 (s.threshold - 1) }.takeFirst n
      if s.firstLeft = 1 then pure s.finishSecond
      else
        match s.first[s.i]? with
        | none => pure s.finish
        | some x =>
          let s := s.takeSecond 1
          if s.secondLeft = 0 then pure s.finish
          else
            let l ← boundary (fun k => ask s.second (s.j + k) fun y => less y x) s.secondLeft 0
            let s := s.takeSecond l
            if s.secondLeft = 0 then pure s.finish
            else
              let s := s.takeFirst 1
              if s.firstLeft = 1 then pure s.finishSecond
              else if leapLength ≤ n ∨ leapLength ≤ l then merge less fuel .leap s
              else merge less fuel (.single 0 0) { s with threshold := s.threshold + 1 }
    | _, _, _ => pure s.finish

end Front

/-- A merge from the back.  `i` and `j` are the numbers of elements left in the stretches. -/
structure Back (α : Type) where
  first : Array α
  second : Array α
  i : Nat
  j : Nat
  merged : List α
  threshold : Nat

namespace Back

def takeFirst (s : Back α) (n : Nat) : Back α :=
  { s with i := s.i - n, merged := (s.first.extract (s.i - n) s.i).toList ++ s.merged }

def takeSecond (s : Back α) (n : Nat) : Back α :=
  { s with j := s.j - n, merged := (s.second.extract (s.j - n) s.j).toList ++ s.merged }

/-- What is left comes before, of the first stretch first. -/
def finish (s : Back α) : Array α × Nat :=
  (s.first.extract 0 s.i ++ s.second.extract 0 s.j ++ s.merged, s.threshold)

/-- What is left comes before, of the second stretch first. -/
def finishSecond (s : Back α) : Array α × Nat :=
  (s.second.extract 0 s.j ++ s.first.extract 0 s.i ++ s.merged, s.threshold)

/-- Merges the rest.  The first element of the second stretch comes first. -/
def merge (less : α → α → m Bool) : Nat → Pace → Back α → m (Array α × Nat)
  | 0, _, s => pure s.finish
  | fuel + 1, pace, s =>
    match s.first[s.i - 1]?, s.second[s.j - 1]?, pace with
    | some x, some y, .single a b => do
      if ← less y x then
        let s := s.takeFirst 1
        if s.i = 0 then pure s.finish
        else if s.threshold ≤ a + 1 then
          merge less fuel .leap { s with threshold := s.threshold + 1 }
        else merge less fuel (.single (a + 1) 0) s
      else
        let s := s.takeSecond 1
        if s.j = 1 then pure s.finishSecond
        else if s.threshold ≤ b + 1 then
          merge less fuel .leap { s with threshold := s.threshold + 1 }
        else merge less fuel (.single 0 (b + 1)) s
    | some _, some y, .leap => do
      let p ← boundary (fun k => ask s.first k fun x => do pure !(← less y x)) s.i (s.i - 1)
      let n := s.i - p
      let s := { s with threshold := max 1 (s.threshold - 1) }.takeFirst n
      match s.first[s.i - 1]? with
      | none => pure s.finish
      | some x =>
        if s.i = 0 then pure s.finish
        else
          let s := s.takeSecond 1
          if s.j = 1 then pure s.finishSecond
          else
            let q ← boundary (fun k => ask s.second k fun y => less y x) s.j (s.j - 1)
            let l := s.j - q
            let s := s.takeSecond l
            if s.j = 1 then pure s.finishSecond
            else if s.j = 0 then pure s.finish
            else
              let s := s.takeFirst 1
              if s.i = 0 then pure s.finish
              else if leapLength ≤ n ∨ leapLength ≤ l then merge less fuel .leap s
              else merge less fuel (.single 0 0) { s with threshold := s.threshold + 1 }
    | _, _, _ => pure s.finish

end Back

/-- Merges two stretches.  What is in place already at both ends stays; the shorter of the parts
between them decides on the direction. -/
def mergePair (less : α → α → m Bool) (threshold : Nat) (a b : Array α) : m (Array α × Nat) :=
  match b[0]?, a[a.size - 1]? with
  | some y, some last => do
    let p ← boundary (fun k => ask a k fun x => do pure !(← less y x)) a.size 0
    if p = a.size then pure (a ++ b, threshold)
    else
      let q ← boundary (fun k => ask b k fun y => less y last) b.size (b.size - 1)
      let first := a.extract p a.size
      let second := b.extract 0 q
      if q = 0 then pure (a ++ b, threshold)
      else
        let fuel := first.size + second.size
        let (middle, threshold) ←
          if first.size ≤ second.size then
            let s := (Front.mk first second 0 0 #[] threshold).takeSecond 1
            if s.secondLeft = 0 then pure s.finish
            else if s.firstLeft = 1 then pure s.finishSecond
            else s.merge less fuel (.single 0 0)
          else
            let s := (Back.mk first second first.size second.size [] threshold).takeFirst 1
            if s.i = 0 then pure s.finish
            else if s.j = 1 then pure s.finishSecond
            else s.merge less fuel (.single 0 0)
        pure (a.extract 0 p ++ middle ++ b.extract q b.size, threshold)
  | _, _ => pure (a ++ b, threshold)

end ModelPlaybook.Sorting
