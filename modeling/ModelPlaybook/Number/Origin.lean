/-!
# Origins

A NaN equals nothing, not even itself, and yet what holds it takes it for equal to itself.  Objects
of unknown types equal only themselves.  Both are told apart by where they came about.
-/

namespace ModelPlaybook

inductive Origin where
  /-- The result of a computation that nothing refers to yet. -/
  | computed
  /-- The NaN that all documents name. -/
  | document
  /-- The NaN among the constants of the functions on doubles. -/
  | library
  /-- The NaN that all JSON texts name. -/
  | json
  | numbered (n : Nat)
  /-- The stand-in for a blocked name, made as one of many. -/
  | blocked (name : String) (n : Nat)
deriving DecidableEq, Repr, Inhabited

/-- Whether what came about in two ways is one and the same. -/
def Origin.isSame (a b : Origin) : Bool :=
  a = b && a ≠ computed

end ModelPlaybook
