/-!
# Powers of natural numbers and integers

A power of a natural number or an integer is the one that the core library computes, also where a
theory of monoids is in scope, so a definition means the same wherever it is read.
-/

namespace ModelPlaybook

/-- The power by repeated multiplication comes before all other ways to read a power. -/
scoped instance (priority := 10000) powerOfNat {α : Type} [NatPow α] : Pow α Nat :=
  instPowNat

end ModelPlaybook
