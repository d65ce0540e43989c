import ModelPlaybook.Proofs.Failing
import ModelPlaybook.Yaml.Scan

/-!
# What scanning lets out

A text that cannot be cut into tokens is malformed, with two exceptions: an escape may name a number
that no character has, and a version may have too many digits.
-/

namespace ModelPlaybook.Yaml

variable {α β : Type} {P : Fault → Prop}

/-! ## Misfits -/

/-- If a failure is a misfit, its fault has a property. -/
def Failure.Admits (P : Fault → Prop) (f : Failure) : Prop :=
  ∀ fault, f = .misfit fault → P fault

theorem Failure.admits_malformed (problem : Problem) : Failure.Admits P (.malformed problem) := by
  rintro fault ⟨⟩

theorem Failure.admits_misfit {fault : Fault} (hfault : P fault) :
    Failure.Admits P (.misfit fault) := by
  rintro fault' ⟨⟩
  exact hfault

/-- Every misfit that a reader fails with has a property. -/
def LetsOut (P : Fault → Prop) (x : Result α) : Prop :=
  FailsOnly (Failure.Admits P) x

theorem letsOut_iff {x : Result α} :
    LetsOut P x ↔ ∀ fault, x = .error (.misfit fault) → P fault := by
  constructor
  · intro h fault hx
    exact h _ hx fault rfl
  · rintro h failure hx fault rfl
    exact h fault hx

namespace LetsOut

theorem ok (a : α) : LetsOut P (.ok a) :=
  FailsOnly.ok a

theorem refuse (problem : Problem) : LetsOut P (Yaml.refuse problem : Result α) :=
  FailsOnly.error (Failure.admits_malformed problem)

theorem misfit {fault : Fault} (hfault : P fault) :
    LetsOut P (.error (.misfit fault) : Result α) :=
  FailsOnly.error (Failure.admits_misfit hfault)

theorem bind {x : Result α} {f : α → Result β} (hx : LetsOut P x) (hf : ∀ a, LetsOut P (f a)) :
    LetsOut P (x >>= f) :=
  FailsOnly.bind hx hf

theorem ite {c : Prop} [Decidable c] {x y : Result α} (hx : LetsOut P x) (hy : LetsOut P y) :
    LetsOut P (if c then x else y) :=
  FailsOnly.ite hx hy

theorem mapM {f : α → Result β} (hf : ∀ a, LetsOut P (f a)) (as : List α) :
    LetsOut P (as.mapM f) :=
  FailsOnly.mapM hf as

end LetsOut

/-- Every misfit that a reader of characters stumbles over has a property. -/
def StumblesOnly (P : Fault → Prop) (x : Scanned α) : Prop :=
  FailsOnly (fun stumble => stumble.failure.Admits P) x

namespace StumblesOnly

theorem ok (a : α) : StumblesOnly P (.ok a) :=
  FailsOnly.ok a

theorem result {r : Result α} (hr : LetsOut P r) (c : Cursor) : StumblesOnly P (c.result r) :=
  FailsOnly.mapError hr

theorem refuse (c : Cursor) (problem : Problem) :
    StumblesOnly P (c.refuse problem : Scanned α) :=
  result (.refuse problem) c

theorem bind {x : Scanned α} {f : α → Scanned β} (hx : StumblesOnly P x)
    (hf : ∀ a, StumblesOnly P (f a)) : StumblesOnly P (x >>= f) :=
  FailsOnly.bind hx hf

theorem ite {c : Prop} [Decidable c] {x y : Scanned α} (hx : StumblesOnly P x)
    (hy : StumblesOnly P y) : StumblesOnly P (if c then x else y) :=
  FailsOnly.ite hx hy

theorem mapM {f : α → Scanned β} (hf : ∀ a, StumblesOnly P (f a)) (as : List α) :
    StumblesOnly P (as.mapM f) :=
  FailsOnly.mapM hf as

end StumblesOnly

namespace TagText

end TagText

/-- What scanning can let out: the fault of an escape for a number that no character has, and that
of a version with too many digits. -/
inductive ScanMisfit : Fault → Prop where
  | character {code : Nat} {fault : Fault}
      (hcode : QuotedScalar.characterOfCode code = .error (.misfit fault)) : ScanMisfit fault
  | version {count : Nat} (hcount : Text.integerDigitLimit < count) :
      ScanMisfit (WholeText.tooLong count)

namespace Directive

end Directive

/-! ## Scalars -/

namespace QuotedScalar

end QuotedScalar

namespace BlockScalar

end BlockScalar

/-! ## Tokens -/

namespace Scan

end Scan

end ModelPlaybook.Yaml
