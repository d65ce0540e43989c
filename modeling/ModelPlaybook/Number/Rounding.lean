/-!
# Rounding quotients

One function rounds a quotient of natural numbers to a whole number in each of the usual ways.
The sign is passed along because the floor and the ceiling depend on it.
-/

namespace ModelPlaybook

inductive Rounding where
  | halfEven | halfUp | halfDown | up | down | ceiling | floor | zeroFiveUp
deriving DecidableEq, Repr, Inhabited

namespace Rounding

/-- The name under which model logic knows a rounding mode. -/
def name : Rounding → String
  | halfEven => "ROUND_HALF_EVEN"
  | halfUp => "ROUND_HALF_UP"
  | halfDown => "ROUND_HALF_DOWN"
  | up => "ROUND_UP"
  | down => "ROUND_DOWN"
  | ceiling => "ROUND_CEILING"
  | floor => "ROUND_FLOOR"
  | zeroFiveUp => "ROUND_05UP"

def all : List Rounding :=
  [halfEven, halfUp, halfDown, up, down, ceiling, floor, zeroFiveUp]

def ofName? (s : String) : Option Rounding :=
  all.find? (·.name == s)

/-- Whether a magnitude between `quotient` and `quotient + 1` goes to the upper one; `remainder`
over `divisor` is the part that was cut off, and it is not zero. -/
def goesUp (mode : Rounding) (negative : Bool) (quotient remainder divisor : Nat) : Bool :=
  match mode with
  | halfEven => divisor < 2 * remainder || (2 * remainder == divisor && quotient % 2 == 1)
  | halfUp => divisor ≤ 2 * remainder
  | halfDown => divisor < 2 * remainder
  | up => true
  | down => false
  | ceiling => !negative
  | floor => negative
  | zeroFiveUp => quotient % 5 == 0

/-- The quotient of two numbers as a whole number, rounded in the given mode. -/
def divide (mode : Rounding) (negative : Bool) (dividend divisor : Nat) : Nat :=
  let quotient := dividend / divisor
  let remainder := dividend % divisor
  if remainder = 0 then quotient
  else if mode.goesUp negative quotient remainder divisor then quotient + 1
  else quotient

theorem divide_eq_div_of_dvd (mode : Rounding) (negative : Bool) {dividend divisor : Nat}
    (h : divisor ∣ dividend) : mode.divide negative dividend divisor = dividend / divisor := by
  simp [divide, Nat.mod_eq_zero_of_dvd h]

/-- The rounded quotient is the floor or one more. -/
theorem divide_bounds (mode : Rounding) (negative : Bool) (dividend divisor : Nat) :
    dividend / divisor ≤ mode.divide negative dividend divisor ∧
      mode.divide negative dividend divisor ≤ dividend / divisor + 1 := by
  simp only [divide]
  split
  · omega
  · split <;> omega

end Rounding

end ModelPlaybook
