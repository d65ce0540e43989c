import ModelPlaybook.Number.Exponent
import ModelPlaybook.Text.Blank

/-!
# Decimal digits

A decimal digit is a character that Unicode 14 gives a digit value in the decimal system; every
script's ten digits stand together, so a table of the zeros is enough.
-/

namespace ModelPlaybook.Text

/-- The zero of each run of ten decimal digits. -/
def digitZeros : List Nat := [
  0x30, 0x660, 0x6F0, 0x7C0, 0x966, 0x9E6, 0xA66, 0xAE6, 0xB66, 0xBE6, 0xC66, 0xCE6, 0xD66,
  0xDE6, 0xE50, 0xED0, 0xF20, 0x1040, 0x1090, 0x17E0, 0x1810, 0x1946, 0x19D0, 0x1A80, 0x1A90,
  0x1B50, 0x1BB0, 0x1C40, 0x1C50, 0xA620, 0xA8D0, 0xA900, 0xA9D0, 0xA9F0, 0xAA50, 0xABF0,
  0xFF10, 0x104A0, 0x10D30, 0x11066, 0x110F0, 0x11136, 0x111D0, 0x112F0, 0x11450, 0x114D0,
  0x11650, 0x116C0, 0x11730, 0x118E0, 0x11950, 0x11C50, 0x11D50, 0x11DA0, 0x16A60, 0x16AC0,
  0x16B50, 0x1D7CE, 0x1D7D8, 0x1D7E2, 0x1D7EC, 0x1D7F6, 0x1E140, 0x1E2F0, 0x1E950, 0x1FBF0]

/-- The value of a decimal digit of any script. -/
def digitValue? (c : Char) : Option Nat :=
  (digitZeros.find? fun start => start ≤ c.toNat && c.toNat < start + 10).map (c.toNat - ·)

/-- The digits `0` to `9` of ASCII. -/
def isAsciiDigit (c : Char) : Bool :=
  '0' ≤ c && c ≤ '9'

/-- The number a run of ASCII digits writes in base ten. -/
def natOfDigits (cs : List Char) : Nat :=
  cs.foldl (fun n c => 10 * n + (c.toNat - '0'.toNat)) 0

/-- The decimal digits of a number, the most significant first. -/
def digitsOfNat (n : Nat) : List Char :=
  Nat.toDigits 10 n

/-- Lowers a guessed power of ten until it does not exceed `n`. -/
def lowerPower (n : Nat) : Nat → Nat
  | 0 => 0
  | k + 1 => if 10 ^ (k + 1) ≤ n then k + 1 else lowerPower n k

/-- Raises a power of ten as long as the next one does not exceed `n`. -/
def raisePower (n : Nat) : Nat → Nat → Nat
  | 0, k => k
  | fuel + 1, k => if 10 ^ (k + 1) ≤ n then raisePower n fuel (k + 1) else k

/-- The exponent of the greatest power of ten that does not exceed `n`; zero for zero.  The guess
from the binary length makes the search a few steps long, and the search makes the answer
independent of the guess. -/
def decimalLog (n : Nat) : Nat :=
  raisePower n n (lowerPower n (n.log2 * 301029995 / 1000000000))

/-- How many decimal digits a number has; zero has one. -/
def digitCount (n : Nat) : Nat :=
  decimalLog n + 1

theorem lowerPower_eq_zero_or_le (n k : Nat) : lowerPower n k = 0 ∨ 10 ^ lowerPower n k ≤ n := by
  induction k with
  | zero => simp [lowerPower]
  | succ k ih =>
    simp only [lowerPower]
    split
    · exact Or.inr ‹_›
    · exact ih

theorem raisePower_le {n : Nat} (fuel k : Nat) (h : k = 0 ∨ 10 ^ k ≤ n) :
    raisePower n fuel k = 0 ∨ 10 ^ raisePower n fuel k ≤ n := by
  induction fuel generalizing k with
  | zero => simpa [raisePower] using h
  | succ fuel ih =>
    simp only [raisePower]
    split
    · exact ih _ (Or.inr ‹_›)
    · exact h

theorem lt_ten_pow_raisePower {n : Nat} (fuel k : Nat) (h : n < 10 ^ (k + fuel + 1)) :
    n < 10 ^ (raisePower n fuel k + 1) := by
  induction fuel generalizing k with
  | zero => simpa [raisePower] using h
  | succ fuel ih =>
    simp only [raisePower]
    split
    · exact ih _ (by rwa [show k + 1 + fuel + 1 = k + (fuel + 1) + 1 by omega])
    · omega

theorem lt_ten_pow_self (n : Nat) : n < 10 ^ n := by
  induction n with
  | zero => decide
  | succ n ih => rw [Nat.pow_succ]; omega

theorem ten_pow_decimalLog_le {n : Nat} (h : n ≠ 0) : 10 ^ decimalLog n ≤ n := by
  have hstart := lowerPower_eq_zero_or_le n (n.log2 * 301029995 / 1000000000)
  rcases raisePower_le n _ hstart with hz | hle
  · unfold decimalLog
    rw [hz]
    simp
    omega
  · exact hle

theorem lt_ten_pow_digitCount (n : Nat) : n < 10 ^ digitCount n := by
  refine lt_ten_pow_raisePower n _ (Nat.lt_of_lt_of_le (lt_ten_pow_self n) ?_)
  exact Nat.pow_le_pow_right (by decide) (by omega)

/-- The longest run of digits that reads as an integer. -/
def integerDigitLimit : Nat := 4300

end ModelPlaybook.Text
