import Mathlib.Algebra.GroupWithZero.Nat
import Mathlib.Data.List.Basic

/-!
# Doubles that are integers

The nearest double to a natural number, and the decimal that a program prints
for it: the one with the fewest digits in front of its zeros that is read as the
same double.
-/

namespace Foundation.Double

/-- The nearest number with 53 bits in front of its zeros; of two, the even one. -/
def nearest (n : Nat) : Nat :=
  let unit := 2 ^ (n.log2 - 52)
  let q := n / unit
  let r := n % unit
  if 2 * r > unit ∨ (2 * r = unit ∧ q % 2 = 1) then (q + 1) * unit else q * unit

/-- The multiples of a power of ten next to a number that are read as it. -/
def decimalsAt (x power : Nat) : List Nat :=
  [x / 10 ^ power * 10 ^ power, (x / 10 ^ power + 1) * 10 ^ power].filter fun m ↦ nearest m = x

/-- The nearer of two decimals. -/
def nearer (x m m' : Nat) : Nat := if x - m + (m - x) ≤ x - m' + (m' - x) then m else m'

/-- The shortest decimal of a double up to a power of ten, the nearest of its length. -/
def shortestUpTo (x : Nat) : Nat → Nat
  | 0 => x
  | power + 1 =>
      match decimalsAt x (power + 1) with
      | [] => shortestUpTo x power
      | m :: ms => ms.foldl (nearer x) m

/-- The decimal that is printed for a double of a 64-bit integer. -/
def shortest (x : Nat) : Nat := shortestUpTo x 20

example : shortest (nearest (2 ^ 64 - 1)) = 18446744073709552000 := by decide +kernel

end Foundation.Double
