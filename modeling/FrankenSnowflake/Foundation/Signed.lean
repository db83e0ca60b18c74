import Mathlib.Algebra.GroupWithZero.Nat
import Mathlib.Algebra.Group.Int.Defs
import Mathlib.Order.MinMax
import Mathlib.Tactic.Push

/-!
# Signed machine integers

Sixty-four bit signed integers as integers in a range, with the operations that
stop at the ends of the range and the reading of an unsigned integer that wraps
around.
-/

namespace Foundation.Signed

def minI64 : Int := -2 ^ 63

def maxI64 : Int := 2 ^ 63 - 1

/-- The integers that a signed integer holds. -/
def InRange (x : Int) : Prop := minI64 ≤ x ∧ x ≤ maxI64

instance (x : Int) : Decidable (InRange x) := inferInstanceAs (Decidable (_ ∧ _))

/-- The nearest integer in the range. -/
def clamp (x : Int) : Int := max minI64 (min maxI64 x)

/-- `i64::saturating_add`. -/
def satAdd (x y : Int) : Int := clamp (x + y)

/-- `i64::saturating_sub`. -/
def satSub (x y : Int) : Int := clamp (x - y)

/-- `n as i64` of an `u64`. -/
def ofU64 (n : UInt64) : Int := if n.toNat < 2 ^ 63 then n.toNat else n.toNat - 2 ^ 64

theorem inRange_clamp (x : Int) : InRange (clamp x) := by
  constructor
  · exact le_max_left _ _
  · exact max_le (by decide) (min_le_left _ _)

theorem clamp_of_inRange {x : Int} (h : InRange x) : clamp x = x := by
  rw [clamp, min_eq_right h.2, max_eq_right h.1]

/-- Past the lower end nothing is above zero. -/
theorem le_of_nonneg_le_clamp {x w : Int} (hw : 0 ≤ w) (h : w ≤ clamp x) : w ≤ x := by
  rcases le_max_iff.mp h with hmin | hmax
  · exact absurd (hw.trans hmin) (by decide)
  · exact hmax.trans (min_le_right _ _)

theorem lt_of_nonneg_lt_satSub {x y w : Int} (hw : 0 ≤ w) (h : w < satSub x y) : w < x - y := by
  have hle : w + 1 ≤ x - y := le_of_nonneg_le_clamp (by omega) (Int.add_one_le_of_lt h)
  omega

theorem lt_satAdd {x d : Int} (hx : minI64 ≤ x) (hmax : x < maxI64) (hd : 0 < d) :
    x < satAdd x d := by
  have hlow : InRange (x + 1) := ⟨by omega, by omega⟩
  calc x < x + 1 := by omega
    _ = clamp (x + 1) := (clamp_of_inRange hlow).symm
    _ ≤ clamp (x + d) := max_le_max le_rfl (min_le_min le_rfl (by omega))

theorem ofU64_of_lt {n : UInt64} (h : n.toNat < 2 ^ 63) : ofU64 n = n.toNat := if_pos h

theorem ofU64_of_not_lt {n : UInt64} (h : ¬ n.toNat < 2 ^ 63) : ofU64 n = n.toNat - 2 ^ 64 :=
  if_neg h

/-- From `2 ^ 63` on, the reading is negative. -/
theorem ofU64_nonneg_iff {n : UInt64} : 0 ≤ ofU64 n ↔ n.toNat < 2 ^ 63 := by
  have hn := n.toNat_lt
  by_cases h : n.toNat < 2 ^ 63
  · rw [ofU64_of_lt h]
    exact iff_of_true (Int.natCast_nonneg _) h
  · rw [ofU64_of_not_lt h]
    omega

end Foundation.Signed
