import Mathlib.Algebra.GroupWithZero.Nat
import Mathlib.Algebra.Group.Int.Defs
import Mathlib.Data.List.Basic
import Mathlib.Tactic.SplitIfs

/-!
# Decimal numbers

Decimals of a fixed width, signed numbers as a program reads them, and integers
of a fixed number of bits.
-/

namespace Foundation.Digits

/-! ## Decimals of a fixed width -/

/-- A number with zeros in front, up to a width. -/
def padded (width n : Nat) : List Char :=
  List.replicate (width - (Nat.toDigits 10 n).length) '0' ++ Nat.toDigits 10 n

/-- Exactly `width` digits at the front of a text. -/
def readDigits (width : Nat) (s : List Char) : Option (Nat × List Char) :=
  if (s.take width).length = width ∧ (s.take width).all Char.isDigit then
    some (Nat.ofDigitChars 10 (s.take width) 0, s.drop width)
  else none

theorem isDigit_of_mem_padded {width n : Nat} {c : Char} (h : c ∈ padded width n) : c.isDigit := by
  rcases List.mem_append.mp h with hzero | hdigit
  · rw [(List.mem_replicate.mp hzero).2]
    decide
  · exact Nat.isDigit_of_mem_toDigits (by decide) (by decide) hdigit

theorem toDigits_injective : Function.Injective (Nat.toDigits 10) := fun n n' h ↦ by
  rw [← Nat.ofDigitChars_ten_toDigits (n := n), h, Nat.ofDigitChars_ten_toDigits]

theorem ofDigitChars_padded (width n : Nat) : Nat.ofDigitChars 10 (padded width n) 0 = n := by
  rw [padded, Nat.ofDigitChars_append, Nat.ofDigitChars_replicate_zero, Nat.mul_zero,
    Nat.ofDigitChars_ten_toDigits]

theorem le_length_padded (width n : Nat) : width ≤ (padded width n).length := by
  rw [padded, List.length_append, List.length_replicate]
  exact Nat.le_add_of_sub_le (Nat.le_refl _)

theorem length_padded {width n : Nat} (hwidth : 0 < width) (h : n < 10 ^ width) :
    (padded width n).length = width := by
  have hdigits := (Nat.length_toDigits_le_iff (by decide) hwidth).mpr h
  rw [padded, List.length_append, List.length_replicate, Nat.sub_add_cancel hdigits]

/-- A number that is printed to a width is read back. -/
theorem readDigits_padded {width n : Nat} (hwidth : 0 < width) (h : n < 10 ^ width)
    (s : List Char) : readDigits width (padded width n ++ s) = some (n, s) := by
  have hlength := length_padded hwidth h
  have htake : (padded width n ++ s).take width = padded width n := List.take_left' hlength
  have hdrop : (padded width n ++ s).drop width = s := List.drop_left' hlength
  rw [readDigits, htake, hdrop, ofDigitChars_padded, if_pos]
  exact ⟨hlength, List.all_eq_true.mpr fun c hc ↦ isDigit_of_mem_padded hc⟩

/-! ## The value of digits -/

theorem digit_le {c : Char} (h : c.isDigit) : c.toNat - '0'.toNat ≤ 9 := by
  have hbounds := Char.isDigit_iff_toNat.mp h
  have hzero : '0'.toNat = 48 := rfl
  have hnine : '9'.toNat = 57 := rfl
  omega

theorem ofDigitChars_lt {s : List Char} (h : ∀ c ∈ s, c.isDigit) :
    Nat.ofDigitChars 10 s 0 < 10 ^ s.length := by
  induction s with
  | nil => decide
  | cons c s ih =>
      obtain ⟨hc, hs⟩ := List.forall_mem_cons.mp h
      have hdigit := digit_le hc
      have hrest := ih hs
      have hplace : 10 ^ s.length * (c.toNat - '0'.toNat) ≤ 10 ^ s.length * 9 :=
        Nat.mul_le_mul_left _ hdigit
      rw [Nat.ofDigitChars_cons, Nat.mul_zero, Nat.zero_add, Nat.ofDigitChars_eq_ofDigitChars_zero,
        List.length_cons, Nat.pow_succ]
      omega

/-! ## Integers of a number of bits -/

/-- The integers of `bits` bits, in two's complement. -/
def Fits (bits : Nat) (n : Int) : Prop := -2 ^ (bits - 1) ≤ n ∧ n < 2 ^ (bits - 1)

instance (bits : Nat) (n : Int) : Decidable (Fits bits n) := inferInstanceAs (Decidable (_ ∧ _))

/-- A nonempty run of digits. -/
def parseDigits (s : List Char) : Option Nat :=
  if s ≠ [] ∧ s.all Char.isDigit then some (Nat.ofDigitChars 10 s 0) else none

/-- Digits with at most one sign in front. -/
def parseInt : List Char → Option Int
  | '-' :: digits => (parseDigits digits).map fun n : Nat ↦ -(n : Int)
  | '+' :: digits => (parseDigits digits).map Int.ofNat
  | digits => (parseDigits digits).map Int.ofNat

/-- A signed number of `bits` bits. -/
def parseSigned (bits : Nat) (s : List Char) : Option Int :=
  (parseInt s).filter fun n ↦ Fits bits n

theorem parseDigits_eq {s : List Char} (hsome : s ≠ []) (hdigits : s.all Char.isDigit) :
    parseDigits s = some (Nat.ofDigitChars 10 s 0) :=
  if_pos ⟨hsome, hdigits⟩

/-- Digits without a sign are read as they are. -/
theorem parseInt_digits {s : List Char} (hsome : s ≠ []) (hdigits : s.all Char.isDigit) :
    parseInt s = some (Nat.ofDigitChars 10 s 0 : Int) := by
  have hparse := parseDigits_eq hsome hdigits
  unfold parseInt
  split
  · cases hdigits
  · cases hdigits
  · rw [hparse]
    rfl

theorem parseSigned_eq_some {bits : Nat} {s : List Char} {n : Int} :
    parseSigned bits s = some n ↔ parseInt s = some n ∧ Fits bits n := by
  rw [parseSigned, Option.filter_eq_some_iff, decide_eq_true_eq]

theorem fits_of_parseSigned {bits : Nat} {s : List Char} {n : Int}
    (h : parseSigned bits s = some n) : Fits bits n :=
  (parseSigned_eq_some.mp h).2

end Foundation.Digits
