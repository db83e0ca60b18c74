import Mathlib.Data.Nat.Bits
import Mathlib.Tactic.Ring

/-!
# Variable-length numbers

A number in bytes of seven bits, the least first; every byte but the last has its
high bit set.
-/

namespace Foundation.Varint

def encode (n : Nat) : List UInt8 :=
  if n < 128 then [.ofNat n] else .ofNat (n % 128 + 128) :: encode (n / 128)
termination_by n
decreasing_by omega

/-- What is wrong with bytes that hold no number of 64 bits. -/
inductive Fault where
  | truncated
  | overflow
deriving DecidableEq, Repr

/-- Read a number whose bits from `shift` on come next; a byte beyond 64 bits is
refused, and bits that a byte within them has beyond 64 are lost. -/
def decodeFrom (result shift : Nat) : List UInt8 → Except Fault (Nat × List UInt8)
  | [] => .error .truncated
  | byte :: rest =>
      if 64 ≤ shift then .error .overflow
      else
        let result := result ||| (byte.toNat % 128) <<< shift % 2 ^ 64
        if byte.toNat < 128 then .ok (result, rest) else decodeFrom result (shift + 7) rest

/-- The number in front, and the bytes behind it. -/
def decode (bytes : List UInt8) : Except Fault (Nat × List UInt8) := decodeFrom 0 0 bytes

theorem encode_ne_nil (n : Nat) : encode n ≠ [] := by
  rw [encode]
  split <;> exact List.cons_ne_nil _ _

/-- The seven bits of a byte join those below them. -/
theorem or_shiftLeft {result shift bits : Nat} (hresult : result < 2 ^ shift)
    (hfits : bits * 2 ^ shift < 2 ^ 64) :
    result ||| bits <<< shift % 2 ^ 64 = result + bits * 2 ^ shift := by
  rw [Nat.shiftLeft_eq, Nat.mod_eq_of_lt hfits, Nat.or_comm, Nat.mul_comm,
    ← Nat.two_pow_add_eq_or_of_lt hresult, Nat.add_comm]

theorem decodeFrom_encode {n result shift : Nat} (hresult : result < 2 ^ shift)
    (hshift : shift < 64) (hfits : n * 2 ^ shift < 2 ^ 64) (rest : List UInt8) :
    decodeFrom result shift (encode n ++ rest) = .ok (result + n * 2 ^ shift, rest) := by
  induction n using Nat.strongRecOn generalizing result shift with
  | ind n ih =>
      rw [encode]
      by_cases hlast : n < 128
      · have hbyte : (UInt8.ofNat n).toNat = n := by
          rw [UInt8.toNat_ofNat']
          omega
        rw [if_pos hlast, List.cons_append, decodeFrom, if_neg (by omega)]
        dsimp only
        rw [hbyte, if_pos hlast, Nat.mod_eq_of_lt hlast, or_shiftLeft hresult hfits]
        rfl
      · have hbyte : (UInt8.ofNat (n % 128 + 128)).toNat = n % 128 + 128 := by
          rw [UInt8.toNat_ofNat']
          omega
        have hsplit : n = n % 128 + n / 128 * 128 := by omega
        have hpow : 2 ^ (shift + 7) = 128 * 2 ^ shift := by ring
        have hvalue : n * 2 ^ shift = n % 128 * 2 ^ shift + n / 128 * 2 ^ (shift + 7) := by
          rw [hpow, ← Nat.mul_assoc, ← Nat.add_mul, ← hsplit]
        have hlow : n % 128 * 2 ^ shift ≤ 127 * 2 ^ shift := Nat.mul_le_mul_right _ (by omega)
        have hroom : shift + 7 < 64 := by
          refine (Nat.pow_lt_pow_iff_right (by decide : 1 < 2)).mp ?_
          have hone : 1 * 2 ^ (shift + 7) ≤ n / 128 * 2 ^ (shift + 7) :=
            Nat.mul_le_mul_right _ (by omega)
          omega
        rw [if_neg hlast, List.cons_append, decodeFrom, if_neg (by omega)]
        dsimp only
        rw [hbyte, if_neg (by omega), Nat.add_mod_right, Nat.mod_mod,
          or_shiftLeft hresult (by omega), ih (n / 128) (by omega) (by omega) hroom (by omega),
          hvalue, Nat.add_assoc]

/-- A number of 64 bits is read back. -/
theorem decode_encode {n : Nat} (h : n < 2 ^ 64) (rest : List UInt8) :
    decode (encode n ++ rest) = .ok (n, rest) := by
  rw [decode, decodeFrom_encode (by decide) (by decide) (by omega)]
  simp

end Foundation.Varint
