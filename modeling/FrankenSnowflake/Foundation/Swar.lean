import Mathlib.Data.List.Basic
import Mathlib.Tactic.Ring

/-!
# Finding a byte in a machine word

The SWAR test for a zero byte: subtract one from every byte of a word at once
and keep the high bits that were clear before.  A borrow can raise a false alarm
above a zero byte, but the lowest zero byte always shows.
-/

namespace Foundation.Swar

/-- Bytes as one number, least significant first. -/
def pack : List UInt8 → Nat
  | [] => 0
  | b :: bs => b.toNat + 256 * pack bs

/-- A 64-bit word from its bytes, least significant first. -/
def word (bs : List UInt8) : UInt64 := UInt64.ofNat (pack bs)

/-- The word whose eight bytes are all `b`. -/
def broadcast (b : UInt8) : UInt64 := word (List.replicate 8 b)

/-- `m - 0x01…01 & !m`: a high bit shows at the lowest zero byte of `m`. -/
def zeroBytes (m : UInt64) : UInt64 := (m - 0x0101010101010101) &&& ~~~m

theorem pack_lt (bs : List UInt8) : pack bs < 256 ^ bs.length := by
  induction bs with
  | nil => simp [pack]
  | cons b bs ih =>
      have hb := b.toNat_lt
      simp only [pack, List.length_cons, Nat.pow_succ]
      omega

theorem pack_xor (bs : List UInt8) (c : UInt8) :
    pack (bs.map (· ^^^ c)) = pack bs ^^^ pack (List.replicate bs.length c) := by
  induction bs with
  | nil => simp [pack]
  | cons b bs ih =>
      have hb := b.toNat_lt
      have hc := c.toNat_lt
      have hbc := (b ^^^ c).toNat_lt
      refine Nat.eq_of_testBit_eq fun i ↦ ?_
      simp only [List.map_cons, pack, List.length_cons, List.replicate_succ, ih, Nat.add_comm _ (256 * _),
        Nat.testBit_xor]
      rw [show (256 : Nat) = 2 ^ 8 from rfl] at *
      rw [Nat.testBit_two_pow_mul_add _ hbc, Nat.testBit_two_pow_mul_add _ hb,
        Nat.testBit_two_pow_mul_add _ hc]
      split
      · rw [UInt8.toNat_xor, Nat.testBit_xor]
      · rw [Nat.testBit_xor]

/-- The number whose `n` bytes are all one. -/
def ones : Nat → Nat
  | 0 => 0
  | n + 1 => 1 + 256 * ones n

theorem ones_lt (n : Nat) : ones n < 256 ^ n := by
  induction n with
  | zero => simp [ones]
  | succ n ih =>
      simp only [ones, Nat.pow_succ]
      omega

theorem testBit_seven_of_mod {n : Nat} (h : n % 256 = 255) : n.testBit (8 * 0 + 7) := by
  have hmod := Nat.testBit_mod_two_pow n 8 7
  rw [show 2 ^ 8 = 256 from rfl, h] at hmod
  have hbit : Nat.testBit 255 7 = true := by decide
  rw [hbit] at hmod
  simpa using hmod.symm

theorem testBit_next_byte {n b k : Nat} (hb : b < 256) :
    (256 * n + b).testBit (8 * (k + 1) + 7) = n.testBit (8 * k + 7) := by
  have hbit := Nat.testBit_two_pow_mul_add n (show b < 2 ^ 8 from hb) (8 * (k + 1) + 7)
  rw [if_neg (by omega)] at hbit
  rw [show (256 : Nat) = 2 ^ 8 from rfl, hbit]
  congr 1

/-- Subtracting one from every byte sets the high bit of the lowest zero byte,
and the complement has it too. -/
theorem exists_testBit_of_zero_mem {bs : List UInt8} (h : (0 : UInt8) ∈ bs) :
    ∃ k < bs.length,
      ((256 ^ bs.length - ones bs.length + pack bs) % 256 ^ bs.length).testBit (8 * k + 7) ∧
      (256 ^ bs.length - 1 - pack bs).testBit (8 * k + 7) := by
  induction bs with
  | nil => simp at h
  | cons b bs ih =>
      have hb := b.toNat_lt
      have hones := ones_lt bs.length
      have hpack := pack_lt bs
      have hlen : 256 ^ (b :: bs).length = 256 * 256 ^ bs.length := by
        rw [List.length_cons, Nat.pow_succ, Nat.mul_comm]
      rw [hlen]
      simp only [List.length_cons, ones, pack]
      generalize 256 ^ bs.length = size at *
      by_cases hzero : b = 0
      · -- the lowest byte is zero: both numbers end in 255
        subst hzero
        refine ⟨0, by simp, testBit_seven_of_mod ?_, testBit_seven_of_mod ?_⟩
        · rw [Nat.mod_mul_right_mod]
          simp
          omega
        · simp
          omega
      · -- no borrow leaves the lowest byte, so the rest is subtracted alone
        have hmem : (0 : UInt8) ∈ bs := (List.mem_cons.mp h).resolve_left fun h0 ↦ hzero h0.symm
        have hpos : 0 < b.toNat := by
          rcases Nat.eq_zero_or_pos b.toNat with h0 | h0
          · exact absurd (UInt8.toNat_inj.mp h0) hzero
          · exact h0
        obtain ⟨k, hk, hsub, hnot⟩ := ih hmem
        refine ⟨k + 1, by omega, ?_, ?_⟩
        · have hsplit : (256 * size - (1 + 256 * ones bs.length) + (b.toNat + 256 * pack bs)) %
              (256 * size) = 256 * ((size - ones bs.length + pack bs) % size) + (b.toNat - 1) := by
            rw [Nat.mod_mul, Nat.add_comm]
            congr 1
            · congr 2
              omega
            · omega
          rw [hsplit, testBit_next_byte (by omega)]
          exact hsub
        · have hsplit : 256 * size - 1 - (b.toNat + 256 * pack bs) =
              256 * (size - 1 - pack bs) + (255 - b.toNat) := by omega
          rw [hsplit, testBit_next_byte (by omega)]
          exact hnot

/-! ## On 64-bit words -/

theorem toNat_word {bs : List UInt8} (h : bs.length = 8) : (word bs).toNat = pack bs := by
  have hlt := pack_lt bs
  rw [h] at hlt
  exact Nat.mod_eq_of_lt hlt

/-- A word with a zero byte has a high bit in `zeroBytes`. -/
theorem zeroBytes_and_ne_zero {bs : List UInt8} (hlen : bs.length = 8) (h : (0 : UInt8) ∈ bs) :
    zeroBytes (word bs) &&& 0x8080808080808080 ≠ 0 := by
  obtain ⟨k, hk, hsub, hnot⟩ := exists_testBit_of_zero_mem h
  rw [hlen] at hk hsub hnot
  have hmask : ∀ k < 8, (0x8080808080808080 : Nat).testBit (8 * k + 7) := by decide
  intro hzero
  have hbit := congrArg (fun w : UInt64 ↦ w.toNat.testBit (8 * k + 7)) hzero
  simp only [zeroBytes, UInt64.toNat_and, UInt64.toNat_sub, UInt64.toNat_not, toNat_word hlen,
    Nat.testBit_and] at hbit
  have hones : (0x0101010101010101 : UInt64).toNat = ones 8 := by decide
  rw [hones, show 2 ^ 64 = 256 ^ 8 from rfl, hsub, show UInt64.size = 256 ^ 8 from rfl, hnot] at hbit
  have hhigh := hmask k hk
  simp at hbit
  simp [hbit] at hhigh

theorem word_xor_broadcast {bs : List UInt8} (hlen : bs.length = 8) (b : UInt8) :
    word bs ^^^ broadcast b = word (bs.map (· ^^^ b)) := by
  apply UInt64.toNat_inj.mp
  rw [UInt64.toNat_xor, broadcast, toNat_word hlen, toNat_word (by simp), toNat_word (by simpa),
    pack_xor, hlen]

/-- A word with the byte `b` raises the alarm for `b`. -/
theorem zeroBytes_xor_broadcast_ne_zero {bs : List UInt8} {b : UInt8} (hlen : bs.length = 8)
    (h : b ∈ bs) : zeroBytes (word bs ^^^ broadcast b) &&& 0x8080808080808080 ≠ 0 := by
  rw [word_xor_broadcast hlen]
  exact zeroBytes_and_ne_zero (by simpa) (List.mem_map.mpr ⟨b, h, by simp⟩)

/-- Two alarms can be read through one mask. -/
theorem or_and_eq_zero {a b m : UInt64} : (a ||| b) &&& m = 0 ↔ a &&& m = 0 ∧ b &&& m = 0 := by
  have hdistrib : (a ||| b) &&& m = (a &&& m) ||| (b &&& m) :=
    UInt64.toBitVec_inj.mp BitVec.and_or_distrib_right
  rw [hdistrib, UInt64.or_eq_zero_iff]

end Foundation.Swar
