import Mathlib.Algebra.GroupWithZero.Nat
import Mathlib.Data.List.DropRight

/-!
# Characters of the standard library

What `char` and `str` say of Unicode, as far as the texts of this development
need it.
-/

namespace Foundation.Unicode

/-- `char::is_whitespace`: the Unicode `White_Space` property. -/
def isWhitespace (c : Char) : Bool :=
  let n := c.toNat
  (0x09 ≤ n && n ≤ 0x0d) || n == 0x20 || n == 0x85 || n == 0xa0 || n == 0x1680 ||
    (0x2000 ≤ n && n ≤ 0x200a) || n == 0x2028 || n == 0x2029 || n == 0x202f || n == 0x205f ||
    n == 0x3000

/-- `str::trim_start`. -/
def trimStart (s : List Char) : List Char := s.dropWhile isWhitespace

/-- `str::trim_end`. -/
def trimEnd (s : List Char) : List Char := s.rdropWhile isWhitespace

/-- `str::trim`. -/
def trim (s : List Char) : List Char := trimEnd (trimStart s)

/-- `str::split_whitespace`. -/
def splitWhitespace (s : List Char) : List (List Char) :=
  (s.splitOnP isWhitespace).filter (· ≠ [])

theorem trim_eq_self {s : List Char} (h : ∀ c ∈ s, isWhitespace c = false) : trim s = s := by
  have hstart : trimStart s = s := by
    rw [trimStart, List.dropWhile_eq_self_iff]
    intro hs
    exact Bool.eq_false_iff.mp (h _ (List.getElem_mem hs))
  rw [trim, hstart, trimEnd, List.rdropWhile_eq_self_iff]
  intro hs
  exact Bool.eq_false_iff.mp (h _ (List.getLast_mem hs))

theorem trimStart_trim (s : List Char) : trimStart (trim s) = trim s := by
  rw [trimStart, List.dropWhile_eq_self_iff]
  intro hlength
  obtain ⟨rest, hrest⟩ : trim s <+: trimStart s := List.rdropWhile_prefix isWhitespace _
  have hstart : 0 < (trimStart s).length := by
    rw [← hrest, List.length_append]
    omega
  have hhead : (trim s)[0] = (trimStart s)[0] := by
    simp only [← hrest, List.getElem_append_left hlength]
  rw [hhead]
  exact List.dropWhile_get_zero_not isWhitespace s hstart

@[simp] theorem trim_trim (s : List Char) : trim (trim s) = trim s := by
  rw [trim, trimStart_trim, trim, trimEnd]
  exact List.rdropWhile_idempotent isWhitespace _

theorem mem_of_mem_trim {c : Char} {s : List Char} (h : c ∈ trim s) : c ∈ s := by
  have hend : c ∈ trimStart s := (List.rdropWhile_prefix isWhitespace _).subset h
  exact (List.dropWhile_sublist isWhitespace).subset hend

theorem length_trim_le (s : List Char) : (trim s).length ≤ s.length :=
  (List.rdropWhile_prefix isWhitespace _).length_le.trans
    (List.dropWhile_sublist isWhitespace).length_le

theorem trimStart_cons {c : Char} (hc : isWhitespace c = false) (s : List Char) :
    trimStart (c :: s) = c :: s := by
  rw [trimStart, List.dropWhile_cons_of_neg (by simp [hc])]

/-- Nothing in front of a character that is no whitespace is trimmed. -/
theorem trimEnd_append_cons {c : Char} (hc : isWhitespace c = false) (s t : List Char) :
    trimEnd (s ++ c :: t) = s ++ c :: trimEnd t := by
  induction t using List.reverseRecOn with
  | nil =>
      have hlast : ¬ isWhitespace c := Bool.eq_false_iff.mp hc
      rw [trimEnd, List.rdropWhile_concat_neg _ _ _ hlast]
      rfl
  | append_singleton t d ih =>
      rw [trimEnd] at ih ⊢
      by_cases hd : isWhitespace d
      · rw [← List.cons_append, ← List.append_assoc, List.rdropWhile_concat_pos _ _ _ hd, ih,
          trimEnd, trimEnd, List.rdropWhile_concat_pos _ _ _ hd]
      · rw [← List.cons_append, ← List.append_assoc, List.rdropWhile_concat_neg _ _ _ hd, trimEnd,
          List.rdropWhile_concat_neg _ _ _ hd, List.append_assoc]
        rfl

end Foundation.Unicode
