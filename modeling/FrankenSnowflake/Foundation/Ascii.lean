import Mathlib.Data.List.Basic
import FrankenSnowflake.Foundation.Utf8

/-!
# ASCII case and byte slices

`Char.toLower` and `Char.toUpper` change the ASCII letters only: they are
`to_ascii_lowercase` and `to_ascii_uppercase`, and two texts are equal ignoring
ASCII case when they have the same lower case.  A slice of a text at a byte
exists at the boundaries of its characters only.
-/

namespace Foundation.Ascii

/-! ## Characters -/

theorem isUpper_eq (c : Char) : c.isUpper = decide (c.val ≥ 'A'.val ∧ c.val ≤ 'Z'.val) := rfl

theorem isLower_eq (c : Char) :
    c.isLower = (decide (c.val ≥ 'a'.val) && decide (c.val ≤ 'z'.val)) := rfl

theorem isAlpha_eq (c : Char) : c.isAlpha = (c.isUpper || c.isLower) := rfl

theorem isUpper_iff {c : Char} : c.isUpper ↔ 65 ≤ c.toNat ∧ c.toNat ≤ 90 := by
  simp [isUpper_eq, UInt32.le_iff_toNat_le]

theorem isLower_iff {c : Char} : c.isLower ↔ 97 ≤ c.toNat ∧ c.toNat ≤ 122 := by
  simp [isLower_eq, UInt32.le_iff_toNat_le]

theorem val_toLower {c : Char} (h : c.isUpper) : c.toLower.val = c.val + ('a'.val - 'A'.val) :=
  congrArg Char.val (dif_pos (of_decide_eq_true h))

theorem val_toUpper {c : Char} (h : c.isLower) : c.toUpper.val = c.val + ('A'.val - 'a'.val) := by
  have hrange : 'a'.val ≤ c.val ∧ c.val ≤ 'z'.val := by simpa [isLower_eq] using h
  show Char.val (dite ('a'.val ≤ c.val ∧ c.val ≤ 'z'.val) _ _) = _
  rw [dif_pos hrange]

theorem toLower_eq_self {c : Char} (h : ¬ c.isUpper) : c.toLower = c :=
  dif_neg fun hval ↦ h (decide_eq_true hval)

theorem toUpper_eq_self {c : Char} (h : ¬ c.isLower) : c.toUpper = c :=
  dif_neg fun hval ↦ h (by simpa [isLower_eq] using hval)

theorem toNat_toLower {c : Char} (h : c.isUpper) : c.toLower.toNat = c.toNat + 32 := by
  have hle := (isUpper_iff.mp h).2
  rw [← Char.toNat_val, val_toLower h, UInt32.toNat_add]
  show (c.toNat + 32) % 2 ^ 32 = c.toNat + 32
  omega

theorem toNat_toUpper {c : Char} (h : c.isLower) : c.toUpper.toNat = c.toNat - 32 := by
  have hle := isLower_iff.mp h
  have hback : ('A'.val - 'a'.val).toNat = 4294967264 := by decide
  rw [← Char.toNat_val, val_toUpper h, UInt32.toNat_add, hback, Char.toNat_val]
  omega

/-- Only letters have a lower case of their own, and it is a letter. -/
theorem toLower_cases (c : Char) : c.toLower = c ∨ (c.isAlpha ∧ c.toLower.isAlpha) := by
  by_cases h : c.isUpper
  · right
    have hrange := isUpper_iff.mp h
    have hlower : c.toLower.isLower := isLower_iff.mpr (by rw [toNat_toLower h]; omega)
    exact ⟨by simp [isAlpha_eq, h], by simp [isAlpha_eq, hlower]⟩
  · exact .inl (toLower_eq_self h)

theorem toLower_toLower (c : Char) : c.toLower.toLower = c.toLower := by
  apply toLower_eq_self
  by_cases h : c.isUpper
  · have hrange := isUpper_iff.mp h
    rw [isUpper_iff, toNat_toLower h]
    omega
  · rwa [toLower_eq_self h]

theorem toUpper_toLower (c : Char) : c.toLower.toUpper = c.toUpper := by
  by_cases h : c.isUpper
  · have hrange := isUpper_iff.mp h
    have hnat := toNat_toLower h
    have hlower : c.toLower.isLower := isLower_iff.mpr (by omega)
    have hself : c.toUpper = c := toUpper_eq_self (by rw [isLower_iff]; omega)
    have hback := toNat_toUpper hlower
    rw [hself]
    exact Char.toNat_inj.mp (by omega)
  · rw [toLower_eq_self h]

/-- Lower case is no other character than a letter. -/
theorem toLower_eq_iff {c d : Char} (hd : d.isAlpha = false) : c.toLower = d ↔ c = d := by
  rcases toLower_cases c with hc | ⟨hc, hlower⟩
  · rw [hc]
  · refine iff_of_false ?_ ?_
    · rintro rfl
      rw [hd] at hlower
      cases hlower
    · rintro rfl
      rw [hd] at hc
      cases hc

theorem toNat_lt_of_isAlpha {c : Char} (h : c.isAlpha) : c.toNat < 0x80 := by
  simp only [isAlpha_eq, isUpper_eq, isLower_eq, Bool.or_eq_true, Bool.and_eq_true,
    decide_eq_true_eq] at h
  rcases h with h | h
  · exact Nat.lt_of_le_of_lt (UInt32.le_iff_toNat_le.mp h.2) (by decide)
  · exact Nat.lt_of_le_of_lt (UInt32.le_iff_toNat_le.mp h.2) (by decide)

/-! ## Texts -/

/-- `str::to_ascii_lowercase`. -/
def lower (s : List Char) : List Char := s.map Char.toLower

/-- `str::to_ascii_uppercase`. -/
def upper (s : List Char) : List Char := s.map Char.toUpper

@[simp] theorem lower_nil : lower [] = [] := rfl

@[simp] theorem lower_cons (c : Char) (s : List Char) : lower (c :: s) = c.toLower :: lower s := rfl

@[simp] theorem lower_append (s t : List Char) : lower (s ++ t) = lower s ++ lower t :=
  List.map_append

@[simp] theorem length_lower (s : List Char) : (lower s).length = s.length := List.length_map _

@[simp] theorem lower_lower (s : List Char) : lower (lower s) = lower s := by
  simp [lower, Function.comp_def, toLower_toLower]

theorem upper_lower (s : List Char) : upper (lower s) = upper s := by
  simp [lower, upper, Function.comp_def, toUpper_toLower]

theorem lower_eq_append {s t u : List Char} (h : lower s = t ++ u) :
    ∃ a b, s = a ++ b ∧ lower a = t ∧ lower b = u :=
  List.map_eq_append_iff.mp h

/-- A character that is no letter stands where the lower case has it. -/
theorem mem_lower {c : Char} (hc : c.isAlpha = false) (s : List Char) : c ∈ lower s ↔ c ∈ s := by
  simp [lower, toLower_eq_iff hc]

/-- A text and its lower case take as many bytes. -/
theorem length_encode_lower (s : List Char) :
    (Utf8.encode (lower s)).length = (Utf8.encode s).length := by
  induction s with
  | nil => rfl
  | cons c s ih =>
      have hsize : c.toLower.utf8Size = c.utf8Size := by
        rcases toLower_cases c with hc | ⟨hc, hlower⟩
        · rw [hc]
        · have hone {d : Char} (hd : d.isAlpha) : d.utf8Size = 1 :=
            Char.utf8Size_eq_one_iff.mpr (Nat.le_of_lt_succ (toNat_lt_of_isAlpha hd))
          rw [hone hc, hone hlower]
      rw [lower_cons, Utf8.encode_cons, Utf8.encode_cons, List.length_append, List.length_append,
        ih, String.length_utf8EncodeChar, String.length_utf8EncodeChar, hsize]

/-! ## Byte slices -/

/-- `str::split_at`: the texts before and from byte `n`; `none` is the panic off
a character boundary. -/
def splitAtByte : Nat → List Char → Option (List Char × List Char)
  | 0, s => some ([], s)
  | _ + 1, [] => none
  | n + 1, c :: s =>
      if c.utf8Size ≤ n + 1 then (splitAtByte (n + 1 - c.utf8Size) s).map fun p ↦ (c :: p.1, p.2)
      else none

theorem splitAtByte_eq_some {n : Nat} {s t u : List Char} :
    splitAtByte n s = some (t, u) ↔ s = t ++ u ∧ (Utf8.encode t).length = n := by
  induction s generalizing n t with
  | nil =>
      cases n with
      | zero =>
          simp only [splitAtByte, Option.some.injEq, Prod.mk.injEq, List.nil_eq,
            List.append_eq_nil_iff]
          constructor
          · rintro ⟨rfl, rfl⟩
            exact ⟨⟨rfl, rfl⟩, rfl⟩
          · rintro ⟨⟨rfl, rfl⟩, -⟩
            exact ⟨rfl, rfl⟩
      | succ n =>
          refine iff_of_false nofun ?_
          rintro ⟨hnil, hlength⟩
          obtain ⟨rfl, rfl⟩ := List.append_eq_nil_iff.mp hnil.symm
          cases hlength
  | cons c s ih =>
      have hpos := c.utf8Size_pos
      cases n with
      | zero =>
          simp only [splitAtByte, Option.some.injEq, Prod.mk.injEq]
          constructor
          · rintro ⟨rfl, rfl⟩
            exact ⟨rfl, rfl⟩
          · rintro ⟨hs, hlength⟩
            cases t with
            | nil => exact ⟨rfl, hs⟩
            | cons d t =>
                rw [Utf8.encode_cons, List.length_append, String.length_utf8EncodeChar] at hlength
                have := d.utf8Size_pos
                omega
      | succ n =>
          rw [splitAtByte]
          cases t with
          | nil =>
              refine iff_of_false ?_ fun h ↦ nomatch h.2
              split_ifs
              · simp
              · nofun
          | cons d t =>
              rw [Utf8.encode_cons, List.length_append, String.length_utf8EncodeChar,
                List.cons_append, List.cons.injEq]
              split_ifs with hsize
              · rw [Option.map_eq_some_iff]
                constructor
                · rintro ⟨⟨t', u'⟩, hsplit, heq⟩
                  cases heq
                  obtain ⟨hs, hlength⟩ := ih.mp hsplit
                  refine ⟨⟨rfl, hs⟩, ?_⟩
                  rw [hlength]
                  omega
                · rintro ⟨⟨rfl, hs⟩, hlength⟩
                  exact ⟨(t, u), ih.mpr ⟨hs, by omega⟩, rfl⟩
              · refine iff_of_false nofun ?_
                rintro ⟨⟨rfl, -⟩, hlength⟩
                omega

/-- Byte `n` of a text, where it has as many, is the boundary of a character. -/
def IsCharBoundary (n : Nat) (s : List Char) : Prop :=
  ∃ t u, s = t ++ u ∧ (Utf8.encode t).length = n

theorem splitAtByte_eq_none {n : Nat} {s : List Char} :
    splitAtByte n s = none ↔ ¬ IsCharBoundary n s := by
  constructor
  · rintro hnone ⟨t, u, hs⟩
    rw [splitAtByte_eq_some.mpr hs] at hnone
    cases hnone
  · intro hs
    cases hsplit : splitAtByte n s with
    | none => rfl
    | some p => exact absurd ⟨p.1, p.2, splitAtByte_eq_some.mp hsplit⟩ hs

end Foundation.Ascii
