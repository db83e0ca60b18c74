import FrankenSnowflake.Foundation.Varint
import Mathlib.Data.List.Basic

/-!
# Raw Snappy blocks

A block announces the length of its text and goes on with elements: a literal
brings its own bytes, a copy repeats bytes that are there already, and may run
into those it writes.
-/

namespace Foundation.Snappy

abbrev Bytes : Type := List UInt8

/-! ## Elements -/

inductive Element where
  | literal (bytes : Bytes)
  | copy (offset length : Nat)
deriving DecidableEq, Repr

/-- Repeat the byte `offset` bytes back, `length` times. -/
def copyBack (offset : Nat) : Nat → Bytes → Bytes
  | 0, out => out
  | length + 1, out => copyBack offset length (out ++ [out.getD (out.length - offset) 0])

/-- What an element makes of the output so far; a copy stays within it. -/
def Element.apply (out : Bytes) : Element → Option Bytes
  | .literal bytes => some (out ++ bytes)
  | .copy offset length =>
      if 0 < offset ∧ offset ≤ out.length then some (copyBack offset length out) else none

/-- The output of a list of elements. -/
def run (out : Bytes) (elements : List Element) : Option Bytes := elements.foldlM Element.apply out

/-! ## Blocks -/

/-- `width` bytes of a number, the least first. -/
def leBytes : Nat → Nat → Bytes
  | 0, _ => []
  | width + 1, n => .ofNat (n % 256) :: leBytes width (n / 256)

/-- The encodings of an element.  The two low bits of its first byte tell which. -/
inductive Element.Encodes : Element → Bytes → Prop where
  | short {bytes : Bytes} (hpos : 1 ≤ bytes.length) (hle : bytes.length ≤ 60) :
      Encodes (.literal bytes) (.ofNat (4 * (bytes.length - 1)) :: bytes)
  | long {bytes : Bytes} {width : Nat} (hwidth : 1 ≤ width) (hfour : width ≤ 4)
      (hpos : 1 ≤ bytes.length) (hle : bytes.length ≤ 256 ^ width) :
      Encodes (.literal bytes)
        (.ofNat (4 * (59 + width)) :: leBytes width (bytes.length - 1) ++ bytes)
  | copy1 {offset length : Nat} (hfour : 4 ≤ length) (heleven : length ≤ 11)
      (hoffset : offset < 2048) :
      Encodes (.copy offset length)
        (.ofNat (1 + 4 * (length - 4) + 32 * (offset / 256)) :: leBytes 1 offset)
  | copy2 {offset length : Nat} (hpos : 1 ≤ length) (hle : length ≤ 64) (hoffset : offset < 256 ^ 2) :
      Encodes (.copy offset length) (.ofNat (2 + 4 * (length - 1)) :: leBytes 2 offset)
  | copy4 {offset length : Nat} (hpos : 1 ≤ length) (hle : length ≤ 64) (hoffset : offset < 256 ^ 4) :
      Encodes (.copy offset length) (.ofNat (3 + 4 * (length - 1)) :: leBytes 4 offset)

/-- A valid block of a text: its length, and the encodings of elements whose
output it is. -/
def IsBlock (block text : Bytes) : Prop :=
  ∃ elements encodings, List.Forall₂ Element.Encodes elements encodings ∧
    run [] elements = some text ∧ block = Varint.encode text.length ++ encodings.flatten

/-! ## Runs -/

@[simp]
theorem run_nil (out : Bytes) : run out [] = some out := rfl

theorem run_cons (out : Bytes) (e : Element) (elements : List Element) :
    run out (e :: elements) = (e.apply out).bind fun out ↦ run out elements := rfl

theorem run_literal (out bytes : Bytes) (elements : List Element) :
    run out (.literal bytes :: elements) = run (out ++ bytes) elements := rfl

theorem prefix_copyBack (offset length : Nat) (out : Bytes) : out <+: copyBack offset length out := by
  induction length generalizing out with
  | zero => exact List.prefix_rfl
  | succ length ih => exact (List.prefix_append _ _).trans (ih _)

theorem length_copyBack (offset length : Nat) (out : Bytes) :
    (copyBack offset length out).length = out.length + length := by
  induction length generalizing out with
  | zero => rfl
  | succ length ih =>
      rw [copyBack, ih, List.length_append, List.length_singleton]
      omega

/-- A copy of bytes that the text repeats gives the text's next bytes. -/
theorem copyBack_take {text : Bytes} {offset length pos : Nat} (hoffset : 0 < offset)
    (hle : offset ≤ pos) (hlength : pos + length ≤ text.length)
    (hsame : ∀ i < length, text[pos + i]? = text[pos - offset + i]?) :
    copyBack offset length (text.take pos) = text.take (pos + length) := by
  induction length generalizing pos with
  | zero => rfl
  | succ length ih =>
      have hpos : pos < text.length := by omega
      have hlen : (text.take pos).length = pos := List.length_take_of_le hpos.le
      have hbyte : (text.take pos).getD (pos - offset) 0 = text[pos] := by
        have hfirst := hsame 0 (Nat.succ_pos _)
        rw [Nat.add_zero, Nat.add_zero, List.getElem?_eq_getElem hpos] at hfirst
        rw [List.getD_eq_getElem?_getD, List.getElem?_take_of_lt (by omega), ← hfirst]
        rfl
      rw [copyBack, hlen, hbyte, ← List.take_succ_eq_append_getElem hpos,
        ih (by omega) (by omega), Nat.add_right_comm, Nat.add_assoc]
      intro i hi
      have hnext := hsame (i + 1) (by omega)
      rwa [Nat.add_comm i 1, ← Nat.add_assoc, ← Nat.add_assoc,
        show pos - offset + 1 = pos + 1 - offset by omega] at hnext

/-- The output only grows. -/
theorem prefix_of_apply {out out' : Bytes} {e : Element} (h : e.apply out = some out') :
    out <+: out' := by
  cases e with
  | literal bytes => exact Option.some.inj h ▸ List.prefix_append _ _
  | copy offset length =>
      rw [Element.apply] at h
      split_ifs at h
      exact Option.some.inj h ▸ prefix_copyBack _ _ _

theorem prefix_of_run {out text : Bytes} {elements : List Element}
    (h : run out elements = some text) : out <+: text := by
  induction elements generalizing out with
  | nil => exact Option.some.inj h ▸ List.prefix_rfl
  | cons e elements ih =>
      obtain ⟨out', happly, hrun⟩ := Option.bind_eq_some_iff.mp (run_cons out e elements ▸ h)
      exact (prefix_of_apply happly).trans (ih hrun)

end Foundation.Snappy
