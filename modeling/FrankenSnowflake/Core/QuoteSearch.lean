import FrankenSnowflake.Core.Jsonv2ScannerCorrect
import Mathlib.Order.Bounds.Basic

/-!
# The search for a quote or a backslash

`find_quote_or_escape` with its loops as they run: eight bytes are read as one
word in the byte order of the machine, a word that raises the alarm is looked
through byte by byte, and so are the bytes behind the last word.
-/

namespace FrankenSnowflake.Jsonv2Scanner

open Foundation

/-- The order in which `from_ne_bytes` takes the bytes of a word. -/
inductive ByteOrder where
  | littleEndian
  | bigEndian
deriving DecidableEq, Repr

/-- `u64::from_ne_bytes`. -/
def fromNeBytes : ByteOrder → List UInt8 → UInt64
  | .littleEndian, arr => Swar.word arr
  | .bigEndian, arr => Swar.word arr.reverse

/-- Whether a word raises the alarm. -/
def wordHit (chunk : UInt64) : Bool :=
  let m₁ := chunk ^^^ 0x2222222222222222
  let m₂ := chunk ^^^ 0x5c5c5c5c5c5c5c5c
  let r₁ := (m₁ - 0x0101010101010101) &&& ~~~m₁
  let r₂ := (m₂ - 0x0101010101010101) &&& ~~~m₂
  (r₁ ||| r₂) &&& 0x8080808080808080 != 0

/-- Whether there is a quote or a backslash at an index. -/
def hitAt (bytes : List UInt8) (i : Nat) : Bool := bytes[i]?.any isQuoteOrEscape

/-- The loop over the last bytes. -/
def scanTail (bytes : List UInt8) (i : Nat) : Option Nat :=
  if i < bytes.length then
    if hitAt bytes i then some i else scanTail bytes (i + 1)
  else none
termination_by bytes.length - i

/-- The loop over the words. -/
def scanWords (order : ByteOrder) (bytes : List UInt8) (i : Nat) : Option Nat :=
  if i + 8 ≤ bytes.length then
    if wordHit (fromNeBytes order ((bytes.drop i).take 8)) then
      match (List.range 8).find? fun j ↦ hitAt bytes (i + j) with
      | some j => some (i + j)
      | none => scanWords order bytes (i + 8)
    else scanWords order bytes (i + 8)
  else scanTail bytes i
termination_by bytes.length - i

/-- `find_quote_or_escape` on a machine of the byte order. -/
def findQuoteOrEscapeOn (order : ByteOrder) (bytes : List UInt8) : Option Nat :=
  scanWords order bytes 0

/-! ## No false negative -/

/-- A word with a quote or a backslash raises the alarm, whatever the order of
its bytes. -/
theorem wordHit_fromNeBytes (order : ByteOrder) {chunk : List UInt8} (hlen : chunk.length = 8)
    (h : ∃ b ∈ chunk, isQuoteOrEscape b) : wordHit (fromNeBytes order chunk) := by
  cases order with
  | littleEndian => exact swarHit_of_mem hlen h
  | bigEndian =>
      obtain ⟨b, hb, hhit⟩ := h
      exact swarHit_of_mem (by rw [List.length_reverse, hlen])
        ⟨b, List.mem_reverse.mpr hb, hhit⟩

theorem exists_mem_of_hitAt {bytes : List UInt8} {i j : Nat} (hj : j < 8)
    (h : hitAt bytes (i + j)) : ∃ b ∈ (bytes.drop i).take 8, isQuoteOrEscape b := by
  obtain ⟨b, hb, hhit⟩ := (Option.any_eq_true _ _).mp h
  refine ⟨b, List.mem_of_getElem? (i := j) ?_, hhit⟩
  rw [List.getElem?_take_of_lt hj, List.getElem?_drop, hb]

/-- A word without the alarm holds no hit. -/
theorem hitAt_eq_false_of_wordHit {order : ByteOrder} {bytes : List UInt8} {i : Nat}
    (hlen : i + 8 ≤ bytes.length)
    (h : ¬ wordHit (fromNeBytes order ((bytes.drop i).take 8))) :
    ∀ j < 8, hitAt bytes (i + j) = false := by
  intro j hj
  rw [← Bool.not_eq_true]
  intro hhit
  refine h (wordHit_fromNeBytes order ?_ (exists_mem_of_hitAt hj hhit))
  rw [List.length_take, List.length_drop]
  omega

/-! ## The first hit -/

/-- The first hit from an index on. -/
def FirstFrom (bytes : List UInt8) (i : Nat) : Option Nat → Prop
  | some k => i ≤ k ∧ hitAt bytes k ∧ ∀ j, i ≤ j → j < k → hitAt bytes j = false
  | none => ∀ j, i ≤ j → hitAt bytes j = false

/-- Indices without a hit can be passed over. -/
theorem FirstFrom.skip {bytes : List UInt8} {i n : Nat} {found : Option Nat}
    (hskip : ∀ j < n, hitAt bytes (i + j) = false) (h : FirstFrom bytes (i + n) found) :
    FirstFrom bytes i found := by
  have hbefore : ∀ j, i ≤ j → j < i + n → hitAt bytes j = false := fun j hi hn ↦ by
    obtain ⟨k, rfl⟩ := Nat.exists_eq_add_of_le hi
    exact hskip k (Nat.add_lt_add_iff_left.mp hn)
  cases found with
  | none =>
      intro j hi
      rcases Nat.lt_or_ge j (i + n) with hn | hn
      · exact hbefore j hi hn
      · exact h j hn
  | some k =>
      obtain ⟨hk, hhit, hfirst⟩ := h
      refine ⟨(Nat.le_add_right i n).trans hk, hhit, fun j hi hlt ↦ ?_⟩
      rcases Nat.lt_or_ge j (i + n) with hn | hn
      · exact hbefore j hi hn
      · exact hfirst j hn hlt

theorem firstFrom_scanTail (bytes : List UInt8) (i : Nat) :
    FirstFrom bytes i (scanTail bytes i) := by
  induction i using scanTail.induct bytes with
  | case1 i hlt hhit =>
      rw [scanTail, if_pos hlt, if_pos hhit]
      exact ⟨Nat.le_refl i, hhit, fun j hi hj ↦ absurd hj (Nat.not_lt.mpr hi)⟩
  | case2 i hlt hhit ih =>
      rw [scanTail, if_pos hlt, if_neg hhit]
      refine ih.skip fun j hj ↦ ?_
      rw [Nat.lt_one_iff.mp hj]
      exact Bool.not_eq_true _ ▸ hhit
  | case3 i hlt =>
      rw [scanTail, if_neg hlt]
      intro j hi
      rw [hitAt, List.getElem?_eq_none ((Nat.not_lt.mp hlt).trans hi)]
      rfl

theorem firstFrom_scanWords (order : ByteOrder) (bytes : List UInt8) (i : Nat) :
    FirstFrom bytes i (scanWords order bytes i) := by
  induction i using scanWords.induct order bytes with
  | case1 i hlen halarm j hfind =>
      rw [scanWords, if_pos hlen, if_pos halarm, hfind]
      obtain ⟨hhit, -, hbefore⟩ := List.find?_range_eq_some.mp hfind
      refine ⟨Nat.le_add_right i j, hhit, fun k hi hlt ↦ ?_⟩
      obtain ⟨j', rfl⟩ := Nat.exists_eq_add_of_le hi
      have hbefore' := hbefore j' (Nat.add_lt_add_iff_left.mp hlt)
      rwa [Bool.not_eq_true'] at hbefore'
  | case2 i hlen halarm hfind ih =>
      rw [scanWords, if_pos hlen, if_pos halarm, hfind]
      refine ih.skip fun j hj ↦ ?_
      have hnone := List.find?_eq_none.mp hfind j (List.mem_range.mpr hj)
      exact Bool.not_eq_true _ ▸ hnone
  | case3 i hlen halarm ih =>
      rw [scanWords, if_pos hlen, if_neg halarm]
      exact ih.skip (hitAt_eq_false_of_wordHit hlen halarm)
  | case4 i hlen =>
      rw [scanWords, if_neg hlen]
      exact firstFrom_scanTail bytes i

theorem hitAt_iff {bytes : List UInt8} {i : Nat} :
    hitAt bytes i ↔ bytes[i]? = some 0x22 ∨ bytes[i]? = some 0x5c := by
  cases h : bytes[i]? with
  | none => simp [hitAt, h]
  | some b => simp [hitAt, h, isQuoteOrEscape]

theorem FirstFrom.eq_some_iff {bytes : List UInt8} {found : Option Nat} {i : Nat}
    (h : FirstFrom bytes 0 found) :
    found = some i ↔ IsLeast { i | bytes[i]? = some 0x22 ∨ bytes[i]? = some 0x5c } i := by
  cases found with
  | none =>
      refine iff_of_false nofun ?_
      rintro ⟨hi, -⟩
      exact absurd (hitAt_iff.mpr hi) (by rw [h i (Nat.zero_le i)]; exact Bool.false_ne_true)
  | some k =>
      obtain ⟨-, hhit, hfirst⟩ := h
      have hleast : IsLeast { i | bytes[i]? = some 0x22 ∨ bytes[i]? = some 0x5c } k := by
        refine ⟨hitAt_iff.mp hhit, fun j hj ↦ ?_⟩
        by_contra hlt
        have hfalse := hfirst j (Nat.zero_le j) (Nat.not_le.mp hlt)
        rw [hitAt_iff.mpr hj] at hfalse
        exact Bool.noConfusion hfalse
      rw [Option.some.injEq]
      exact ⟨fun hk ↦ hk ▸ hleast, fun hi ↦ hleast.unique hi⟩

theorem FirstFrom.eq_none_iff {bytes : List UInt8} {found : Option Nat}
    (h : FirstFrom bytes 0 found) :
    found = none ↔ (0x22 : UInt8) ∉ bytes ∧ (0x5c : UInt8) ∉ bytes := by
  have hmem : (∀ i, hitAt bytes i = false) ↔ (0x22 : UInt8) ∉ bytes ∧ (0x5c : UInt8) ∉ bytes := by
    simp only [← Bool.not_eq_true, hitAt_iff, not_or, List.mem_iff_getElem?, not_exists,
      forall_and]
  rw [← hmem]
  cases found with
  | none => exact iff_of_true rfl fun i ↦ h i (Nat.zero_le i)
  | some k =>
      refine iff_of_false (Option.some_ne_none k) fun hall ↦ ?_
      have hfalse := hall k
      rw [h.2.1] at hfalse
      exact Bool.noConfusion hfalse

/-- The search gives the least index of a quote or a backslash, and nothing
exactly when there is none, on a machine of either byte order. -/
theorem findQuoteOrEscapeOn_exact (order : ByteOrder) (bytes : List UInt8) :
    (∀ i, findQuoteOrEscapeOn order bytes = some i ↔
      IsLeast { i | bytes[i]? = some 0x22 ∨ bytes[i]? = some 0x5c } i) ∧
    (findQuoteOrEscapeOn order bytes = none ↔ (0x22 : UInt8) ∉ bytes ∧ (0x5c : UInt8) ∉ bytes) :=
  ⟨fun _ ↦ (firstFrom_scanWords order bytes 0).eq_some_iff,
    (firstFrom_scanWords order bytes 0).eq_none_iff⟩

/-- The search of the scanner, on a machine of either byte order. -/
theorem findQuoteOrEscapeOn_eq (order : ByteOrder) (bytes : List UInt8) :
    findQuoteOrEscapeOn order bytes = findQuoteOrEscape bytes := by
  have hfirst := firstFrom_scanWords order bytes 0
  cases h : findQuoteOrEscape bytes with
  | none =>
      rw [findQuoteOrEscape_eq, List.findIdx?_eq_none_iff] at h
      refine hfirst.eq_none_iff.mpr ⟨fun hmem ↦ ?_, fun hmem ↦ ?_⟩
      · exact absurd (h _ hmem) (by decide)
      · exact absurd (h _ hmem) (by decide)
  | some n =>
      rw [findQuoteOrEscape_eq, List.findIdx?_eq_some_iff_getElem] at h
      obtain ⟨hn, hhit, hbefore⟩ := h
      have hat : hitAt bytes n := by rw [hitAt, List.getElem?_eq_getElem hn]; exact hhit
      refine hfirst.eq_some_iff.mpr ⟨hitAt_iff.mp hat, fun j hj ↦ ?_⟩
      by_contra hlt
      have hjn := Nat.not_le.mp hlt
      have hj' := hitAt_iff.mpr hj
      rw [hitAt, List.getElem?_eq_getElem (hjn.trans hn)] at hj'
      exact hbefore j hjn hj'

end FrankenSnowflake.Jsonv2Scanner
