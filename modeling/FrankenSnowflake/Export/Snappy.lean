import FrankenSnowflake.Foundation.Snappy
import Mathlib.Data.List.Forall2
import Mathlib.Tactic.IntervalCases

/-!
# Snappy compression

The pages of a Parquet file are compressed with a table of the positions at which
four bytes were last seen.  Its positions are kept modulo `2 ^ 16`, so that a
match is searched for in the first 64 KiB of the page only.
-/

namespace FrankenSnowflake.Parquet

open Foundation Foundation.Snappy

/-! ## Compression -/

def emitSnappyLiteral (lit out : Bytes) : Bytes :=
  let len := lit.length
  if len = 0 then out
  else if len ≤ 60 then out ++ (UInt8.ofNat (len - 1) <<< 2 :: lit)
  else if len ≤ 256 then out ++ (0xF0 :: UInt8.ofNat (len - 1) :: lit)
  else
    -- `as u16` keeps the low 16 bits
    let val := (len - 1) % 2 ^ 16
    out ++ (0xF4 :: UInt8.ofNat val :: UInt8.ofNat (val >>> 8) :: lit)

def emitSnappyCopy (offset len : Nat) (out : Bytes) : Bytes :=
  if 4 ≤ len ∧ len ≤ 11 ∧ offset < 2048 then
    let tag := (0x01 : UInt8) ||| ((UInt8.ofNat (len - 4) &&& 0x07) <<< 2) |||
      ((UInt8.ofNat (offset >>> 8) &&& 0x07) <<< 5)
    out ++ [tag, UInt8.ofNat offset]
  else
    let off16 := offset % 2 ^ 16
    out ++ [(0x02 : UInt8) ||| (UInt8.ofNat (min len 64 - 1) <<< 2), UInt8.ofNat off16,
      UInt8.ofNat (off16 >>> 8)]

variable (input : Bytes)

/-- The slot of the four bytes at `pos`. -/
def snappySlot (pos : Nat) : Nat :=
  let byte (i : Nat) : UInt32 := (input.getD (pos + i) 0).toUInt32
  let u4 := byte 0 ||| (byte 1 <<< 8) ||| (byte 2 <<< 16) ||| (byte 3 <<< 24)
  (((u4 * 0x1e35a7bd) >>> 20) &&& 0x0FFF).toNat

/-- The bytes at `candidate` are those at `pos`, which is in reach. -/
def SnappyMatch (candidate pos : Nat) : Prop :=
  candidate < pos ∧ pos - candidate ≤ 65535 ∧ candidate + 4 ≤ input.length ∧
    input[candidate]? = input[pos]? ∧ input[candidate + 1]? = input[pos + 1]? ∧
      input[candidate + 2]? = input[pos + 2]? ∧ input[candidate + 3]? = input[pos + 3]?

instance (candidate pos : Nat) : Decidable (SnappyMatch input candidate pos) :=
  inferInstanceAs (Decidable (_ ∧ _))

/-- A match of `len` bytes goes on for `room` bytes at most. -/
def extendMatch (candidate pos : Nat) : Nat → Nat → Nat
  | 0, len => len
  | room + 1, len =>
      if pos + len < input.length ∧ input[pos + len]? = input[candidate + len]? then
        extendMatch candidate pos room (len + 1)
      else len

theorem le_extendMatch (candidate pos room len : Nat) :
    len ≤ extendMatch input candidate pos room len := by
  induction room generalizing len with
  | zero => exact le_rfl
  | succ room ih =>
      rw [extendMatch]
      split_ifs
      · exact (Nat.le_succ len).trans (ih _)
      · exact le_rfl

/-- The length of a match: four bytes that agree, and 64 at most. -/
def snappyMatchLen (candidate pos : Nat) : Nat := extendMatch input candidate pos 60 4

theorem four_le_snappyMatchLen (candidate pos : Nat) : 4 ≤ snappyMatchLen input candidate pos :=
  le_extendMatch input candidate pos 60 4

/-- The search from `pos` on; the bytes from `litStart` on have not been written. -/
def snappyLoop (table : List Nat) (litStart pos : Nat) (out : Bytes) : Bytes :=
  if pos + 4 ≤ input.length then
    let h := snappySlot input pos
    let candidate := table.getD h 0
    let table := table.set h (pos % 2 ^ 16)
    if SnappyMatch input candidate pos then
      let out := if litStart < pos then emitSnappyLiteral (input.extract litStart pos) out else out
      let matchLen := snappyMatchLen input candidate pos
      snappyLoop table (pos + matchLen) (pos + matchLen)
        (emitSnappyCopy (pos - candidate) matchLen out)
    else snappyLoop table litStart (pos + 1) out
  else if litStart < input.length then emitSnappyLiteral (input.drop litStart) out
  else out
termination_by input.length - pos
decreasing_by
  · exact Nat.sub_lt_sub_left (by omega)
      (Nat.lt_add_of_pos_right (Nat.zero_lt_of_lt (four_le_snappyMatchLen input _ pos)))
  · omega

def snappyCompress : Bytes :=
  let out := Varint.encode input.length
  if input = [] then out
  else if input.length < 16 then emitSnappyLiteral input out
  else snappyLoop input (List.replicate 4096 0) 0 0 out

/-! ## Decompression -/

/-- How a decompression ends without its output: a buffer of a capacity beyond
`isize` panics, and the rest is refused with a message. -/
inductive SnappyFault where
  | capacity
  | sink (message : String)
deriving DecidableEq, Repr

abbrev Decompress (α : Type) : Type := Except SnappyFault α

def endOfStream : SnappyFault := .sink "unexpected end of Thrift compact stream"

/-- `len` bytes copied from `offset` bytes back. -/
def snappyCopy (message : String) (offset len : Nat) (out : Bytes) : Decompress Bytes :=
  if offset = 0 ∨ out.length < offset then .error (.sink message)
  else .ok (copyBack offset len out)

/-- A literal of `len` bytes. -/
def snappyLiteral (len : Nat) (rest out : Bytes) : Decompress Bytes :=
  if rest.length < len then .error endOfStream else .ok (out ++ rest.take len)

/-- The bytes of a literal whose tag has `rawLen`, and how many bytes were read. -/
def snappyLiteralTag (rawLen : Nat) (rest out : Bytes) : Decompress (Bytes × Nat) :=
  if rawLen < 60 then do return (← snappyLiteral (rawLen + 1) rest out, rawLen + 1)
  else if rawLen = 60 then
    match rest with
    | b0 :: rest => do
        let litLen := b0.toNat + 1
        return (← snappyLiteral litLen rest out, 1 + litLen)
    | [] => .error endOfStream
  else if rawLen = 61 then
    match rest with
    | b0 :: b1 :: rest => do
        let litLen := (b0.toNat ||| (b1.toNat <<< 8)) + 1
        return (← snappyLiteral litLen rest out, 2 + litLen)
    | _ => .error endOfStream
  else .error (.sink "large literal lengths not supported")

/-- The output after an element, and how many bytes behind its tag were read. -/
def snappyElement (tag : UInt8) (rest out : Bytes) : Decompress (Bytes × Nat) :=
  match (tag &&& 0x03).toNat with
  | 0 => snappyLiteralTag (tag >>> 2).toNat rest out
  | 1 =>
      match rest with
      | low :: _ => do
          let len := ((tag >>> 2) &&& 0x07).toNat + 4
          let offset := ((tag >>> 5).toNat <<< 8) ||| low.toNat
          return (← snappyCopy "invalid Snappy copy-1 offset" offset len out, 1)
      | [] => .error endOfStream
  | 2 =>
      match rest with
      | b0 :: b1 :: _ => do
          let len := (tag >>> 2).toNat + 1
          let offset := b0.toNat ||| (b1.toNat <<< 8)
          return (← snappyCopy "invalid Snappy copy-2 offset" offset len out, 2)
      | _ => .error endOfStream
  | _ => .error (.sink "unsupported Snappy tag mode")

/-- Elements until the bytes end or the announced length is reached. -/
def snappyElements (uncompressedLen : Nat) (bytes out : Bytes) : Decompress Bytes :=
  match bytes with
  | [] => .ok out
  | tag :: rest =>
      if out.length < uncompressedLen then
        match snappyElement tag rest out with
        | .error fault => .error fault
        | .ok (out, read) => snappyElements uncompressedLen (rest.drop read) out
      else .ok out
termination_by bytes.length
decreasing_by
  rw [List.length_drop, List.length_cons]
  omega

def snappyDecompress (compressed : Bytes) : Decompress Bytes :=
  match Varint.decode compressed with
  | .error .truncated => .error endOfStream
  | .error .overflow => .error (.sink "Thrift varint overflow")
  | .ok (uncompressedLen, bytes) =>
      -- `Vec::with_capacity`
      if 2 ^ 63 ≤ uncompressedLen then .error .capacity
      else snappyElements uncompressedLen bytes []

/-! ## The elements of a page -/

/-- The literals and the copies that the search writes. -/
def snappySearch (table : List Nat) (litStart pos : Nat) : List Element :=
  if pos + 4 ≤ input.length then
    let h := snappySlot input pos
    let candidate := table.getD h 0
    let table := table.set h (pos % 2 ^ 16)
    if SnappyMatch input candidate pos then
      let matchLen := snappyMatchLen input candidate pos
      (if litStart < pos then [.literal (input.extract litStart pos)] else []) ++
        .copy (pos - candidate) matchLen :: snappySearch table (pos + matchLen) (pos + matchLen)
    else snappySearch table litStart (pos + 1)
  else if litStart < input.length then [.literal (input.drop litStart)]
  else []
termination_by input.length - pos
decreasing_by
  · exact Nat.sub_lt_sub_left (by omega)
      (Nat.lt_add_of_pos_right (Nat.zero_lt_of_lt (four_le_snappyMatchLen input _ pos)))
  · omega

def snappyParts : List Element :=
  if input = [] then []
  else if input.length < 16 then [.literal input]
  else snappySearch input (List.replicate 4096 0) 0 0

def emitSnappy (out : Bytes) : Element → Bytes
  | .literal lit => emitSnappyLiteral lit out
  | .copy offset len => emitSnappyCopy offset len out

variable {input}

theorem emitSnappyLiteral_append (lit out : Bytes) :
    emitSnappyLiteral lit out = out ++ emitSnappyLiteral lit [] := by
  unfold emitSnappyLiteral
  dsimp only
  split_ifs
  · rw [List.append_nil]
  all_goals rfl

theorem emitSnappy_append (out : Bytes) (e : Element) :
    emitSnappy out e = out ++ emitSnappy [] e := by
  cases e with
  | literal lit => exact emitSnappyLiteral_append lit out
  | copy offset len =>
      unfold emitSnappy emitSnappyCopy
      dsimp only
      split_ifs <;> rfl

theorem snappyLoop_eq (table : List Nat) (litStart pos : Nat) (out : Bytes) :
    snappyLoop input table litStart pos out =
      out ++ (snappySearch input table litStart pos).flatMap (emitSnappy []) := by
  fun_induction snappySearch input table litStart pos generalizing out with
  | case1 table litStart pos hpos h candidate next hmatch matchLen ih =>
      rw [snappyLoop, if_pos hpos]
      dsimp only
      rw [if_pos hmatch, ih, List.flatMap_append, List.flatMap_cons, ← List.append_assoc,
        ← List.append_assoc]
      congr 1
      have hcopy := emitSnappy_append (if litStart < pos then
        emitSnappyLiteral (input.extract litStart pos) out else out) (.copy (pos - candidate) matchLen)
      refine hcopy.trans (congrArg (· ++ _) ?_)
      split_ifs
      · rw [List.flatMap_singleton]
        exact emitSnappyLiteral_append _ _
      · exact (List.append_nil out).symm
  | case2 table litStart pos hpos h candidate next hmatch ih =>
      rw [snappyLoop, if_pos hpos]
      dsimp only
      rw [if_neg hmatch, ih]
  | case3 table litStart pos hpos hlit =>
      rw [snappyLoop, if_neg hpos, if_pos hlit, List.flatMap_singleton]
      exact emitSnappyLiteral_append _ _
  | case4 table litStart pos hpos hlit =>
      rw [snappyLoop, if_neg hpos, if_neg hlit]
      exact (List.append_nil out).symm

variable (input) in
theorem snappyCompress_eq :
    snappyCompress input =
      Varint.encode input.length ++ (snappyParts input).flatMap (emitSnappy []) := by
  unfold snappyCompress snappyParts
  split_ifs
  · exact (List.append_nil _).symm
  · rw [List.flatMap_singleton]
    exact emitSnappyLiteral_append _ _
  · exact snappyLoop_eq _ _ _ _

/-! ## The search repeats the page -/

/-- The bytes of a match agree, and lie within the page. -/
theorem extendMatch_agrees {candidate pos room len : Nat} (hlen : pos + len ≤ input.length)
    (hsame : ∀ i < len, input[pos + i]? = input[candidate + i]?) :
    pos + extendMatch input candidate pos room len ≤ input.length ∧
      extendMatch input candidate pos room len ≤ len + room ∧
        ∀ i < extendMatch input candidate pos room len, input[pos + i]? = input[candidate + i]? := by
  induction room generalizing len with
  | zero => exact ⟨hlen, le_rfl, hsame⟩
  | succ room ih =>
      rw [extendMatch]
      split_ifs with hnext
      · have hmore : ∀ i < len + 1, input[pos + i]? = input[candidate + i]? := by
          intro i hi
          rcases Nat.lt_succ_iff_lt_or_eq.mp hi with hi | rfl
          · exact hsame i hi
          · exact hnext.2
        obtain ⟨hfits, hroom, hall⟩ := ih (by omega) hmore
        exact ⟨hfits, by omega, hall⟩
      · exact ⟨hlen, by omega, hsame⟩

theorem snappyMatchLen_agrees {candidate pos : Nat} (hpos : pos + 4 ≤ input.length)
    (h : SnappyMatch input candidate pos) :
    pos + snappyMatchLen input candidate pos ≤ input.length ∧
      snappyMatchLen input candidate pos ≤ 64 ∧
        ∀ i < snappyMatchLen input candidate pos, input[pos + i]? = input[candidate + i]? := by
  obtain ⟨-, -, -, h0, h1, h2, h3⟩ := h
  refine extendMatch_agrees hpos fun i hi ↦ ?_
  interval_cases i
  · exact h0.symm
  · exact h1.symm
  · exact h2.symm
  · exact h3.symm

/-- What is written from `litStart` on completes the page. -/
theorem run_snappySearch {table : List Nat} {litStart pos : Nat} (hlit : litStart ≤ pos)
    (hle : pos ≤ input.length) :
    run (input.take litStart) (snappySearch input table litStart pos) = some input := by
  fun_induction snappySearch input table litStart pos with
  | case1 table litStart pos hpos h candidate next hmatch matchLen ih =>
      obtain ⟨hfits, -, hsame⟩ := snappyMatchLen_agrees hpos hmatch
      have hstart : run (input.take litStart)
          ((if litStart < pos then [.literal (input.extract litStart pos)] else []) ++
            .copy (pos - candidate) matchLen :: snappySearch input next (pos + matchLen)
              (pos + matchLen)) =
          run (input.take pos) (.copy (pos - candidate) matchLen ::
            snappySearch input next (pos + matchLen) (pos + matchLen)) := by
        split_ifs with hlt
        · rw [List.singleton_append, run_literal, List.extract_eq_take_drop, ← List.take_add,
            Nat.add_sub_cancel' hlt.le]
        · rw [show litStart = pos by omega]
          rfl
      have hcopy : (Element.copy (pos - candidate) matchLen).apply (input.take pos) =
          some (input.take (pos + matchLen)) := by
        have hreach := hmatch.1
        rw [Element.apply, List.length_take_of_le hle, if_pos ⟨by omega, by omega⟩,
          copyBack_take (by omega) (by omega) hfits]
        intro i hi
        rw [Nat.sub_sub_self hreach.le]
        exact hsame i hi
      rw [hstart, run_cons, hcopy]
      exact ih le_rfl hfits
  | case2 table litStart pos hpos h candidate next hmatch ih => exact ih (by omega) (by omega)
  | case3 table litStart pos hpos hlt =>
      rw [run_literal, List.take_append_drop]
      rfl
  | case4 table litStart pos hpos hlt =>
      rw [List.take_of_length_le (by omega)]
      rfl

/-! ## Bytes of an element -/

/-- What the search writes: no literal is empty, and a copy has its length and its
offset in range. -/
def Emitted : Element → Prop
  | .literal lit => lit ≠ []
  | .copy offset len => 4 ≤ len ∧ len ≤ 64 ∧ 0 < offset ∧ offset ≤ 65535

theorem emitted_snappySearch {table : List Nat} {litStart pos : Nat} :
    ∀ e ∈ snappySearch input table litStart pos, Emitted e := by
  fun_induction snappySearch input table litStart pos with
  | case1 table litStart pos hpos h candidate next hmatch matchLen ih =>
      rw [List.forall_mem_append, List.forall_mem_cons]
      refine ⟨?_, ⟨four_le_snappyMatchLen _ _ _, (snappyMatchLen_agrees hpos hmatch).2.1,
        Nat.sub_pos_of_lt hmatch.1, hmatch.2.1⟩, ih⟩
      split_ifs with hlt
      · rw [List.forall_mem_singleton]
        refine List.ne_nil_of_length_pos ?_
        rw [List.extract_eq_take_drop, List.length_take, List.length_drop]
        omega
      · exact nofun
  | case2 table litStart pos hpos h candidate next hmatch ih => exact ih
  | case3 table litStart pos hpos hlt =>
      rw [List.forall_mem_singleton]
      refine List.ne_nil_of_length_pos ?_
      rw [List.length_drop]
      omega
  | case4 table litStart pos hpos hlt => exact nofun

variable (input) in
theorem emitted_snappyParts : ∀ e ∈ snappyParts input, Emitted e := by
  unfold snappyParts
  split_ifs with hempty
  · exact nofun
  · rw [List.forall_mem_singleton]
    exact hempty
  · exact emitted_snappySearch

variable (input) in
theorem run_snappyParts : run [] (snappyParts input) = some input := by
  unfold snappyParts
  split_ifs with hempty
  · rw [hempty]
    rfl
  · rfl
  · exact run_snappySearch (Nat.zero_le 0) (Nat.zero_le _)

/-- A literal whose length a `u16` announces. -/
def ShortLiteral : Element → Prop
  | .literal lit => lit.length ≤ 2 ^ 16
  | .copy _ _ => True

theorem toNat_and_three (b : UInt8) : (b &&& 0x03).toNat = b.toNat % 4 :=
  Nat.and_two_pow_sub_one_eq_mod b.toNat 2

theorem toNat_shiftRight_two (b : UInt8) : (b >>> 2).toNat = b.toNat / 4 :=
  Nat.shiftRight_eq_div_pow b.toNat 2

theorem toNat_shiftRight_five (b : UInt8) : (b >>> 5).toNat = b.toNat / 32 :=
  Nat.shiftRight_eq_div_pow b.toNat 5

theorem toNat_and_seven (b : UInt8) : (b &&& 0x07).toNat = b.toNat % 8 :=
  Nat.and_two_pow_sub_one_eq_mod b.toNat 3

/-- Two bytes of a number, the least first. -/
theorem toNat_le16 {n : Nat} (h : n < 2 ^ 16) :
    (UInt8.ofNat n).toNat ||| ((UInt8.ofNat (n >>> 8)).toNat <<< 8) = n := by
  rw [UInt8.toNat_ofNat', UInt8.toNat_ofNat', Nat.shiftRight_eq_div_pow, Nat.shiftLeft_eq,
    Nat.or_comm, Nat.mul_comm, ← Nat.two_pow_add_eq_or_of_lt (Nat.mod_lt _ (by decide))]
  omega

theorem ofNat_mod (n : Nat) : UInt8.ofNat (n % 256) = UInt8.ofNat n := by
  apply UInt8.toNat_inj.mp
  rw [UInt8.toNat_ofNat', UInt8.toNat_ofNat', Nat.mod_mod]

theorem leBytes_one (n : Nat) : leBytes 1 n = [UInt8.ofNat n] := by
  rw [leBytes, leBytes, ofNat_mod]

theorem leBytes_two (n : Nat) : leBytes 2 n = [UInt8.ofNat n, UInt8.ofNat (n >>> 8)] := by
  rw [leBytes, leBytes_one, ofNat_mod, Nat.shiftRight_eq_div_pow]

theorem ofNat_shiftLeft_two (n : Nat) : UInt8.ofNat n <<< 2 = UInt8.ofNat (4 * n) := by
  apply UInt8.toNat_inj.mp
  rw [UInt8.toNat_shiftLeft, UInt8.toNat_ofNat', UInt8.toNat_ofNat', Nat.shiftLeft_eq]
  change n % 256 * 4 % 256 = 4 * n % 256
  omega

/-- The tag of a copy of a near offset. -/
theorem copy1_tag {len high : Nat} (hlen : len < 8) (hhigh : high < 8) :
    (0x01 : UInt8) ||| ((UInt8.ofNat len &&& 0x07) <<< 2) ||| ((UInt8.ofNat high &&& 0x07) <<< 5) =
      UInt8.ofNat (1 + 4 * len + 32 * high) := by
  have hall : ∀ len < 8, ∀ high < 8,
      (0x01 : UInt8) ||| ((UInt8.ofNat len &&& 0x07) <<< 2) |||
        ((UInt8.ofNat high &&& 0x07) <<< 5) = UInt8.ofNat (1 + 4 * len + 32 * high) := by
    decide +kernel
  exact hall len hlen high hhigh

theorem copy2_tag {n : Nat} (h : n < 64) :
    (0x02 : UInt8) ||| (UInt8.ofNat n <<< 2) = UInt8.ofNat (2 + 4 * n) := by
  have hall : ∀ n < 64, (0x02 : UInt8) ||| (UInt8.ofNat n <<< 2) = UInt8.ofNat (2 + 4 * n) := by
    decide +kernel
  exact hall n h

theorem emitSnappyLiteral_short {lit : Bytes} (hpos : lit ≠ []) (hle : lit.length ≤ 60) :
    emitSnappyLiteral lit [] = UInt8.ofNat (4 * (lit.length - 1)) :: lit := by
  unfold emitSnappyLiteral
  dsimp only
  rw [if_neg (List.length_pos_of_ne_nil hpos).ne', if_pos hle, ofNat_shiftLeft_two]
  rfl

theorem emitSnappyLiteral_byte {lit : Bytes} (hlt : 60 < lit.length) (hle : lit.length ≤ 256) :
    emitSnappyLiteral lit [] = 0xF0 :: UInt8.ofNat (lit.length - 1) :: lit := by
  unfold emitSnappyLiteral
  dsimp only
  rw [if_neg (by omega), if_neg (by omega), if_pos hle]
  rfl

/-- A longer literal announces its length modulo `2 ^ 16`. -/
theorem emitSnappyLiteral_wide {lit : Bytes} (hlt : 256 < lit.length) :
    emitSnappyLiteral lit [] =
      0xF4 :: UInt8.ofNat ((lit.length - 1) % 2 ^ 16) ::
        UInt8.ofNat (((lit.length - 1) % 2 ^ 16) >>> 8) :: lit := by
  unfold emitSnappyLiteral
  dsimp only
  rw [if_neg (by omega), if_neg (by omega), if_neg (by omega)]
  rfl

theorem emitSnappyCopy_near {offset len : Nat} (hfour : 4 ≤ len) (heleven : len ≤ 11)
    (hoffset : offset < 2048) :
    emitSnappyCopy offset len [] =
      [UInt8.ofNat (1 + 4 * (len - 4) + 32 * (offset / 256)), UInt8.ofNat offset] := by
  unfold emitSnappyCopy
  rw [if_pos ⟨hfour, heleven, hoffset⟩, Nat.shiftRight_eq_div_pow]
  dsimp only
  rw [copy1_tag (by omega) (by omega)]
  rfl

theorem emitSnappyCopy_far {offset len : Nat} (hle : len ≤ 64) (hpos : 0 < len)
    (hoffset : offset ≤ 65535) (hfar : ¬ (4 ≤ len ∧ len ≤ 11 ∧ offset < 2048)) :
    emitSnappyCopy offset len [] =
      [UInt8.ofNat (2 + 4 * (len - 1)), UInt8.ofNat offset, UInt8.ofNat (offset >>> 8)] := by
  unfold emitSnappyCopy
  rw [if_neg hfar]
  dsimp only
  rw [Nat.min_eq_left hle, copy2_tag (by omega), Nat.mod_eq_of_lt (by omega)]
  rfl

/-- What is written for an element is an encoding of it. -/
theorem encodes_emitSnappy {e : Element} (hemitted : Emitted e) (hshort : ShortLiteral e) :
    e.Encodes (emitSnappy [] e) := by
  cases e with
  | literal lit =>
      have hpos := List.length_pos_of_ne_nil hemitted
      change Element.Encodes _ (emitSnappyLiteral lit [])
      by_cases hsmall : lit.length ≤ 60
      · rw [emitSnappyLiteral_short hemitted hsmall]
        exact .short hpos hsmall
      · by_cases hbyte : lit.length ≤ 256
        · rw [emitSnappyLiteral_byte (by omega) hbyte]
          have hlong := @Element.Encodes.long lit 1 le_rfl (by decide) hpos hbyte
          rwa [leBytes_one] at hlong
        · have hle : lit.length ≤ 2 ^ 16 := hshort
          rw [emitSnappyLiteral_wide (by omega), Nat.mod_eq_of_lt (by omega)]
          have hlong := @Element.Encodes.long lit 2 (by decide) (by decide) hpos hle
          rwa [leBytes_two] at hlong
  | copy offset len =>
      obtain ⟨hfour, hle, -, hreach⟩ := hemitted
      change Element.Encodes _ (emitSnappyCopy offset len [])
      by_cases hnear : 4 ≤ len ∧ len ≤ 11 ∧ offset < 2048
      · rw [emitSnappyCopy_near hfour hnear.2.1 hnear.2.2, ← leBytes_one]
        exact .copy1 hfour hnear.2.1 hnear.2.2
      · rw [emitSnappyCopy_far hle (by omega) hreach hnear, ← leBytes_two]
        exact .copy2 (by omega) hle (by omega)

/-! ## Decompression of an element -/

theorem snappyLiteral_append {len : Nat} {lit : Bytes} (h : lit.length = len) (rest out : Bytes) :
    snappyLiteral len (lit ++ rest) out = .ok (out ++ lit) := by
  rw [snappyLiteral, if_neg (by rw [List.length_append]; omega), List.take_left' h]

/-- The tag of a literal. -/
theorem snappyElement_literal {n : Nat} (hn : n < 64) (rest out : Bytes) :
    snappyElement (UInt8.ofNat (4 * n)) rest out = snappyLiteralTag n rest out := by
  have hbyte : (UInt8.ofNat (4 * n)).toNat = 4 * n := by
    rw [UInt8.toNat_ofNat']
    omega
  have htag : (UInt8.ofNat (4 * n) &&& 0x03).toNat = 0 := by
    rw [toNat_and_three, hbyte]
    omega
  have hlen : (UInt8.ofNat (4 * n) >>> 2).toNat = n := by
    rw [toNat_shiftRight_two, hbyte]
    omega
  unfold snappyElement
  rw [htag, hlen]
  rfl

/-- The bytes that a literal announces. -/
theorem snappyElement_wide {n : Nat} (hn : n < 2 ^ 16) (rest out : Bytes) :
    snappyElement 0xF4 (UInt8.ofNat n :: UInt8.ofNat (n >>> 8) :: rest) out =
      (snappyLiteral (n + 1) rest out).map (·, 2 + (n + 1)) := by
  have htag := snappyElement_literal (n := 61) (by decide)
    (UInt8.ofNat n :: UInt8.ofNat (n >>> 8) :: rest) out
  refine htag.trans ?_
  unfold snappyLiteralTag
  rw [if_neg (by decide), if_neg (by decide), if_pos rfl]
  dsimp only
  rw [toNat_le16 hn]
  cases snappyLiteral (n + 1) rest out <;> rfl

theorem snappyElement_near {offset len : Nat} (hfour : 4 ≤ len) (heleven : len ≤ 11)
    (hoffset : offset < 2048) (rest out : Bytes) :
    snappyElement (UInt8.ofNat (1 + 4 * (len - 4) + 32 * (offset / 256)))
        (UInt8.ofNat offset :: rest) out =
      (snappyCopy "invalid Snappy copy-1 offset" offset len out).map (·, 1) := by
  have hbyte : (UInt8.ofNat (1 + 4 * (len - 4) + 32 * (offset / 256))).toNat =
      1 + 4 * (len - 4) + 32 * (offset / 256) := by
    rw [UInt8.toNat_ofNat']
    omega
  generalize UInt8.ofNat (1 + 4 * (len - 4) + 32 * (offset / 256)) = tag at hbyte
  have htag : (tag &&& 0x03).toNat = 1 := by
    rw [toNat_and_three, hbyte]
    omega
  have hlen : ((tag >>> 2) &&& 0x07).toNat + 4 = len := by
    rw [toNat_and_seven, toNat_shiftRight_two, hbyte]
    omega
  have hhigh : ((tag >>> 5).toNat <<< 8) ||| (UInt8.ofNat offset).toNat = offset := by
    rw [toNat_shiftRight_five, hbyte, UInt8.toNat_ofNat', Nat.shiftLeft_eq, Nat.mul_comm,
      ← Nat.two_pow_add_eq_or_of_lt (Nat.mod_lt _ (by decide))]
    omega
  unfold snappyElement
  rw [htag]
  dsimp only
  rw [hlen, hhigh]
  cases snappyCopy "invalid Snappy copy-1 offset" offset len out <;> rfl

theorem snappyElement_far {offset len : Nat} (hpos : 0 < len) (hle : len ≤ 64)
    (hoffset : offset < 2 ^ 16) (rest out : Bytes) :
    snappyElement (UInt8.ofNat (2 + 4 * (len - 1)))
        (UInt8.ofNat offset :: UInt8.ofNat (offset >>> 8) :: rest) out =
      (snappyCopy "invalid Snappy copy-2 offset" offset len out).map (·, 2) := by
  have hbyte : (UInt8.ofNat (2 + 4 * (len - 1))).toNat = 2 + 4 * (len - 1) := by
    rw [UInt8.toNat_ofNat']
    omega
  generalize UInt8.ofNat (2 + 4 * (len - 1)) = tag at hbyte
  have htag : (tag &&& 0x03).toNat = 2 := by
    rw [toNat_and_three, hbyte]
    omega
  have hlen : (tag >>> 2).toNat + 1 = len := by
    rw [toNat_shiftRight_two, hbyte]
    omega
  unfold snappyElement
  rw [htag]
  dsimp only
  rw [hlen, toNat_le16 hoffset]
  cases snappyCopy "invalid Snappy copy-2 offset" offset len out <;> rfl

theorem snappyCopy_apply {message : String} {offset len : Nat} {out out' : Bytes}
    (h : (Element.copy offset len).apply out = some out') :
    snappyCopy message offset len out = .ok out' := by
  rw [Element.apply] at h
  split_ifs at h with hoffset
  rw [snappyCopy, if_neg (by omega), Option.some.inj h]

/-- An element that was written is read back, and nothing behind it. -/
theorem snappyElement_emitSnappy {e : Element} (hemitted : Emitted e) (hshort : ShortLiteral e)
    {out out' : Bytes} (happly : e.apply out = some out') :
    ∃ tag bytes, emitSnappy [] e = tag :: bytes ∧
      ∀ rest, snappyElement tag (bytes ++ rest) out = .ok (out', bytes.length) := by
  cases e with
  | literal lit =>
      obtain rfl : out ++ lit = out' := Option.some.inj happly
      have hpos := List.length_pos_of_ne_nil hemitted
      change ∃ tag bytes, emitSnappyLiteral lit [] = _ ∧ _
      by_cases hsmall : lit.length ≤ 60
      · rw [emitSnappyLiteral_short hemitted hsmall]
        refine ⟨_, _, rfl, fun rest ↦ ?_⟩
        rw [snappyElement_literal (by omega)]
        unfold snappyLiteralTag
        rw [if_pos (by omega), Nat.sub_add_cancel hpos, snappyLiteral_append rfl]
        rfl
      · by_cases hbyte : lit.length ≤ 256
        · rw [emitSnappyLiteral_byte (by omega) hbyte]
          refine ⟨_, _, rfl, fun rest ↦ ?_⟩
          have hlen : (UInt8.ofNat (lit.length - 1)).toNat + 1 = lit.length := by
            rw [UInt8.toNat_ofNat']
            omega
          have htag := snappyElement_literal (n := 60) (by decide)
            (UInt8.ofNat (lit.length - 1) :: (lit ++ rest)) out
          refine htag.trans ?_
          unfold snappyLiteralTag
          rw [if_neg (by decide), if_pos rfl]
          dsimp only
          rw [hlen, snappyLiteral_append rfl, Nat.add_comm]
          rfl
        · have hle : lit.length ≤ 2 ^ 16 := hshort
          rw [emitSnappyLiteral_wide (by omega), Nat.mod_eq_of_lt (by omega)]
          refine ⟨_, _, rfl, fun rest ↦ ?_⟩
          rw [List.cons_append, List.cons_append, snappyElement_wide (by omega),
            snappyLiteral_append (by omega), Nat.sub_add_cancel hpos, Nat.add_comm]
          rfl
  | copy offset len =>
      obtain ⟨hfour, hle, -, hreach⟩ := hemitted
      change ∃ tag bytes, emitSnappyCopy offset len [] = _ ∧ _
      by_cases hnear : 4 ≤ len ∧ len ≤ 11 ∧ offset < 2048
      · rw [emitSnappyCopy_near hfour hnear.2.1 hnear.2.2]
        refine ⟨_, _, rfl, fun rest ↦ ?_⟩
        rw [List.cons_append, snappyElement_near hfour hnear.2.1 hnear.2.2, snappyCopy_apply happly]
        rfl
      · rw [emitSnappyCopy_far hle (by omega) hreach hnear]
        refine ⟨_, _, rfl, fun rest ↦ ?_⟩
        rw [List.cons_append, List.cons_append, snappyElement_far (by omega) hle (by omega),
          snappyCopy_apply happly]
        rfl

/-! ## Decompression of a page -/

theorem length_lt_of_apply {e : Element} (hemitted : Emitted e) {out out' : Bytes}
    (h : e.apply out = some out') : out.length < out'.length := by
  cases e with
  | literal lit =>
      have hpos := List.length_pos_of_ne_nil hemitted
      rw [← Option.some.inj h, List.length_append]
      omega
  | copy offset len =>
      have hfour := hemitted.1
      rw [Element.apply] at h
      split_ifs at h
      rw [← Option.some.inj h, length_copyBack]
      omega

/-- The first element of what is left of a page. -/
theorem snappyElements_cons {e : Element} (hemitted : Emitted e) (hshort : ShortLiteral e)
    {out out' : Bytes} (happly : e.apply out = some out') {len : Nat} (hlen : out'.length ≤ len)
    (rest : Bytes) :
    snappyElements len (emitSnappy [] e ++ rest) out = snappyElements len rest out' := by
  obtain ⟨tag, bytes, hemit, hread⟩ := snappyElement_emitSnappy hemitted hshort happly
  have hgrow := length_lt_of_apply hemitted happly
  rw [hemit, List.cons_append, snappyElements, if_pos (by omega), hread]
  dsimp only
  rw [List.drop_left]

theorem snappyElements_run {elements : List Element} (hemitted : ∀ e ∈ elements, Emitted e)
    (hshort : ∀ e ∈ elements, ShortLiteral e) {out text : Bytes}
    (hrun : run out elements = some text) :
    snappyElements text.length (elements.flatMap (emitSnappy [])) out = .ok text := by
  induction elements generalizing out with
  | nil =>
      rw [← Option.some.inj hrun, List.flatMap_nil, snappyElements]
  | cons e elements ih =>
      rw [List.forall_mem_cons] at hemitted hshort
      obtain ⟨out', happly, hrest⟩ := Option.bind_eq_some_iff.mp (run_cons out e elements ▸ hrun)
      rw [List.flatMap_cons, snappyElements_cons hemitted.1 hshort.1 happly
        (prefix_of_run hrest).length_le]
      exact ih hemitted.2 hshort.2 hrest

/-! ## How far the search reaches -/

theorem getD_lt {table : List Nat} (h : ∀ n ∈ table, n < 2 ^ 16) (i : Nat) :
    table.getD i 0 < 2 ^ 16 := by
  rw [List.getD_eq_getElem?_getD]
  cases hget : table[i]? with
  | none => decide
  | some n => exact h n (List.mem_of_getElem? hget)

theorem lt_of_mem_set {table : List Nat} (h : ∀ n ∈ table, n < 2 ^ 16) (i pos : Nat) :
    ∀ n ∈ table.set i (pos % 2 ^ 16), n < 2 ^ 16 := by
  intro n hn
  rcases List.mem_or_eq_of_mem_set hn with hn | rfl
  · exact h n hn
  · exact Nat.mod_lt _ (by decide)

/-- Every position of the table lies within 64 KiB, and so does every match; the
literal behind the last one has the rest of the page. -/
theorem length_le_of_snappySearch {table : List Nat} {litStart pos : Nat}
    (htable : ∀ n ∈ table, n < 2 ^ 16) (hreach : litStart ≤ 131134)
    (hshort : ∀ e ∈ snappySearch input table litStart pos, ShortLiteral e) :
    input.length ≤ 131134 + 2 ^ 16 := by
  fun_induction snappySearch input table litStart pos with
  | case1 table litStart pos hpos h candidate next hmatch matchLen ih =>
      rw [List.forall_mem_append, List.forall_mem_cons] at hshort
      have hcandidate := getD_lt htable h
      have hle := (snappyMatchLen_agrees hpos hmatch).2.1
      have hoffset := hmatch.2.1
      exact ih (lt_of_mem_set htable _ _) (by omega) hshort.2.2
  | case2 table litStart pos hpos h candidate next hmatch ih =>
      exact ih (lt_of_mem_set htable _ _) hreach hshort
  | case3 table litStart pos hpos hlt =>
      have hle : (input.drop litStart).length ≤ 2 ^ 16 := hshort _ List.mem_cons_self
      rw [List.length_drop] at hle
      omega
  | case4 table litStart pos hpos hlt => omega

/-- No literal is longer than a `u16` can announce. -/
def LiteralsFit (input : Bytes) : Prop := ∀ e ∈ snappyParts input, ShortLiteral e

theorem length_le_of_literalsFit (h : LiteralsFit input) : input.length ≤ 131134 + 2 ^ 16 := by
  unfold LiteralsFit snappyParts at h
  split_ifs at h with hempty hshort
  · rw [hempty]
    exact Nat.zero_le _
  · omega
  · refine length_le_of_snappySearch (fun n hn ↦ ?_) (by decide) h
    rw [List.eq_of_mem_replicate hn]
    decide

/-- A literal is a part of the page. -/
theorem literal_within {elements : List Element} {out text lit : Bytes}
    (hrun : run out elements = some text) (hmem : .literal lit ∈ elements) : lit <:+: text := by
  induction elements generalizing out with
  | nil => cases hmem
  | cons e elements ih =>
      obtain ⟨out', happly, hrest⟩ := Option.bind_eq_some_iff.mp (run_cons out e elements ▸ hrun)
      rcases List.mem_cons.mp hmem with rfl | hmem
      · obtain rfl : out ++ lit = out' := Option.some.inj happly
        exact (List.suffix_append out lit).isInfix.trans (prefix_of_run hrest).isInfix
      · exact ih hrest hmem

theorem literalsFit_of_length_le (h : input.length ≤ 2 ^ 16) : LiteralsFit input := by
  intro e he
  cases e with
  | literal lit => exact (literal_within (run_snappyParts input) he).length_le.trans h
  | copy offset len => trivial

/-! ## Pages -/

/-- Compression loses nothing, and what it gives is a block of the format. -/
structure SnappyLossless (input : Bytes) : Prop where
  decompress : snappyDecompress (snappyCompress input) = .ok input
  block : IsBlock (snappyCompress input) input

/-- A page is compressed without loss if no literal is longer than a `u16` can
announce. -/
theorem snappyCompress_lossless (h : LiteralsFit input) : SnappyLossless input := by
  have hlength := length_le_of_literalsFit h
  constructor
  · rw [snappyCompress_eq, snappyDecompress, Varint.decode_encode (by omega)]
    dsimp only
    rw [if_neg (by omega)]
    exact snappyElements_run (emitted_snappyParts input) h (run_snappyParts input)
  · refine ⟨snappyParts input, (snappyParts input).map (emitSnappy []), ?_, run_snappyParts input, ?_⟩
    · rw [List.forall₂_map_right_iff]
      exact List.forall₂_same.mpr fun e he ↦
        encodes_emitSnappy (emitted_snappyParts input e he) (h e he)
    · rw [← List.flatMap_def]
      exact snappyCompress_eq input

/-- Twenty equal bytes. -/
theorem snappyCompress_lossless_repeated : SnappyLossless (List.replicate 20 97) :=
  snappyCompress_lossless (literalsFit_of_length_le (by decide))

/-! ## Longer literals -/

/-- The bytes that are left of a long literal are read as elements. -/
theorem snappyElements_wide {elements : List Element} (hemitted : ∀ e ∈ elements, Emitted e)
    (hthree : ∀ lit, .literal lit ∈ elements → ∀ b ∈ lit, b = 3)
    (hwide : ¬ ∀ e ∈ elements, ShortLiteral e) {out text : Bytes}
    (hrun : run out elements = some text) :
    ∃ fault, snappyElements text.length (elements.flatMap (emitSnappy [])) out = .error fault := by
  induction elements generalizing out with
  | nil => exact absurd (fun e he ↦ nomatch he) hwide
  | cons e elements ih =>
      rw [List.forall_mem_cons] at hemitted hwide
      obtain ⟨out', happly, hrest⟩ := Option.bind_eq_some_iff.mp (run_cons out e elements ▸ hrun)
      by_cases hshort : ShortLiteral e
      · rw [List.flatMap_cons, snappyElements_cons hemitted.1 hshort happly
          (prefix_of_run hrest).length_le]
        exact ih hemitted.2 (fun lit hlit ↦ hthree lit (List.mem_cons_of_mem _ hlit))
          (fun hall ↦ hwide ⟨hshort, hall⟩) hrest
      · cases e with
        | copy offset len => exact absurd trivial hshort
        | literal lit =>
            obtain rfl : out ++ lit = out' := Option.some.inj happly
            have hlong : 2 ^ 16 < lit.length := Nat.lt_of_not_le hshort
            have hpage := (prefix_of_run hrest).length_le
            rw [List.length_append] at hpage
            obtain ⟨n, hn⟩ : ∃ n, n = (lit.length - 1) % 2 ^ 16 := ⟨_, rfl⟩
            have hread : n + 1 < lit.length := by omega
            -- the first byte that the length leaves out
            have hleft : lit.drop (n + 1) = 3 :: lit.drop (n + 2) := by
              rw [List.drop_eq_getElem_cons hread,
                hthree lit List.mem_cons_self _ (List.getElem_mem hread)]
            rw [List.flatMap_cons]
            generalize elements.flatMap (emitSnappy []) = tail
            have hliteral : snappyLiteral (n + 1) (lit ++ tail) out =
                .ok (out ++ lit.take (n + 1)) := by
              rw [snappyLiteral, if_neg (by rw [List.length_append]; omega),
                List.take_append_of_le_length hread.le]
            have hdrop (b0 b1 : UInt8) : (b0 :: b1 :: (lit ++ tail)).drop (2 + (n + 1)) =
                3 :: (lit.drop (n + 2) ++ tail) := by
              rw [Nat.add_comm, List.drop_succ_cons, List.drop_succ_cons,
                List.drop_append_of_le_length hread.le, hleft, List.cons_append]
            change ∃ fault, snappyElements _ (emitSnappyLiteral lit [] ++ tail) out = _
            refine ⟨.sink "unsupported Snappy tag mode", ?_⟩
            rw [emitSnappyLiteral_wide (by omega), ← hn, List.cons_append, snappyElements,
              if_pos (by omega), List.cons_append, List.cons_append,
              snappyElement_wide (by omega), hliteral]
            dsimp only [Except.map]
            rw [hdrop, snappyElements, if_pos]
            · rfl
            · rw [List.length_append, List.length_take_of_le hread.le]
              omega

/-- A page of 256 KiB whose bytes are all 3. -/
theorem not_snappyCompress_lossless : ¬ ∀ input : Bytes, SnappyLossless input := by
  intro h
  have hlossless := (h (List.replicate 262144 3)).decompress
  have hlength : (List.replicate 262144 (3 : UInt8)).length = 262144 := List.length_replicate
  have hwide : ¬ LiteralsFit (List.replicate 262144 3) := by
    intro hfit
    have hle := length_le_of_literalsFit hfit
    omega
  have hrun := run_snappyParts (List.replicate 262144 3)
  obtain ⟨fault, hfault⟩ := snappyElements_wide (emitted_snappyParts _)
    (fun lit hlit b hb ↦ List.eq_of_mem_replicate ((literal_within hrun hlit).subset hb)) hwide hrun
  rw [snappyCompress_eq, snappyDecompress, Varint.decode_encode (by omega)] at hlossless
  dsimp only at hlossless
  rw [if_neg (by omega), hfault] at hlossless
  cases hlossless

end FrankenSnowflake.Parquet
