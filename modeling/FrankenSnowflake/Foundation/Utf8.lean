import Mathlib.Algebra.GroupWithZero.Nat
import Mathlib.Data.List.Basic

/-!
# UTF-8 on lists of bytes

`encode` concatenates the encodings of the characters of a text; `decode` is its
partial inverse, reading one character at a time.  The core library knows the
encoding of one character and how to read it back (`ByteArray.utf8DecodeChar?`);
this file lifts that to texts, and says where an encoded text can be cut.
-/

namespace Foundation.Utf8

/-- The UTF-8 bytes of a text. -/
def encode (cs : List Char) : List UInt8 := cs.flatMap String.utf8EncodeChar

@[simp] theorem encode_nil : encode [] = [] := rfl

@[simp] theorem encode_cons (c : Char) (cs : List Char) :
    encode (c :: cs) = String.utf8EncodeChar c ++ encode cs := rfl

@[simp] theorem encode_append (cs ds : List Char) : encode (cs ++ ds) = encode cs ++ encode ds :=
  List.flatMap_append

/-- The character whose encoding the bytes start with. -/
def firstChar? (bs : List UInt8) : Option Char := bs.toByteArray.utf8DecodeChar? 0

/-- Decode with `fuel` characters to go at most. -/
def decodeFuel : Nat → List UInt8 → Option (List Char)
  | _, [] => some []
  | 0, _ :: _ => none
  | fuel + 1, b :: bs =>
      match firstChar? (b :: bs) with
      | none => none
      | some c => (decodeFuel fuel ((b :: bs).drop c.utf8Size)).map (c :: ·)

/-- Decode a whole byte string; every character takes a byte at least. -/
def decode (bs : List UInt8) : Option (List Char) := decodeFuel bs.length bs

/-- Whether a second byte may follow the first one of a longer encoding. -/
def acceptsSecond (first second : UInt8) : Bool :=
  if first = 0xe0 then 0xa0 ≤ second && second ≤ 0xbf
  else if first = 0xed then 0x80 ≤ second && second ≤ 0x9f
  else if first = 0xf0 then 0x90 ≤ second && second ≤ 0xbf
  else if first = 0xf4 then 0x80 ≤ second && second ≤ 0x8f
  else 0xe1 ≤ first && first ≤ 0xf3 && 0x80 ≤ second && second ≤ 0xbf

/-- How many bytes in front of a malformed text one replacement character
stands for: the longest start of an encoding. -/
def malformedLength : List UInt8 → Nat
  | first :: second :: rest =>
      if acceptsSecond first second then
        if 0xf0 ≤ first && rest.head?.any fun third ↦ 0x80 ≤ third && third ≤ 0xbf then 3 else 2
      else 1
  | [_] | [] => 1

/-- Decode with `fuel` steps to go at most. -/
def lossyFuel : Nat → List UInt8 → List Char
  | _, [] | 0, _ :: _ => []
  | fuel + 1, b :: bs =>
      match firstChar? (b :: bs) with
      | some c => c :: lossyFuel fuel ((b :: bs).drop c.utf8Size)
      | none => '\ufffd' :: lossyFuel fuel ((b :: bs).drop (malformedLength (b :: bs)))

/-- `String::from_utf8_lossy`; every step takes a byte at least. -/
def fromUtf8Lossy (bs : List UInt8) : List Char := lossyFuel bs.length bs

/-! ## Decoding inverts encoding -/

theorem firstChar?_encode (c : Char) (bs : List UInt8) :
    firstChar? (String.utf8EncodeChar c ++ bs) = some c := by
  unfold firstChar?
  rw [List.toByteArray_append]
  exact ByteArray.utf8DecodeChar?_utf8EncodeChar_append

theorem eq_append_of_firstChar? {bs : List UInt8} {c : Char} (h : firstChar? bs = some c) :
    ∃ rest, bs = String.utf8EncodeChar c ++ rest := by
  obtain ⟨rest, hrest⟩ := ByteArray.exists_of_utf8DecodeChar?_eq_some h
  refine ⟨rest.data.toList, ?_⟩
  have hdata := congrArg (fun b : ByteArray ↦ b.data.toList) hrest
  simpa using hdata

theorem utf8EncodeChar_ne_nil (c : Char) : String.utf8EncodeChar c ≠ [] := by
  intro h
  have hlen := congrArg List.length h
  have hpos := c.utf8Size_pos
  simp at hlen
  omega

theorem decodeFuel_encode {fuel : Nat} {cs : List Char} (h : cs.length ≤ fuel) :
    decodeFuel fuel (encode cs) = some cs := by
  induction cs generalizing fuel with
  | nil => cases fuel <;> rfl
  | cons c cs ih =>
      obtain ⟨fuel, rfl⟩ : ∃ k, fuel = k + 1 := ⟨fuel - 1, by simp at h; omega⟩
      obtain ⟨b, bs, hb⟩ := List.exists_cons_of_ne_nil
        (List.append_ne_nil_of_left_ne_nil (utf8EncodeChar_ne_nil c) (encode cs))
      have hfirst : firstChar? (b :: bs) = some c := by rw [← hb, firstChar?_encode]
      have hdrop : (b :: bs).drop c.utf8Size = encode cs := by
        rw [← hb, ← String.length_utf8EncodeChar, List.drop_left]
      have htail : decodeFuel fuel (encode cs) = some cs := ih (by simp at h; omega)
      simp only [encode_cons, hb, decodeFuel, hfirst, hdrop, htail, Option.map_some]

theorem length_le_length_encode (cs : List Char) : cs.length ≤ (encode cs).length := by
  induction cs with
  | nil => exact Nat.le_refl _
  | cons c cs ih =>
      have hpos := c.utf8Size_pos
      simp
      omega

theorem decode_encode (cs : List Char) : decode (encode cs) = some cs :=
  decodeFuel_encode (length_le_length_encode cs)

theorem encode_of_decodeFuel {fuel : Nat} {bs : List UInt8} {cs : List Char}
    (h : decodeFuel fuel bs = some cs) : bs = encode cs := by
  induction fuel generalizing bs cs with
  | zero =>
      cases bs with
      | nil => exact (Option.some.inj h) ▸ rfl
      | cons b bs => cases h
  | succ fuel ih =>
      cases bs with
      | nil => exact (Option.some.inj h) ▸ rfl
      | cons b bs =>
          simp only [decodeFuel] at h
          split at h
          next => cases h
          next c hc =>
            obtain ⟨rest, hrest⟩ := eq_append_of_firstChar? hc
            obtain ⟨cs', hcs', rfl⟩ := Option.map_eq_some_iff.mp h
            rw [hrest, ← String.length_utf8EncodeChar, List.drop_left] at hcs'
            rw [encode_cons, hrest, ih hcs']

/-- Decoding gives the one text with that encoding. -/
theorem decode_eq_some {bs : List UInt8} {cs : List Char} :
    decode bs = some cs ↔ bs = encode cs := by
  constructor
  · exact encode_of_decodeFuel
  · rintro rfl
    exact decode_encode cs

theorem encode_injective : Function.Injective encode := by
  intro cs ds h
  have hdecode := congrArg decode h
  simpa [decode_encode] using hdecode

/-! ## Cutting an encoded text -/

/-- An encoded text can be cut before every byte that can start a character. -/
theorem encode_eq_append {cs : List Char} {s t : List UInt8} (h : encode cs = s ++ t)
    (ht : ∀ b ∈ t.head?, b.IsUTF8FirstByte) :
    ∃ cs₁ cs₂, cs = cs₁ ++ cs₂ ∧ encode cs₁ = s ∧ encode cs₂ = t := by
  induction cs generalizing s with
  | nil =>
      obtain ⟨rfl, rfl⟩ := List.append_eq_nil_iff.mp h.symm
      exact ⟨[], [], rfl, rfl, rfl⟩
  | cons c cs ih =>
      rw [encode_cons] at h
      rcases List.append_eq_append_iff.mp h with ⟨s', rfl, hs'⟩ | ⟨u, hu, rfl⟩
      · obtain ⟨cs₁, cs₂, rfl, rfl, rfl⟩ := ih hs'
        exact ⟨c :: cs₁, cs₂, rfl, rfl, rfl⟩
      · cases u with
        | nil => exact ⟨[c], cs, rfl, by simpa using hu, rfl⟩
        | cons b u =>
            -- `b` starts a character, so it is the first byte of `c`
            have hb : b.IsUTF8FirstByte := ht b rfl
            have hlt : s.length < (String.utf8EncodeChar c).length := by simp [hu]
            have hget : (String.utf8EncodeChar c)[s.length] = b := by simp [hu]
            rw [← hget, UInt8.isUTF8FirstByte_getElem_utf8EncodeChar] at hb
            obtain rfl := List.length_eq_zero_iff.mp hb
            refine ⟨[], c :: cs, rfl, rfl, ?_⟩
            rw [encode_cons, hu]
            rfl

theorem isUTF8FirstByte_head {c : Char} {t : List UInt8} :
    ∀ b ∈ (String.utf8EncodeChar c ++ t).head?, b.IsUTF8FirstByte := by
  intro b hb
  obtain ⟨b', u, hu⟩ := List.exists_cons_of_ne_nil (utf8EncodeChar_ne_nil c)
  have hlt : 0 < (String.utf8EncodeChar c).length := by simp [hu]
  have hget : (String.utf8EncodeChar c)[0] = b' := by simp [hu]
  obtain rfl : b' = b := by simpa [hu] using hb
  rw [← hget, UInt8.isUTF8FirstByte_getElem_utf8EncodeChar]

/-- The encoding of a character inside an encoded text is that character. -/
theorem encode_eq_append_char {cs : List Char} {s t : List UInt8} {c : Char}
    (h : encode cs = s ++ (String.utf8EncodeChar c ++ t)) :
    ∃ cs₁ cs₂, cs = cs₁ ++ c :: cs₂ ∧ encode cs₁ = s ∧ encode cs₂ = t := by
  obtain ⟨cs₁, cs₂, rfl, rfl, hcs₂⟩ := encode_eq_append h isUTF8FirstByte_head
  cases cs₂ with
  | nil => exact absurd hcs₂.symm (List.append_ne_nil_of_left_ne_nil (utf8EncodeChar_ne_nil c) t)
  | cons d cs₂ =>
      have hfirst := congrArg firstChar? hcs₂
      rw [encode_cons, firstChar?_encode, firstChar?_encode] at hfirst
      obtain rfl := Option.some.inj hfirst
      exact ⟨cs₁, cs₂, rfl, rfl, List.append_cancel_left hcs₂⟩

/-- Behind an encoded text, the rest is decoded. -/
theorem decode_append (cs : List Char) (bs : List UInt8) :
    decode (encode cs ++ bs) = (decode bs).map (cs ++ ·) := by
  refine Option.ext fun x ↦ ?_
  rw [decode_eq_some, Option.map_eq_some_iff]
  constructor
  · intro h
    induction cs generalizing x with
    | nil => exact ⟨x, decode_eq_some.mpr h, rfl⟩
    | cons c cs ih =>
        rw [encode_cons, List.append_assoc] at h
        have hx : encode x = [] ++ (String.utf8EncodeChar c ++ (encode cs ++ bs)) := h.symm
        obtain ⟨x₁, x₂, rfl, hx₁, hx₂⟩ := encode_eq_append_char hx
        obtain rfl : x₁ = [] := encode_injective hx₁
        obtain ⟨y, hy, rfl⟩ := ih x₂ hx₂.symm
        exact ⟨y, hy, rfl⟩
  · rintro ⟨y, hy, rfl⟩
    rw [decode_eq_some.mp hy, encode_append]

/-! ## ASCII -/

theorem utf8EncodeChar_ofUInt8 {b : UInt8} (hb : b < 0x80) :
    String.utf8EncodeChar (Char.ofUInt8 b) = [b] := by
  have hval : (Char.ofUInt8 b).val = b.toUInt32 := rfl
  have hlt : b.toNat < 128 := hb
  have hsize : (Char.ofUInt8 b).utf8Size = 1 := by
    rw [Char.utf8Size_eq_one_iff, hval, UInt32.le_iff_toNat_le]
    simp
    omega
  rw [String.utf8EncodeChar_eq_singleton hsize, hval]
  simp

theorem encode_eq_append_ascii {cs : List Char} {s t : List UInt8} {b : UInt8} (hb : b < 0x80)
    (h : encode cs = s ++ b :: t) :
    ∃ cs₁ cs₂, cs = cs₁ ++ Char.ofUInt8 b :: cs₂ ∧ encode cs₁ = s ∧ encode cs₂ = t := by
  refine encode_eq_append_char ?_
  rw [h, utf8EncodeChar_ofUInt8 hb]
  rfl

/-- An ASCII byte stands in an encoded text only for its own character. -/
theorem mem_encode_ascii {cs : List Char} {b : UInt8} (hb : b < 0x80) :
    b ∈ encode cs ↔ Char.ofUInt8 b ∈ cs := by
  constructor
  · intro h
    obtain ⟨s, t, hst⟩ := List.append_of_mem h
    obtain ⟨cs₁, cs₂, rfl, -, -⟩ := encode_eq_append_ascii hb hst
    simp
  · intro h
    refine List.mem_flatMap.mpr ⟨_, h, ?_⟩
    simp [utf8EncodeChar_ofUInt8 hb]

/-- An ASCII character is its own encoding. -/
theorem utf8EncodeChar_ascii {c : Char} (hc : c.toNat < 0x80) :
    (String.utf8EncodeChar c).map Char.ofUInt8 = [c] := by
  have hmod : c.toNat % 256 = c.toNat := Nat.mod_eq_of_lt (Nat.lt_trans hc (by decide : 0x80 < 256))
  have hbyte : c.toNat.toUInt8 < 0x80 := by
    rw [UInt8.lt_iff_toNat_lt]
    simpa [hmod] using hc
  have hchar : Char.ofUInt8 c.toNat.toUInt8 = c := by
    apply Char.ext
    apply UInt32.toNat_inj.mp
    show (c.toNat.toUInt8.toUInt32).toNat = c.toNat
    rw [UInt8.toNat_toUInt32]
    exact hmod
  rw [← hchar, utf8EncodeChar_ofUInt8 hbyte]
  rfl

/-- The bytes of any other character are not ASCII. -/
theorem le_of_mem_utf8EncodeChar {c : Char} (hc : ¬ c.toNat < 0x80) {b : UInt8}
    (hb : b ∈ String.utf8EncodeChar c) : 0x80 ≤ b := by
  by_contra hlt
  have hmem : Char.ofUInt8 b ∈ [c] :=
    (mem_encode_ascii (UInt8.not_le.mp hlt)).mp (by simpa using hb)
  rw [← List.mem_singleton.mp hmem] at hc
  exact hc (UInt8.not_le.mp hlt)

/-- ASCII bytes are the encoding of their characters. -/
theorem encode_map_ofUInt8 {bs : List UInt8} (h : ∀ b ∈ bs, b < 0x80) :
    encode (bs.map Char.ofUInt8) = bs := by
  induction bs with
  | nil => rfl
  | cons b bs ih =>
      obtain ⟨hb, hbs⟩ := List.forall_mem_cons.mp h
      rw [List.map_cons, encode_cons, utf8EncodeChar_ofUInt8 hb, ih hbs]
      rfl

theorem decode_ascii {bs : List UInt8} (h : ∀ b ∈ bs, b < 0x80) :
    decode bs = some (bs.map Char.ofUInt8) :=
  decode_eq_some.mpr (encode_map_ofUInt8 h).symm

end Foundation.Utf8
