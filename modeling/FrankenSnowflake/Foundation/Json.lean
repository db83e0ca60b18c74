import Mathlib.Data.List.TakeWhile
import FrankenSnowflake.Foundation.Utf8

/-!
# JSON texts

The grammar of RFC 8259 over bytes: a rule is a relation between a piece of text
and the value it spells.  Strings are read in a `Dialect`, which says which
characters stand for themselves and how the four bytes of a `\u` escape are
read, so that a scanner that is laxer than the RFC has a grammar too.
-/

namespace Foundation.Json

open Utf8

/-! ## Whitespace -/

def isWs (b : UInt8) : Bool := b = 0x20 || b = 0x09 || b = 0x0a || b = 0x0d

/-- The rule `ws`. -/
def Ws (w : List UInt8) : Prop := ∀ b ∈ w, isWs b

/-- The rest of a text after leading whitespace. -/
def skipWs (s : List UInt8) : List UInt8 := s.dropWhile isWs

theorem skipWs_of_head {s : List UInt8} (hs : ∀ b ∈ s.head?, isWs b = false) : skipWs s = s := by
  cases s with
  | nil => rfl
  | cons b s => simp [skipWs, hs b rfl]

theorem skipWs_append {w s : List UInt8} (hw : Ws w) : skipWs (w ++ s) = skipWs s := by
  unfold skipWs
  exact List.dropWhile_append_of_pos hw

theorem exists_ws_append (s : List UInt8) : ∃ w, Ws w ∧ s = w ++ skipWs s :=
  ⟨s.takeWhile isWs, fun _ hb ↦ List.mem_takeWhile_imp hb, List.takeWhile_append_dropWhile.symm⟩

theorem isWs_head_skipWs (s : List UInt8) : ∀ b ∈ (skipWs s).head?, isWs b = false := by
  intro b hb
  have hhead := List.head?_dropWhile_not isWs s
  rw [show (s.dropWhile isWs).head? = some b from hb] at hhead
  exact hhead

theorem skipWs_skipWs (s : List UInt8) : skipWs (skipWs s) = skipWs s :=
  skipWs_of_head (isWs_head_skipWs s)

theorem length_skipWs_le (s : List UInt8) : (skipWs s).length ≤ s.length :=
  (List.dropWhile_sublist isWs).length_le

/-- Whitespace in front of a cursor. -/
theorem skipWs_eq_cons {s t : List UInt8} {b : UInt8} (h : skipWs s = b :: t) :
    ∃ w, Ws w ∧ s = w ++ b :: t := by
  obtain ⟨w, hw, hs⟩ := exists_ws_append s
  exact ⟨w, hw, h ▸ hs⟩

/-- Whitespace, then a byte that is none. -/
theorem skipWs_append_cons {w s : List UInt8} {b : UInt8} (hw : Ws w) (hb : isWs b = false) :
    skipWs (w ++ b :: s) = b :: s := by
  rw [skipWs_append hw]
  exact skipWs_of_head (by simpa using hb)

theorem Ws.nil : Ws [] := by simp [Ws]

theorem Ws.append {w w' : List UInt8} (hw : Ws w) (hw' : Ws w') : Ws (w ++ w') := by
  intro b hb
  rcases List.mem_append.mp hb with h | h
  · exact hw b h
  · exact hw' b h

/-! ## Strings -/

/-- The character a two-byte escape stands for. -/
def shortEscape? (b : UInt8) : Option Char :=
  if b = 0x22 then some '"'
  else if b = 0x5c then some '\\'
  else if b = 0x2f then some '/'
  else if b = 0x62 then some '\x08'
  else if b = 0x66 then some '\x0c'
  else if b = 0x6e then some '\n'
  else if b = 0x72 then some '\r'
  else if b = 0x74 then some '\t'
  else none

/-- The value of a hexadecimal digit. -/
def hexDigit? (b : UInt8) : Option Nat :=
  if 0x30 ≤ b && b ≤ 0x39 then some (b.toNat - 0x30)
  else if 0x41 ≤ b && b ≤ 0x46 then some (b.toNat - 0x37)
  else if 0x61 ≤ b && b ≤ 0x66 then some (b.toNat - 0x57)
  else none

/-- The value of a run of hexadecimal digits, most significant first. -/
def hexDigits? (acc : Nat) : List UInt8 → Option Nat
  | [] => some acc
  | b :: bs =>
      match hexDigit? b with
      | none => none
      | some d => hexDigits? (acc * 16 + d) bs

theorem hexDigit?_lt {b : UInt8} {d : Nat} (h : hexDigit? b = some d) : d < 16 := by
  have hb := b.toNat_lt
  simp only [hexDigit?, Bool.and_eq_true, decide_eq_true_eq, UInt8.le_iff_toNat_le] at h
  split_ifs at h with h₁ h₂ h₃
  · simp at h₁ h
    omega
  · simp at h₂ h
    omega
  · simp at h₃ h
    omega

theorem hexDigit?_ascii {b : UInt8} {d : Nat} (h : hexDigit? b = some d) : b < 0x80 := by
  simp only [hexDigit?, Bool.and_eq_true, decide_eq_true_eq, UInt8.le_iff_toNat_le] at h
  rw [UInt8.lt_iff_toNat_lt]
  split_ifs at h with h₁ h₂ h₃
  · simp at h₁ ⊢
    omega
  · simp at h₂ ⊢
    omega
  · simp at h₃ ⊢
    omega

theorem hexDigits?_ascii {acc n : Nat} {bs : List UInt8} (h : hexDigits? acc bs = some n) :
    ∀ b ∈ bs, b < 0x80 := by
  induction bs generalizing acc with
  | nil => simp
  | cons b bs ih =>
      simp only [hexDigits?] at h
      split at h
      next => cases h
      next d hd => exact List.forall_mem_cons.mpr ⟨hexDigit?_ascii hd, ih h⟩

theorem hexDigits?_lt {acc n : Nat} {bs : List UInt8} (h : hexDigits? acc bs = some n) :
    n < (acc + 1) * 16 ^ bs.length := by
  induction bs generalizing acc with
  | nil =>
      simp only [hexDigits?, Option.some.injEq] at h
      simp
      omega
  | cons b bs ih =>
      simp only [hexDigits?] at h
      split at h
      next => cases h
      next d hd =>
        have hlt := hexDigit?_lt hd
        calc n < (acc * 16 + d + 1) * 16 ^ bs.length := ih h
          _ ≤ ((acc + 1) * 16) * 16 ^ bs.length := Nat.mul_le_mul_right _ (by omega)
          _ = (acc + 1) * 16 ^ (b :: bs).length := by
              rw [List.length_cons, Nat.pow_succ, Nat.mul_assoc, Nat.mul_comm 16]

/-- What a reader of JSON strings accepts: which characters stand for
themselves, and the code unit that four bytes after `\u` spell. -/
structure Dialect where
  raw : Char → Bool
  hex4 : List UInt8 → Option Nat
  /-- Four bytes spell a 16-bit code unit. -/
  hex4_lt : ∀ {ds n}, ds.length = 4 → hex4 ds = some n → n < 0x10000

/-- The strings of RFC 8259: `unescaped` characters and four hexadecimal digits. -/
def rfc8259 : Dialect where
  raw c := 0x20 ≤ c.toNat && c ≠ '"' && c ≠ '\\'
  hex4 := hexDigits? 0
  hex4_lt := by
    intro ds n hlen h
    have hlt := hexDigits?_lt h
    rw [hlen] at hlt
    omega

def isHighSurrogate (n : Nat) : Bool := 0xd800 ≤ n && n ≤ 0xdbff

def isLowSurrogate (n : Nat) : Bool := 0xdc00 ≤ n && n ≤ 0xdfff

/-- The code point of a surrogate pair. -/
def pairScalar (hi lo : Nat) : Nat := 0x10000 + ((hi - 0xd800) * 0x400 + (lo - 0xdc00))

/-- An escape and the character it spells. -/
inductive EscapeText (D : Dialect) : List UInt8 → Char → Prop where
  | short {b : UInt8} {c : Char} (h : shortEscape? b = some c) : EscapeText D [0x5c, b] c
  | unicode {ds : List UInt8} {n : Nat} (hlen : ds.length = 4) (h : D.hex4 ds = some n)
      (hhi : isHighSurrogate n = false) (hlo : isLowSurrogate n = false) :
      EscapeText D (0x5c :: 0x75 :: ds) (Char.ofNat n)
  | pair {ds es : List UInt8} {hi lo : Nat} (hds : ds.length = 4) (hes : es.length = 4)
      (hhi : D.hex4 ds = some hi) (hlo : D.hex4 es = some lo) (hhi' : isHighSurrogate hi)
      (hlo' : isLowSurrogate lo) :
      EscapeText D (0x5c :: 0x75 :: (ds ++ 0x5c :: 0x75 :: es)) (Char.ofNat (pairScalar hi lo))

/-- An escape starts with a backslash and goes on. -/
theorem EscapeText.eq_cons {D : Dialect} {e : List UInt8} {c : Char} (h : EscapeText D e c) :
    ∃ b e', e = 0x5c :: b :: e' := by
  cases h with
  | short => exact ⟨_, _, rfl⟩
  | unicode => exact ⟨_, _, rfl⟩
  | pair => exact ⟨_, _, rfl⟩

/-- The characters between the quotes of a string, and its value. -/
inductive BodyText (D : Dialect) : List UInt8 → List Char → Prop where
  | nil : BodyText D [] []
  | raw {c : Char} {t : List UInt8} {cs : List Char} (h : D.raw c) (ht : BodyText D t cs) :
      BodyText D (String.utf8EncodeChar c ++ t) (c :: cs)
  | escape {e : List UInt8} {c : Char} {t : List UInt8} {cs : List Char} (he : EscapeText D e c)
      (ht : BodyText D t cs) : BodyText D (e ++ t) (c :: cs)

/-- The rule `string`, with its value. -/
def StringText (D : Dialect) (s : List UInt8) (cs : List Char) : Prop :=
  ∃ t, s = 0x22 :: (t ++ [0x22]) ∧ BodyText D t cs

theorem BodyText.append_raw {D : Dialect} {cs ds : List Char} {t : List UInt8}
    (hcs : ∀ c ∈ cs, D.raw c) (ht : BodyText D t ds) :
    BodyText D (encode cs ++ t) (cs ++ ds) := by
  induction cs with
  | nil => exact ht
  | cons c cs ih =>
      obtain ⟨hc, hcs⟩ := List.forall_mem_cons.mp hcs
      rw [encode_cons, List.append_assoc]
      exact .raw hc (ih hcs)

/-- A dialect that reads everything another one reads, and reads it the same. -/
structure Dialect.Extends (D D' : Dialect) : Prop where
  raw : ∀ {c}, D'.raw c → D.raw c
  hex4 : ∀ {ds n}, ds.length = 4 → D'.hex4 ds = some n → D.hex4 ds = some n

section Extends

variable {D D' : Dialect} (hD : D.Extends D')
include hD

theorem EscapeText.extend {e : List UInt8} {c : Char} (h : EscapeText D' e c) :
    EscapeText D e c := by
  cases h with
  | short h => exact .short h
  | unicode hlen h hhi hlo => exact .unicode hlen (hD.hex4 hlen h) hhi hlo
  | pair hds hes hhi hlo hhi' hlo' =>
      exact .pair hds hes (hD.hex4 hds hhi) (hD.hex4 hes hlo) hhi' hlo'

theorem BodyText.extend {t : List UInt8} {cs : List Char} (h : BodyText D' t cs) :
    BodyText D t cs := by
  induction h with
  | nil => exact .nil
  | raw h _ ih => exact .raw (hD.raw h) ih
  | escape he _ ih => exact .escape (he.extend hD) ih

theorem StringText.extend {s : List UInt8} {cs : List Char} (h : StringText D' s cs) :
    StringText D s cs := by
  obtain ⟨t, rfl, ht⟩ := h
  exact ⟨t, rfl, ht.extend hD⟩

end Extends

/-! ## Arrays -/

section Arrays

variable {α : Type*}

/-- One or more elements with value separators between them, each followed by
whitespace. -/
inductive Elements (P : List UInt8 → α → Prop) : List UInt8 → List α → Prop where
  | one {t w : List UInt8} {a : α} (ht : P t a) (hw : Ws w) : Elements P (t ++ w) [a]
  | cons {t w w' ts : List UInt8} {a : α} {as : List α} (ht : P t a) (hw : Ws w) (hw' : Ws w')
      (hts : Elements P ts as) : Elements P (t ++ (w ++ 0x2c :: (w' ++ ts))) (a :: as)

/-- The rule `array`, with the values of its elements. -/
inductive ArrayText (P : List UInt8 → α → Prop) : List UInt8 → List α → Prop where
  | empty {w : List UInt8} (hw : Ws w) : ArrayText P (0x5b :: (w ++ [0x5d])) []
  | elements {w ts : List UInt8} {as : List α} (hw : Ws w) (hts : Elements P ts as) :
      ArrayText P (0x5b :: (w ++ (ts ++ [0x5d]))) as

/-- The rule `JSON-text`: a value between whitespace. -/
def Text (P : List UInt8 → α → Prop) (s : List UInt8) (a : α) : Prop :=
  ∃ w t w', Ws w ∧ P t a ∧ Ws w' ∧ s = w ++ (t ++ w')

theorem text_append {P : List UInt8 → α → Prop} {w s : List UInt8} {a : α} (hw : Ws w) :
    Text P s a → Text P (w ++ s) a := by
  rintro ⟨w₁, t, w₂, hw₁, ht, hw₂, rfl⟩
  exact ⟨w ++ w₁, t, w₂, hw.append hw₁, ht, hw₂, by simp⟩

theorem Text.mono {P Q : List UInt8 → α → Prop} (h : ∀ t a, P t a → Q t a) {s : List UInt8}
    {a : α} : Text P s a → Text Q s a := by
  rintro ⟨w, t, w', hw, ht, hw', rfl⟩
  exact ⟨w, t, w', hw, h _ _ ht, hw', rfl⟩

theorem Elements.mono {P Q : List UInt8 → α → Prop} (h : ∀ t a, P t a → Q t a) {s : List UInt8}
    {as : List α} (hs : Elements P s as) : Elements Q s as := by
  induction hs with
  | one ht hw => exact .one (h _ _ ht) hw
  | cons ht hw hw' _ ih => exact .cons (h _ _ ht) hw hw' ih

theorem ArrayText.mono {P Q : List UInt8 → α → Prop} (h : ∀ t a, P t a → Q t a) {s : List UInt8}
    {as : List α} (hs : ArrayText P s as) : ArrayText Q s as := by
  cases hs with
  | empty hw => exact .empty hw
  | elements hw hts => exact .elements hw (hts.mono h)

/-- A text that starts a value: its first byte is neither whitespace nor the end
of an array. -/
def Starts (s : List UInt8) : Prop := ∃ b s', s = b :: s' ∧ isWs b = false ∧ b ≠ 0x5d

theorem Elements.starts {P : List UInt8 → α → Prop} (hP : ∀ t a, P t a → Starts t)
    {s : List UInt8} {as : List α} (h : Elements P s as) : Starts s := by
  cases h with
  | one ht hw =>
      obtain ⟨b, t, rfl, hb, hb'⟩ := hP _ _ ht
      exact ⟨b, _, rfl, hb, hb'⟩
  | cons ht hw hw' hts =>
      obtain ⟨b, t, rfl, hb, hb'⟩ := hP _ _ ht
      exact ⟨b, _, rfl, hb, hb'⟩

theorem Starts.skipWs {w s t : List UInt8} (hs : Starts s) (hw : Ws w) :
    skipWs (w ++ (s ++ t)) = s ++ t := by
  obtain ⟨b, s, rfl, hb, -⟩ := hs
  exact skipWs_append_cons hw hb

/-- Leading whitespace is not part of a text. -/
theorem text_skipWs {P : List UInt8 → α → Prop} (hP : ∀ t a, P t a → Starts t) {s : List UInt8}
    {a : α} : Text P (Json.skipWs s) a ↔ Text P s a := by
  constructor
  · intro h
    obtain ⟨w, hw, hs⟩ := exists_ws_append s
    rw [hs]
    exact text_append hw h
  · rintro ⟨w, t, w', hw, ht, hw', rfl⟩
    rw [(hP t a ht).skipWs hw]
    exact ⟨[], t, w', Ws.nil, ht, hw', rfl⟩

theorem ArrayText.starts {P : List UInt8 → α → Prop} {s : List UInt8} {as : List α}
    (h : ArrayText P s as) : Starts s := by
  cases h with
  | empty => exact ⟨_, _, rfl, by decide, by decide⟩
  | elements => exact ⟨_, _, rfl, by decide, by decide⟩

theorem ArrayText.eq_cons {P : List UInt8 → α → Prop} {s : List UInt8} {as : List α}
    (h : ArrayText P s as) : ∃ s', s = 0x5b :: s' := by
  cases h with
  | empty => exact ⟨_, rfl⟩
  | elements => exact ⟨_, rfl⟩

theorem Elements.exists_first {P : List UInt8 → α → Prop} {s : List UInt8} {as : List α}
    (h : Elements P s as) : ∃ t a rest, P t a ∧ s = t ++ rest := by
  cases h with
  | one ht => exact ⟨_, _, _, ht, rfl⟩
  | cons ht => exact ⟨_, _, _, ht, rfl⟩

/-- Behind its bracket an array is closed or goes on with an element. -/
theorem ArrayText.next {P : List UInt8 → α → Prop} (hP : ∀ t a, P t a → Starts t)
    {s : List UInt8} {as : List α} (h : ArrayText P s as) (rest : List UInt8) :
    ∃ s', s ++ rest = 0x5b :: s' ∧ ((Json.skipWs s').head? = some 0x5d ∨
      ∃ t a rest', P t a ∧ Json.skipWs s' = t ++ rest') := by
  cases h with
  | empty hw =>
      refine ⟨_, rfl, Or.inl ?_⟩
      rw [List.append_eq, List.append_assoc, List.singleton_append,
        skipWs_append_cons hw (by decide)]
      rfl
  | elements hw hts =>
      obtain ⟨t, a, rest', ht, rfl⟩ := hts.exists_first
      refine ⟨_, rfl, Or.inr ⟨t, a, rest' ++ 0x5d :: rest, ht, ?_⟩⟩
      rw [List.append_eq, List.append_assoc, List.append_assoc, List.append_assoc,
        (hP t a ht).skipWs hw, List.singleton_append]

end Arrays

end Foundation.Json
