import FrankenSnowflake.Core.Jsonv2ScannerCorrect

/-!
# Where the row scanner is laxer than RFC 8259

A string may not hold a raw control character, and the four bytes after `\u` are
hexadecimal digits.  The scanner asks for neither: it copies control characters,
and `u16::from_str_radix` takes `+041` for `0041`.  `hasLaxity` finds the two
in a payload, and on payloads without them the scanner reads RFC 8259.
-/

namespace FrankenSnowflake.Jsonv2Scanner

open Foundation Foundation.Json

/-- Where a byte of a JSON text stands. -/
inductive Place where
  | outside
  | inString
  /-- After a backslash. -/
  | escaped
deriving DecidableEq, Repr

/-- A string of the payload holds a raw control character, or a `\u` escape
whose digits start with a sign. -/
def hasLaxity : Place → List UInt8 → Bool
  | _, [] => false
  | .outside, b :: s => hasLaxity (if b = 0x22 then .inString else .outside) s
  | .inString, b :: s =>
      if b = 0x22 then hasLaxity .outside s
      else if b = 0x5c then hasLaxity .escaped s
      else b < 0x20 || hasLaxity .inString s
  | .escaped, b :: s => b = 0x75 && s.head? = some 0x2b || hasLaxity .inString s

@[simp] theorem hasLaxity_open (s : List UInt8) :
    hasLaxity .outside (0x22 :: s) = hasLaxity .inString s :=
  rfl

@[simp] theorem hasLaxity_quote (s : List UInt8) :
    hasLaxity .inString (0x22 :: s) = hasLaxity .outside s :=
  rfl

@[simp] theorem hasLaxity_escape (e : UInt8) (s : List UInt8) :
    hasLaxity .inString (0x5c :: e :: s) =
      (e = 0x75 && s.head? = some 0x2b || hasLaxity .inString s) :=
  rfl

theorem hasLaxity_plain {r : List UInt8} (hr : Plain r) (s : List UInt8) :
    hasLaxity .inString (r ++ s) = (r.any (· < 0x20) || hasLaxity .inString s) := by
  induction r with
  | nil => rfl
  | cons b r ih =>
      obtain ⟨hb, hr⟩ := List.forall_mem_cons.mp hr
      have hne : b ≠ 0x22 ∧ b ≠ 0x5c := by simpa [isQuoteOrEscape] using hb
      simp only [List.cons_append, hasLaxity, hne.1, hne.2, ↓reduceIte, ih hr, List.any_cons,
        Bool.or_assoc]

/-- Outside strings a byte that opens none is passed over. -/
theorem hasLaxity_skip {b : UInt8} (hb : b ≠ 0x22) (s : List UInt8) :
    hasLaxity .outside (b :: s) = hasLaxity .outside s := by
  rw [hasLaxity, if_neg hb]

theorem hasLaxity_ws {w : List UInt8} (hw : Ws w) (s : List UInt8) :
    hasLaxity .outside (w ++ s) = hasLaxity .outside s := by
  induction w with
  | nil => rfl
  | cons b w ih =>
      obtain ⟨hb, hw⟩ := List.forall_mem_cons.mp hw
      rw [List.cons_append, hasLaxity_skip, ih hw]
      rintro rfl
      exact absurd hb (by decide)

/-! ## Escapes and characters -/

theorem hexDigit?_plain {b : UInt8} {d : Nat} (h : hexDigit? b = some d) :
    isQuoteOrEscape b = false ∧ ¬ b < 0x20 ∧ b ≠ 0x2b := by
  have hnone : ∀ x ∈ [0x22, 0x5c, 0x2b], hexDigit? x = none := by decide +kernel
  have hne : ∀ x ∈ [0x22, 0x5c, 0x2b], b ≠ x := by
    rintro x hx rfl
    rw [hnone b hx] at h
    cases h
  refine ⟨?_, ?_, hne _ (by simp)⟩
  · simp [isQuoteOrEscape, hne 0x22 (by simp), hne 0x5c (by simp)]
  · intro hlt
    have hlt' := UInt8.lt_iff_toNat_lt.mp hlt
    simp only [hexDigit?, Bool.and_eq_true, decide_eq_true_eq, UInt8.le_iff_toNat_le] at h
    simp at h hlt'
    split_ifs at h
    all_goals omega

/-- Four digits are plain, and no sign is among them. -/
theorem hexDigits?_plain {acc n : Nat} {ds : List UInt8} (h : hexDigits? acc ds = some n) :
    Plain ds ∧ ds.any (· < 0x20) = false ∧ ds.head? ≠ some 0x2b := by
  induction ds generalizing acc with
  | nil => simp [Plain]
  | cons b ds ih =>
      simp only [hexDigits?] at h
      split at h
      next => cases h
      next d hd =>
        obtain ⟨hplain, hge, hsign⟩ := hexDigit?_plain hd
        obtain ⟨hplain', hge', -⟩ := ih h
        refine ⟨List.forall_mem_cons.mpr ⟨hplain, hplain'⟩, ?_, ?_⟩
        · simp [hge, hge']
        · simpa using hsign

/-- The digits of `rfc8259` are passed over. -/
theorem hasLaxity_hexDigits {ds : List UInt8} {n : Nat} (hlen : ds.length = 4)
    (h : rfc8259.hex4 ds = some n) (s : List UInt8) :
    hasLaxity .inString (0x5c :: 0x75 :: (ds ++ s)) = hasLaxity .inString s := by
  obtain ⟨hplain, hge, hsign⟩ := hexDigits?_plain h
  obtain ⟨d, ds, rfl⟩ := List.exists_cons_of_length_eq_add_one hlen
  have hsign' : d ≠ 0x2b := by simpa using hsign
  rw [hasLaxity_escape, hasLaxity_plain hplain, hge]
  simp [hsign']

/-- Digits without a sign are digits of `rfc8259`. -/
theorem rfc8259_hex4 {ds s : List UInt8} {n : Nat} (hlen : ds.length = 4)
    (h : lenient.hex4 ds = some n)
    (hlax : hasLaxity .inString (0x5c :: 0x75 :: (ds ++ s)) = false) :
    rfc8259.hex4 ds = some n := by
  obtain ⟨d, ds, rfl⟩ := List.exists_cons_of_length_eq_add_one hlen
  have hsign : d ≠ 0x2b := by
    rw [hasLaxity_escape] at hlax
    simpa using (Bool.or_eq_false_iff.mp hlax).1
  change u16FromStrRadix16 (d :: ds) = some n at h
  unfold u16FromStrRadix16 at h
  split at h
  next heq => cases heq
  next heq => exact absurd (List.cons.inj heq).1 hsign
  next heq =>
    obtain ⟨rfl, rfl⟩ := List.cons.inj heq
    simp at hlen
  next heq => exact absurd (List.cons.inj heq).1 hsign
  next => exact (Option.filter_eq_some_iff.mp h).1

theorem utf8EncodeChar_plain {c : Char} (h : lenient.raw c) : Plain (String.utf8EncodeChar c) := by
  have hplain : Plain (Utf8.encode [c]) := plain_encode.mpr (by simpa using h)
  simpa using hplain

/-- A character is encoded with a control byte iff it is a control character. -/
theorem any_utf8EncodeChar {c : Char} :
    (String.utf8EncodeChar c).any (· < 0x20) = decide (c.toNat < 0x20) := by
  rw [Bool.eq_iff_iff, List.any_eq_true, decide_eq_true_eq]
  have hmem : ∀ b : UInt8, b < 0x80 → (b ∈ String.utf8EncodeChar c ↔ Char.ofUInt8 b = c) := by
    intro b hb
    have h : b ∈ Utf8.encode [c] ↔ Char.ofUInt8 b ∈ [c] := Utf8.mem_encode_ascii hb
    simpa using h
  constructor
  · rintro ⟨b, hb, hlt⟩
    have hlt' := UInt8.lt_iff_toNat_lt.mp (of_decide_eq_true hlt)
    have hascii : b < 0x80 := UInt8.lt_iff_toNat_lt.mpr (by simp at hlt' ⊢; omega)
    rw [hmem b hascii] at hb
    subst hb
    exact hlt'
  · intro hlt
    have hbyte : (UInt8.ofNat c.toNat).toNat = c.toNat := by
      rw [UInt8.toNat_ofNat']
      omega
    refine ⟨UInt8.ofNat c.toNat, (hmem _ ?_).mpr ?_, ?_⟩
    · rw [UInt8.lt_iff_toNat_lt, hbyte]
      exact Nat.lt_trans hlt (by decide)
    · apply Char.ext
      apply UInt32.toNat_inj.mp
      exact hbyte
    · rw [decide_eq_true_eq, UInt8.lt_iff_toNat_lt, hbyte]
      exact hlt

theorem rfc8259_raw {c : Char} : rfc8259.raw c ↔ lenient.raw c ∧ ¬ c.toNat < 0x20 := by
  simp [rfc8259, lenient]
  tauto

theorem EscapeText.hasLaxity_append {e : List UInt8} {c : Char} (h : EscapeText rfc8259 e c)
    (s : List UInt8) : hasLaxity .inString (e ++ s) = hasLaxity .inString s := by
  cases h with
  | @short b _ hb =>
      have hu : b ≠ 0x75 := by
        rintro rfl
        exact absurd hb (by simp [show shortEscape? 0x75 = none by decide])
      rw [List.cons_append, List.singleton_append, hasLaxity_escape]
      simp [hu]
  | unicode hlen hds => exact hasLaxity_hexDigits hlen hds s
  | pair hlen hlen' hds hes =>
      rw [List.cons_append, List.cons_append, List.append_assoc, hasLaxity_hexDigits hlen hds]
      exact hasLaxity_hexDigits hlen' hes s

/-- An escape without laxity is an escape of RFC 8259. -/
theorem EscapeText.strict {e s : List UInt8} {c : Char} (h : EscapeText lenient e c)
    (hlax : hasLaxity .inString (e ++ s) = false) : EscapeText rfc8259 e c := by
  cases h with
  | short hb => exact .short hb
  | unicode hlen hds hhi hlo => exact .unicode hlen (rfc8259_hex4 hlen hds hlax) hhi hlo
  | pair hlen hlen' hds hes hhi hlo =>
      rw [List.cons_append, List.cons_append, List.append_assoc] at hlax
      have hds' := rfc8259_hex4 hlen hds hlax
      rw [hasLaxity_hexDigits hlen hds'] at hlax
      exact .pair hlen hlen' hds' (rfc8259_hex4 hlen' hes hlax) hhi hlo

theorem BodyText.hasLaxity_append {t : List UInt8} {cs : List Char} (h : BodyText rfc8259 t cs)
    (s : List UInt8) : hasLaxity .inString (t ++ s) = hasLaxity .inString s := by
  induction h with
  | nil => rfl
  | raw hc _ ih =>
      obtain ⟨hc, hge⟩ := rfc8259_raw.mp hc
      rw [List.append_assoc, hasLaxity_plain (utf8EncodeChar_plain hc), any_utf8EncodeChar, ih]
      simp [hge]
  | escape he _ ih => rw [List.append_assoc, EscapeText.hasLaxity_append he, ih]

/-- A string without laxity is a string of RFC 8259. -/
theorem BodyText.strict {t s : List UInt8} {cs : List Char} (h : BodyText lenient t cs)
    (hlax : hasLaxity .inString (t ++ s) = false) : BodyText rfc8259 t cs := by
  induction h with
  | nil => exact .nil
  | raw hc _ ih =>
      rw [List.append_assoc, hasLaxity_plain (utf8EncodeChar_plain hc), any_utf8EncodeChar,
        Bool.or_eq_false_iff] at hlax
      exact .raw (rfc8259_raw.mpr ⟨hc, of_decide_eq_false hlax.1⟩) (ih hlax.2)
  | escape he _ ih =>
      rw [List.append_assoc] at hlax
      have he' := EscapeText.strict he hlax
      rw [EscapeText.hasLaxity_append he'] at hlax
      exact .escape he' (ih hlax)

/-! ## Values

Two things are shown of each rule: its texts in RFC 8259 are passed over, and
its texts in the scanner's dialect are texts in RFC 8259 if no laxity is found. -/

section Values

variable {α : Type} {P Q : List UInt8 → α → Prop}

/-- The texts of `Q` hold no laxity, whatever follows. -/
def PassedOver (Q : List UInt8 → α → Prop) : Prop :=
  ∀ t a s, Q t a → hasLaxity .outside (t ++ s) = hasLaxity .outside s

/-- The texts of `P` without laxity are texts of `Q`. -/
def StrictIn (P Q : List UInt8 → α → Prop) : Prop :=
  ∀ t a s, P t a → hasLaxity .outside (t ++ s) = false → Q t a

theorem PassedOver.cellText : PassedOver (CellText rfc8259) := by
  intro t v s h
  cases h with
  | null => rfl
  | string h =>
      obtain ⟨t, rfl, ht⟩ := h
      rw [List.cons_append, List.append_assoc, hasLaxity_open, BodyText.hasLaxity_append ht]
      rfl

theorem StrictIn.cellText : StrictIn (CellText lenient) (CellText rfc8259) := by
  intro t v s h hlax
  cases h with
  | null => exact .null
  | string h =>
      obtain ⟨t, rfl, ht⟩ := h
      rw [List.cons_append, List.append_assoc, hasLaxity_open] at hlax
      exact .string ⟨t, rfl, BodyText.strict ht hlax⟩

theorem PassedOver.elements (hQ : PassedOver Q) : PassedOver (Elements Q) := by
  intro t as s h
  induction h with
  | one ht hw => rw [List.append_assoc, hQ _ _ _ ht, hasLaxity_ws hw]
  | cons ht hw hw' _ ih =>
      rw [List.append_assoc, hQ _ _ _ ht, List.append_assoc, hasLaxity_ws hw, List.cons_append,
        hasLaxity_skip (by decide), List.append_assoc, hasLaxity_ws hw', ih]

theorem StrictIn.elements (hQ : PassedOver Q) (hPQ : StrictIn P Q) :
    StrictIn (Elements P) (Elements Q) := by
  intro t as s h hlax
  induction h with
  | one ht hw =>
      rw [List.append_assoc] at hlax
      exact .one (hPQ _ _ _ ht hlax) hw
  | cons ht hw hw' _ ih =>
      rw [List.append_assoc] at hlax
      have ht' := hPQ _ _ _ ht hlax
      rw [hQ _ _ _ ht', List.append_assoc, hasLaxity_ws hw, List.cons_append,
        hasLaxity_skip (by decide), List.append_assoc, hasLaxity_ws hw'] at hlax
      exact .cons ht' hw hw' (ih hlax)

theorem PassedOver.arrayText (hQ : PassedOver Q) : PassedOver (ArrayText Q) := by
  intro t as s h
  cases h with
  | empty hw =>
      rw [List.cons_append, hasLaxity_skip (by decide), List.append_assoc, hasLaxity_ws hw]
      exact hasLaxity_skip (by decide) s
  | elements hw hts =>
      rw [List.cons_append, hasLaxity_skip (by decide), List.append_assoc, hasLaxity_ws hw,
        List.append_assoc, hQ.elements _ _ _ hts]
      exact hasLaxity_skip (by decide) s

theorem StrictIn.arrayText (hQ : PassedOver Q) (hPQ : StrictIn P Q) :
    StrictIn (ArrayText P) (ArrayText Q) := by
  intro t as s h hlax
  cases h with
  | empty hw => exact .empty hw
  | elements hw hts =>
      rw [List.cons_append, hasLaxity_skip (by decide), List.append_assoc, hasLaxity_ws hw,
        List.append_assoc] at hlax
      exact .elements hw (hPQ.elements hQ _ _ _ hts hlax)

theorem hasLaxity_text (hQ : PassedOver Q) {s : List UInt8} {a : α} (h : Text Q s a) :
    hasLaxity .outside s = false := by
  obtain ⟨w, t, w', hw, ht, hw', rfl⟩ := h
  rw [hasLaxity_ws hw, hQ _ _ _ ht, ← List.append_nil w', hasLaxity_ws hw']
  rfl

theorem Text.strict (hPQ : StrictIn P Q) {s : List UInt8} {a : α} (h : Text P s a)
    (hlax : hasLaxity .outside s = false) : Text Q s a := by
  obtain ⟨w, t, w', hw, ht, hw', rfl⟩ := h
  rw [hasLaxity_ws hw] at hlax
  exact ⟨w, t, w', hw, hPQ _ _ _ ht hlax, hw', rfl⟩

end Values

/-- Row arrays of RFC 8259 are the scanner's row arrays without laxity. -/
theorem text_rowsText_rfc8259 {bytes : List UInt8} {rows : List (List (Option (List Char)))} :
    Text (RowsText rfc8259) bytes rows ↔
      Text (RowsText lenient) bytes rows ∧ hasLaxity .outside bytes = false := by
  have hrow : PassedOver (ArrayText (CellText rfc8259)) := PassedOver.cellText.arrayText
  constructor
  · intro h
    refine ⟨h.mono fun _ _ hrows ↦ hrows.extend lenient_extends_rfc8259, ?_⟩
    exact hasLaxity_text hrow.arrayText h
  · rintro ⟨h, hlax⟩
    exact Text.strict ((StrictIn.cellText.arrayText PassedOver.cellText).arrayText hrow) h hlax

/-! ## Decoding a bare partition -/

theorem extractJsonv2DataArray_bare {bytes : List UInt8}
    (h : (skipWs bytes).head? = some 0x5b) : extractJsonv2DataArray bytes = .ok (skipWs bytes) := by
  obtain ⟨s, hs⟩ := List.head?_eq_some_iff.mp h
  simp [extractJsonv2DataArray, extractDataArray, hs]

/-- A bare partition decodes to its rows, in the scanner's dialect. -/
theorem decodePartitionRows_bare {bytes : List UInt8} (h : (skipWs bytes).head? = some 0x5b)
    {rows : List (List (Option (List Char)))} :
    decodePartitionRows bytes = .ok rows ↔ Text (RowsText lenient) bytes rows := by
  rw [decodePartitionRows, extractJsonv2DataArray_bare h]
  exact decodeArray_eq_ok.trans (text_skipWs fun _ _ ↦ ArrayText.starts)

theorem decodePartitionRows_bare_returns {bytes : List UInt8}
    (h : (skipWs bytes).head? = some 0x5b) :
    Returns (Text (RowsText lenient) bytes) (decodePartitionRows bytes) := by
  rw [decodePartitionRows, extractJsonv2DataArray_bare h]
  refine (decodeArray_returns (skipWs bytes)).mono ?_
  exact fun _ ↦ (text_skipWs fun _ _ ↦ ArrayText.starts).mp

end FrankenSnowflake.Jsonv2Scanner
