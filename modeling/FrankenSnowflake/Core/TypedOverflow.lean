import FrankenSnowflake.Core.TypedText

/-!
# Decoding without overflow

Seconds are read with checked arithmetic, dates and times stay far within 128
bits, and only the offset of a `TIMESTAMP_TZ` is added without a check.
-/

namespace FrankenSnowflake.Typed

open Foundation Foundation.Digits

/-! ## Decoded cells -/

/-- A value or a cell error, without an overflow on the way. -/
def IsDecoded {α : Type} (result : Decode α) : Prop :=
  (∃ value, result = .ok value) ∨ ∃ reason, result = .error (.cell reason)

variable {α β : Type}

theorem isDecoded_ok (value : α) : IsDecoded (.ok value) := .inl ⟨value, rfl⟩

theorem isDecoded_cell (reason : String) : IsDecoded (.error (.cell reason) : Decode α) :=
  .inr ⟨reason, rfl⟩

theorem not_isDecoded_overflow : ¬ IsDecoded (.error .overflow : Decode α) := by
  rintro (⟨_, h⟩ | ⟨_, h⟩)
  · cases h
  · cases h

theorem IsDecoded.bind {x : Decode α} {f : α → Decode β} (hx : IsDecoded x)
    (hf : ∀ a, x = .ok a → IsDecoded (f a)) : IsDecoded (x >>= f) := by
  rcases hx with ⟨a, rfl⟩ | ⟨reason, rfl⟩
  · exact hf a rfl
  · exact isDecoded_cell reason

/-! ## Seconds -/

/-- The nanoseconds in `digits[.digits]`: the digits of both, filled up to nine
behind the point. -/
def magnitudeNanos (unsigned : Text) : Option Nat :=
  let (whole, fraction) := (splitOnce '.' unsigned).getD (unsigned, [])
  if whole ≠ [] ∧ whole.all Char.isDigit ∧ fraction.length ≤ 9 ∧ fraction.all Char.isDigit then
    some (Nat.ofDigitChars 10 (whole ++ (fraction ++ List.replicate (9 - fraction.length) '0')) 0)
  else none

/-- The nanoseconds that a text of seconds denotes. -/
def instantNanos : Text → Option Int
  | '-' :: unsigned => (magnitudeNanos unsigned).map fun n : Nat ↦ -(n : Int)
  | unsigned => (magnitudeNanos unsigned).map Int.ofNat

theorem i128_natCast {n : Nat} (h : n ≤ 2 ^ 126) : i128 n = .ok (n : Int) :=
  i128_ok (by omega) (by omega)

/-- The loop over a fraction adds the value of its digits, at their places. -/
theorem fractionNanos_eq {fraction : Text} (hdigits : ∀ c ∈ fraction, c.isDigit) (index acc : Nat)
    (hlength : index + fraction.length ≤ 9) (hacc : acc + 10 ^ (9 - index) ≤ 10 ^ 9) :
    fractionNanos index acc fraction =
      .ok ((acc + 10 ^ (9 - index - fraction.length) * Nat.ofDigitChars 10 fraction 0 : Nat) : Int) := by
  induction fraction generalizing index acc with
  | nil => simp [fractionNanos]
  | cons c rest ih =>
      obtain ⟨hc, hrest⟩ := List.forall_mem_cons.mp hdigits
      have hdigit := digit_le hc
      generalize hd : c.toNat - '0'.toNat = d at hdigit
      rw [List.length_cons] at hlength ⊢
      obtain ⟨k, hk⟩ : ∃ k, 9 - index = k + 1 := ⟨8 - index, by omega⟩
      have hplace : 8 - index = k := by omega
      have hsmall : d * 10 ^ k + 10 ^ k ≤ 10 ^ (k + 1) := by
        rw [Nat.pow_succ, ← Nat.succ_mul, Nat.mul_comm]
        exact Nat.mul_le_mul_left _ (by omega)
      rw [hk] at hacc
      have hmul : mul d (10 ^ k) = .ok ((d * 10 ^ k : Nat) : Int) := by
        have hcast : (d : Int) * 10 ^ k = ((d * 10 ^ k : Nat) : Int) := by push_cast; rfl
        rw [mul, hcast]
        apply i128_natCast
        calc
          d * 10 ^ k ≤ 10 ^ (k + 1) := by omega
          _ ≤ 10 ^ 9 := Nat.le_of_add_left_le hacc
          _ ≤ 2 ^ 126 := by decide
      have hadd : add acc ((d * 10 ^ k : Nat) : Int) = .ok ((acc + d * 10 ^ k : Nat) : Int) :=
        i128_natCast (Nat.le_trans (by omega) (show 10 ^ 9 ≤ 2 ^ 126 by decide))
      have hnext := ih hrest (index + 1) (acc + d * 10 ^ k) (by omega)
        (by rw [show 9 - (index + 1) = k by omega]; omega)
      rw [fractionNanos, if_neg (by omega), hplace, hd]
      have hcons : Nat.ofDigitChars 10 (c :: rest) 0 =
          10 ^ rest.length * d + Nat.ofDigitChars 10 rest 0 := by
        rw [Nat.ofDigitChars_cons, Nat.mul_zero, Nat.zero_add, hd]
        exact Nat.ofDigitChars_eq_ofDigitChars_zero
      rw [hmul, ok_bind, hadd, ok_bind, hnext, hcons]
      have hplaces : 10 ^ (9 - index - (rest.length + 1)) * 10 ^ rest.length = 10 ^ k := by
        have hsum : 9 - index - (rest.length + 1) + rest.length = k := by omega
        rw [← hsum, Nat.pow_add]
      have hleft : 9 - (index + 1) - rest.length = 9 - index - (rest.length + 1) := by omega
      rw [hleft, Nat.mul_add, ← Nat.mul_assoc, hplaces, Nat.mul_comm (10 ^ k) d, Nat.add_assoc]

/-- Digits are read as they are, if the number fits. -/
theorem parseSigned_digits {s : Text} (hsome : s ≠ []) (hdigits : s.all Char.isDigit) :
    parseSigned 128 s =
      if Nat.ofDigitChars 10 s 0 < 2 ^ 127 then some (Nat.ofDigitChars 10 s 0 : Int) else none := by
  have hfits (n : Nat) : Fits 128 n ↔ n < 2 ^ 127 :=
    ⟨fun h ↦ by have := h.2; omega, fun h ↦ ⟨by omega, by omega⟩⟩
  rw [parseSigned, parseInt_digits hsome hdigits, Option.filter_some]
  simp only [decide_eq_true_eq, hfits]

theorem checked_natCast (n : Nat) : checked n = if n < 2 ^ 127 then some (n : Int) else none := by
  unfold checked
  by_cases h : n < 2 ^ 127
  · rw [if_pos h, if_pos ⟨by omega, by omega⟩]
  · rw [if_neg h, if_neg fun hfits ↦ h (by have := hfits.2; omega)]

/-- The digits of both parts, taken together. -/
theorem ofDigitChars_parts {whole fraction : Text} (hlength : fraction.length ≤ 9) :
    Nat.ofDigitChars 10 (whole ++ (fraction ++ List.replicate (9 - fraction.length) '0')) 0 =
      Nat.ofDigitChars 10 whole 0 * 10 ^ 9 +
        10 ^ (9 - fraction.length) * Nat.ofDigitChars 10 fraction 0 := by
  have hfraction (n : Nat) : Nat.ofDigitChars 10 fraction n =
      10 ^ fraction.length * n + Nat.ofDigitChars 10 fraction 0 :=
    Nat.ofDigitChars_eq_ofDigitChars_zero
  have hplaces : 10 ^ (9 - fraction.length) * 10 ^ fraction.length = 10 ^ 9 := by
    rw [← Nat.pow_add, Nat.sub_add_cancel hlength]
  rw [Nat.ofDigitChars_append, Nat.ofDigitChars_append, Nat.ofDigitChars_replicate_zero,
    hfraction, Nat.mul_add, ← Nat.mul_assoc, hplaces, Nat.mul_comm (10 ^ 9)]

/-- `checked_mul` and `checked_add` fail exactly where the sum does not fit. -/
theorem checked_seconds (seconds nanos : Nat) :
    ((checked (seconds * nanosPerSecond)).bind fun value ↦ checked (value + nanos)) =
      if seconds * 10 ^ 9 + nanos < 2 ^ 127 then some ((seconds * 10 ^ 9 + nanos : Nat) : Int)
      else none := by
  have hmul : (seconds : Int) * nanosPerSecond = ((seconds * 10 ^ 9 : Nat) : Int) := by
    unfold nanosPerSecond
    push_cast
    rfl
  rw [hmul, checked_natCast]
  by_cases hseconds : seconds * 10 ^ 9 < 2 ^ 127
  · rw [if_pos hseconds, Option.bind_some, ← Nat.cast_add, checked_natCast]
  · have htotal : ¬ seconds * 10 ^ 9 + nanos < 2 ^ 127 :=
      fun h ↦ hseconds (Nat.lt_of_le_of_lt (Nat.le_add_right _ _) h)
    rw [if_neg hseconds, Option.bind_none, if_neg htotal]

/-- Checked arithmetic yields the nanoseconds of a text, if they fit. -/
theorem parseUnsignedNanos_eq (unsigned : Text) :
    parseUnsignedNanos unsigned =
      match magnitudeNanos unsigned with
      | some n => if n < 2 ^ 127 then .ok (n : Int) else .error (.cell "not fractional seconds")
      | none => .error (.cell "not fractional seconds") := by
  unfold parseUnsignedNanos magnitudeNanos
  generalize (splitOnce '.' unsigned).getD (unsigned, []) = parts
  obtain ⟨whole, fraction⟩ := parts
  dsimp only
  by_cases hshape : whole ≠ [] ∧ whole.all Char.isDigit ∧ fraction.length ≤ 9 ∧
      fraction.all Char.isDigit
  · rw [if_pos hshape, if_neg (by simpa [not_or, not_lt] using hshape)]
    obtain ⟨hsome, hwhole, hlength, hfraction⟩ := hshape
    have hnanos := fractionNanos_eq (List.all_eq_true.mp hfraction) 0 0 (by omega) (by norm_num)
    rw [Nat.zero_add, Nat.sub_zero, Nat.cast_zero] at hnanos
    rw [parseSigned_digits hsome hwhole]
    dsimp only
    rw [ofDigitChars_parts hlength]
    generalize Nat.ofDigitChars 10 whole 0 = seconds
    generalize 10 ^ (9 - fraction.length) * Nat.ofDigitChars 10 fraction 0 = nanos at hnanos ⊢
    by_cases hseconds : seconds < 2 ^ 127
    · rw [if_pos hseconds]
      dsimp only
      rw [hnanos, ok_bind, checked_seconds]
      by_cases htotal : seconds * 10 ^ 9 + nanos < 2 ^ 127
      · rw [if_pos htotal, if_pos htotal]
      · rw [if_neg htotal, if_neg htotal]
    · rw [if_neg hseconds, if_neg (by omega)]
  · rw [if_neg hshape, if_pos]
    by_contra hnone
    simp only [List.isEmpty_iff, not_or, not_not, not_lt] at hnone
    exact hshape ⟨hnone.1, hnone.2.1, hnone.2.2.1, hnone.2.2.2⟩

/-- A text has a sign, or is read as it is. -/
theorem sign_cases (text : Text) :
    (∃ unsigned, text = '-' :: unsigned) ∨
      (parseEpochNanos text = parseUnsignedNanos text ∧
        instantNanos text = (magnitudeNanos text).map Int.ofNat) := by
  cases text with
  | nil => exact .inr ⟨rfl, rfl⟩
  | cons c unsigned =>
      by_cases hc : c = '-'
      · exact .inl ⟨unsigned, by rw [hc]⟩
      · right
        constructor
        · unfold parseEpochNanos
          split
          · rename_i heq
            exact absurd (List.cons.inj heq).1 hc
          · rfl
        · unfold instantNanos
          split
          · rename_i heq
            exact absurd (List.cons.inj heq).1 hc
          · rfl

theorem parseEpochNanos_eq (text : Text) :
    parseEpochNanos text =
      match instantNanos text with
      | some n => if n.natAbs < 2 ^ 127 then .ok n else .error (.cell "not fractional seconds")
      | none => .error (.cell "not fractional seconds") := by
  rcases sign_cases text with ⟨unsigned, rfl⟩ | ⟨hparse, hinstant⟩
  · rw [parseEpochNanos, instantNanos, parseUnsignedNanos_eq]
    generalize magnitudeNanos unsigned = magnitude
    cases magnitude with
    | none => rfl
    | some n =>
        simp only [Option.map_some, Int.natAbs_neg, Int.natAbs_natCast]
        by_cases hn : n < 2 ^ 127
        · rw [if_pos hn, if_pos hn, ok_bind]
          exact if_pos ⟨by omega, by omega⟩
        · rw [if_neg hn, if_neg hn]
          rfl
  · rw [hparse, hinstant, parseUnsignedNanos_eq]
    generalize magnitudeNanos text = magnitude
    cases magnitude with
    | none => rfl
    | some n => rfl

theorem parseEpochNanos_isDecoded (text : Text) : IsDecoded (parseEpochNanos text) := by
  rw [parseEpochNanos_eq]
  split
  · split_ifs
    · exact isDecoded_ok _
    · exact isDecoded_cell _
  · exact isDecoded_cell _

theorem instantNanos_of_ok {text : Text} {n : Int} (h : parseEpochNanos text = .ok n) :
    instantNanos text = some n ∧ n.natAbs < 2 ^ 127 := by
  rw [parseEpochNanos_eq] at h
  split at h
  · split_ifs at h with hfits
    obtain rfl := Except.ok.inj h
    exact ⟨‹_›, hfits⟩
  · cases h

theorem formatTimestamp_isDecoded {n : Int} (h : Fits 128 n) : IsDecoded (formatTimestamp n) := by
  obtain ⟨_, _, htext⟩ := formatTimestamp_eq ⟨n, h⟩
  exact .inl ⟨_, htext⟩

/-! ## Cells -/

/-- The local time of a `TIMESTAMP_TZ` cell, in nanoseconds. -/
def wallNanos (wire : Text) : Option Int := do
  let (instant, offset) ← splitOnce ' ' wire
  let minutes ← parseSigned 128 (Unicode.trim offset)
  let nanos ← instantNanos instant
  if 0 ≤ minutes ∧ minutes ≤ 2880 ∧ nanos.natAbs < 2 ^ 127 then
    some (nanos + (minutes - 1440) * 60 * nanosPerSecond)
  else none

theorem decodeTimestampTz_isDecoded_iff (wire : Text) :
    IsDecoded (decodeTimestampTz wire) ↔ ∀ n ∈ wallNanos wire, Fits 128 n := by
  unfold decodeTimestampTz wallNanos
  cases splitOnce ' ' wire with
  | none => exact iff_of_true (isDecoded_cell _) fun n hn ↦ nomatch hn
  | some parts =>
      obtain ⟨instant, offset⟩ := parts
      simp only [Option.bind_eq_bind, Option.bind_some]
      cases parseSigned 128 (Unicode.trim offset) with
      | none => exact iff_of_true (isDecoded_cell _) fun n hn ↦ nomatch hn
      | some minutes =>
          simp only [Option.bind_some]
          by_cases hrange : 0 ≤ minutes ∧ minutes ≤ 2880
          · rw [if_neg (not_not.mpr hrange)]
            have hsub : sub minutes 1440 = .ok (minutes - 1440) := i128_ok (by omega) (by omega)
            have hmul : mul (minutes - 1440) 60 = .ok ((minutes - 1440) * 60) :=
              i128_ok (by omega) (by omega)
            have hnanos : mul ((minutes - 1440) * 60) nanosPerSecond =
                .ok ((minutes - 1440) * 60 * nanosPerSecond) := by
              unfold nanosPerSecond
              exact i128_ok (by omega) (by omega)
            have habs : abs (minutes - 1440) = .ok |minutes - 1440| :=
              i128_ok (le_trans (by decide) (abs_nonneg _)) (abs_le.mpr ⟨by omega, by omega⟩)
            rw [hsub, ok_bind]
            rcases parseEpochNanos_isDecoded instant with ⟨nanos, hok⟩ | ⟨reason, hcell⟩
            · obtain ⟨hinstant, hfits⟩ := instantNanos_of_ok hok
              have hwall : 0 ≤ minutes ∧ minutes ≤ 2880 ∧ nanos.natAbs < 2 ^ 127 :=
                ⟨hrange.1, hrange.2, hfits⟩
              rw [hok, ok_bind, hmul, ok_bind, hnanos, ok_bind, hinstant, Option.bind_some]
              simp only [if_pos hwall]
              simp only [Option.mem_def, Option.some.injEq, forall_eq']
              by_cases hlocal : Fits 128 (nanos + (minutes - 1440) * 60 * nanosPerSecond)
              · rw [add, i128, if_pos hlocal, ok_bind]
                refine iff_of_true ?_ hlocal
                rw [habs, ok_bind]
                exact (formatTimestamp_isDecoded hlocal).bind fun text _ ↦ isDecoded_ok _
              · rw [add, i128, if_neg hlocal]
                exact iff_of_false not_isDecoded_overflow hlocal
            · rw [hcell]
              refine iff_of_true (isDecoded_cell reason) fun n hn ↦ ?_
              obtain ⟨nanos, hinstant, hlocal⟩ := Option.bind_eq_some_iff.mp hn
              rw [parseEpochNanos_eq, hinstant] at hcell
              dsimp only at hcell
              by_cases hfits : nanos.natAbs < 2 ^ 127
              · rw [if_pos hfits] at hcell
                cases hcell
              · rw [if_neg fun h ↦ hfits h.2.2] at hlocal
                cases hlocal
          · rw [if_pos hrange]
            refine iff_of_true (isDecoded_cell _) fun n hn ↦ ?_
            obtain ⟨nanos, -, hlocal⟩ := Option.bind_eq_some_iff.mp hn
            rw [if_neg fun h ↦ hrange ⟨h.1, h.2.1⟩] at hlocal
            cases hlocal

/-- No cell of another column overflows. -/
theorem decode_isDecoded (L : JsonLibrary) {codec : ColumnCodec}
    (h : codec.jsonRepr ≠ .timestampOffset) (wire : Option Text) :
    IsDecoded (codec.decode L wire) := by
  unfold ColumnCodec.decode
  cases wire with
  | none => exact isDecoded_ok _
  | some wire =>
      cases hrepr : codec.jsonRepr with
      | timestampOffset => exact absurd hrepr h
      | integer =>
          dsimp only
          split
          · exact isDecoded_ok _
          · exact isDecoded_cell _
      | decimalString | hex =>
          dsimp only
          split_ifs
          · exact isDecoded_ok _
          · exact isDecoded_cell _
      | float =>
          dsimp only [decodeFloat]
          split
          · exact isDecoded_ok _
          · exact isDecoded_ok _
          · exact isDecoded_ok _
          · exact isDecoded_ok _
          · exact isDecoded_ok _
          · exact isDecoded_ok _
          · split
            · exact isDecoded_cell _
            · split
              · exact isDecoded_cell _
              · exact isDecoded_ok _
      | bool =>
          dsimp only
          split
          · exact isDecoded_ok _
          · exact isDecoded_ok _
          · exact isDecoded_ok _
          · exact isDecoded_ok _
          · exact isDecoded_cell _
      | string | wire => exact isDecoded_ok _
      | date =>
          dsimp only
          cases hdays : parseSigned 64 wire with
          | none => exact isDecoded_cell _
          | some days =>
              obtain ⟨hlo, hhi⟩ := fits_of_parseSigned hdays
              have hdate := @formatDate_eq days (by omega) (by omega)
              dsimp only
              rw [hdate, ok_bind]
              exact isDecoded_ok _
      | time =>
          refine (parseEpochNanos_isDecoded wire).bind fun nanos _ ↦ ?_
          have hmul : mul secondsPerDay nanosPerSecond = .ok dayNanos :=
            i128_ok (by decide) (by decide)
          rw [hmul, ok_bind]
          split_ifs
          · exact isDecoded_ok _
          · exact isDecoded_cell _
      | timestampNtz | timestampUtc =>
          refine (parseEpochNanos_isDecoded wire).bind fun nanos hnanos ↦ ?_
          have hfits := (instantNanos_of_ok hnanos).2
          have htext : Fits 128 nanos := ⟨by omega, by omega⟩
          exact (formatTimestamp_isDecoded htext).bind fun text _ ↦ isDecoded_ok _
      | json =>
          dsimp only
          split_ifs
          · split
            · exact isDecoded_ok _
            · exact isDecoded_cell _
          · exact isDecoded_cell _

/-- The local time of a `TIMESTAMP_TZ` cell is one of `i128` nanoseconds. -/
def LocalTimeFits (codec : ColumnCodec) (wire : Option Text) : Prop :=
  codec.jsonRepr = .timestampOffset → ∀ text ∈ wire, ∀ n ∈ wallNanos text, Fits 128 n

/-- A cell decodes to a value or an error exactly where its local time fits. -/
theorem decode_isDecoded_iff (L : JsonLibrary) (codec : ColumnCodec) (wire : Option Text) :
    IsDecoded (codec.decode L wire) ↔ LocalTimeFits codec wire := by
  by_cases hrepr : codec.jsonRepr = .timestampOffset
  · cases wire with
    | none => exact iff_of_true (isDecoded_ok _) fun _ _ h ↦ nomatch h
    | some text =>
        have hdecode : codec.decode L (some text) = decodeTimestampTz text := by
          unfold ColumnCodec.decode
          simp only [hrepr]
        rw [hdecode, decodeTimestampTz_isDecoded_iff, LocalTimeFits]
        simp only [hrepr, Option.mem_def, Option.some.injEq, forall_eq', forall_const]
  · exact iff_of_true (decode_isDecoded L hrepr wire) fun h ↦ absurd h hrepr

/-- The last instant of all, a day east of Greenwich. -/
def lastInstant : Text := "170141183460469231731687303715.884105727 2880".toList

theorem not_decode_isDecoded :
    ¬ ∀ (L : JsonLibrary) (codec : ColumnCodec) (wire : Option Text),
      IsDecoded (codec.decode L wire) := by
  intro h
  have hcell := h ⟨fun _ ↦ none, fun _ ↦ none, fun _ ↦ [], fun _ ↦ none⟩
    (.new "TIMESTAMP_TZ".toList none (some 9)) (some lastInstant)
  have hoverflow : ColumnCodec.decode ⟨fun _ ↦ none, fun _ ↦ none, fun _ ↦ [], fun _ ↦ none⟩
      (.new "TIMESTAMP_TZ".toList none (some 9)) (some lastInstant) = .error .overflow := by
    rfl
  rw [hoverflow] at hcell
  exact not_isDecoded_overflow hcell

end FrankenSnowflake.Typed
