import FrankenSnowflake.Core.TypedOverflow

/-!
# The wire codec

A second decoder of result cells, that keeps numbers as they are written and
splits an instant into whole seconds and a fraction that is never negative.  On
the instants that the typed decoder accepts as well, both read the same time.
-/

namespace FrankenSnowflake.Wire

open Foundation Foundation.Digits FrankenSnowflake.Typed

/-- The name and the `type` of a result column. -/
structure ColumnType where
  name : Text
  columnType : Text
deriving DecidableEq, Repr

inductive CellValue where
  | null
  | number (text : Text)
  | float (bits : UInt64)
  | bool (value : Bool)
  | text (text : Text)
  | date (days : Int)
  | timestamp (seconds : Int) (nanos : Nat)
  | timestampTz (seconds : Int) (nanos : Nat) (offsetMinutes : Int)
  | binary (bytes : List UInt8)
  | json (value : JsonValue)

structure WireError where
  column : Text
  snowflakeType : Text
  reason : String
deriving DecidableEq, Repr

/-- A fraction in nanoseconds: nine digits, filled up or cut off. -/
def fracToNanos (frac : Text) : Option Nat :=
  if frac = [] ∨ ¬ frac.all Char.isDigit then none
  else
    let nanos := frac.take 9
    (parseDigits (nanos ++ List.replicate (9 - nanos.length) '0')).filter (· < 2 ^ 32)

/-- `(seconds, nanos)` of `seconds + nanos / 10⁹`: a negative text with a fraction
borrows a second. -/
def parseFractionalSeconds (text : Text) : Option (Int × Nat) := do
  let negative := text.head? = some '-'
  let (intStr, fracNanos) ← (match splitOnce '.' text with
    | some (intStr, frac) => (fracToNanos frac).map fun nanos ↦ (intStr, nanos)
    | none => some (text, 0))
  let intPart ← parseSigned 64 intStr
  if ¬ negative ∨ fracNanos = 0 then return (intPart, fracNanos)
  let seconds ← (if Fits 64 (intPart - 1) then some (intPart - 1) else none)
  return (seconds, 1000000000 - fracNanos)

def hexDigit (c : Char) : Option UInt8 :=
  if c.isDigit then some (c.toUInt8 - '0'.toUInt8)
  else if 'a' ≤ c ∧ c ≤ 'f' then some (c.toUInt8 - 'a'.toUInt8 + 10)
  else if 'A' ≤ c ∧ c ≤ 'F' then some (c.toUInt8 - 'A'.toUInt8 + 10)
  else none

/-- Two digits a byte; no byte of a character beyond ASCII is a digit. -/
def decodeHex : Text → Option (List UInt8)
  | [] => some []
  | [_] => none
  | high :: low :: rest => do
      let byte := (← hexDigit high) <<< 4 ||| (← hexDigit low)
      return byte :: (← decodeHex rest)

/-- The type of a column without its parameters, in upper case. -/
def ColumnType.baseType (column : ColumnType) : Text :=
  (Unicode.trim (column.columnType.takeWhile (· ≠ '('))).map Char.toUpper

/-- The arm of `decode_cell` for a `TIMESTAMP_TZ`. -/
def decodeTimestampTzCell (text : Text) : Except String CellValue :=
  match splitOnce ' ' text with
  | none => .error "TIMESTAMP_TZ must be \"<seconds> <offset>\""
  | some (secPart, offsetPart) =>
      match parseFractionalSeconds secPart with
      | none => .error "expected fractional epoch seconds"
      | some (seconds, nanos) =>
          match parseSigned 32 offsetPart with
          | none => .error "TIMESTAMP_TZ offset must be an integer"
          | some encodedOffset =>
              -- the wire encodes an offset as its minutes and 1440
              if ¬ (720 ≤ encodedOffset ∧ encodedOffset ≤ 2160) then
                .error "TIMESTAMP_TZ offset is out of range"
              else .ok (.timestampTz seconds nanos (encodedOffset - 1440))

variable (L : JsonLibrary)

/-- Decode one cell; no text is SQL NULL. -/
def decodeCell (raw : Option Text) (column : ColumnType) : Except WireError CellValue :=
  let makeErr (reason : String) : WireError := ⟨column.name, column.columnType, reason⟩
  match raw with
  | none => .ok .null
  | some text =>
      match String.ofList column.baseType with
      | "FIXED" | "NUMBER" | "DECIMAL" | "NUMERIC" | "DECFLOAT" | "INT" | "INTEGER" | "BIGINT"
      | "SMALLINT" | "TINYINT" | "BYTEINT" => .ok (.number text)
      | "REAL" | "FLOAT" | "FLOAT4" | "FLOAT8" | "DOUBLE" | "DOUBLE PRECISION" =>
          match L.parseF64 text with
          | some bits => .ok (.float bits)
          | none => .error (makeErr "expected a numeric REAL/FLOAT")
      | "BOOLEAN" | "BOOL" =>
          match String.ofList text with
          | "true" => .ok (.bool true)
          | "false" => .ok (.bool false)
          | _ => .error (makeErr "BOOLEAN must be the string \"true\" or \"false\"")
      | "DATE" =>
          match parseSigned 64 text with
          | some days => .ok (.date days)
          | none => .error (makeErr "DATE must be an integer epoch-day count")
      | "TIME" | "TIMESTAMP_NTZ" | "TIMESTAMP_LTZ" | "DATETIME" =>
          match parseFractionalSeconds text with
          | some (seconds, nanos) => .ok (.timestamp seconds nanos)
          | none => .error (makeErr "expected fractional epoch seconds")
      | "TIMESTAMP_TZ" =>
          (decodeTimestampTzCell text).mapError makeErr
      | "BINARY" | "VARBINARY" =>
          match decodeHex text with
          | some bytes => .ok (.binary bytes)
          | none => .error (makeErr "BINARY must be an even-length hex string")
      | "VARIANT" | "OBJECT" | "ARRAY" =>
          match L.fromStr text with
          | some value => .ok (.json value)
          | none => .error (makeErr "VARIANT/OBJECT/ARRAY must hold embedded JSON")
      | _ => .ok (.text text)

/-! ## Instants -/

/-- Nine places hold a fraction that the typed decoder accepts. -/
theorem fracToNanos_eq {frac : Text} {nanos : Nat} (hlength : frac.length ≤ 9)
    (h : fracToNanos frac = some nanos) :
    frac ≠ [] ∧ nanos = 10 ^ (9 - frac.length) * Nat.ofDigitChars 10 frac 0 ∧ nanos < 10 ^ 9 := by
  unfold fracToNanos at h
  split_ifs at h with hfrac
  obtain ⟨hsome, hdigits⟩ := not_or.mp hfrac
  rw [not_not] at hdigits
  obtain ⟨hparse, -⟩ := Option.filter_eq_some_iff.mp h
  unfold parseDigits at hparse
  split_ifs at hparse
  rw [List.take_of_length_le hlength, Option.some.injEq, Nat.ofDigitChars_append,
    Nat.ofDigitChars_replicate_zero] at hparse
  refine ⟨hsome, hparse.symm, ?_⟩
  have hlt := ofDigitChars_lt (List.all_eq_true.mp hdigits)
  calc
    nanos = 10 ^ (9 - frac.length) * Nat.ofDigitChars 10 frac 0 := hparse.symm
    _ < 10 ^ (9 - frac.length) * 10 ^ frac.length :=
      Nat.mul_lt_mul_of_pos_left hlt (Nat.pow_pos (by decide))
    _ = 10 ^ 9 := by rw [← Nat.pow_add, Nat.sub_add_cancel hlength]

theorem splitOnce_cons {c d : Char} (h : d ≠ c) (s : Text) :
    splitOnce c (d :: s) = (splitOnce c s).map fun parts ↦ (d :: parts.1, parts.2) := by
  simp only [splitOnce, List.dropWhile_cons, List.takeWhile_cons, decide_eq_true h, if_true]
  cases s.dropWhile (· ≠ c) with
  | nil => rfl
  | cons e rest => rfl

/-- The whole seconds and the fraction of a text without a sign. -/
theorem parts_eq {unsigned : Text} {n : Nat} (h : magnitudeNanos unsigned = some n) :
    ∃ whole fraction, (splitOnce '.' unsigned).getD (unsigned, []) = (whole, fraction) ∧
      whole ≠ [] ∧ whole.all Char.isDigit ∧ fraction.length ≤ 9 ∧
      n = Nat.ofDigitChars 10 whole 0 * 10 ^ 9 +
        10 ^ (9 - fraction.length) * Nat.ofDigitChars 10 fraction 0 := by
  unfold magnitudeNanos at h
  cases hparts : (splitOnce '.' unsigned).getD (unsigned, []) with
  | mk whole fraction =>
      rw [hparts] at h
      dsimp only at h
      split_ifs at h with hshape
      obtain ⟨hsome, hwhole, hlength, -⟩ := hshape
      refine ⟨whole, fraction, rfl, hsome, hwhole, hlength, ?_⟩
      rw [← ofDigitChars_parts hlength]
      exact (Option.some.inj h).symm

/-- What the borrow of a second makes of the whole seconds and the fraction. -/
theorem borrow_eq {negative : Prop} [Decidable negative] {intPart seconds : Int}
    {fracNanos nanos : Nat} (hlt : fracNanos < 10 ^ 9)
    (h : (if ¬ negative ∨ fracNanos = 0 then some (intPart, fracNanos)
      else (if Fits 64 (intPart - 1) then some (intPart - 1) else none).bind fun seconds ↦
        some (seconds, 1000000000 - fracNanos)) = some (seconds, nanos)) :
    nanos < 10 ^ 9 ∧ seconds * 10 ^ 9 + nanos =
      intPart * 10 ^ 9 + if negative then -(fracNanos : Int) else fracNanos := by
  by_cases hnegative : negative
  · rw [if_pos hnegative]
    by_cases hzero : fracNanos = 0
    · rw [if_pos (.inr hzero)] at h
      obtain ⟨rfl, rfl⟩ := Prod.mk.inj (Option.some.inj h)
      exact ⟨hlt, by omega⟩
    · rw [if_neg (not_or.mpr ⟨not_not.mpr hnegative, hzero⟩)] at h
      split_ifs at h
      · obtain ⟨rfl, rfl⟩ := Prod.mk.inj (Option.some.inj h)
        exact ⟨by omega, by omega⟩
      · cases h
  · rw [if_pos (.inl hnegative)] at h
    rw [if_neg hnegative]
    obtain ⟨rfl, rfl⟩ := Prod.mk.inj (Option.some.inj h)
    exact ⟨hlt, rfl⟩

/-- The parts that the wire codec reads, and what it makes of them. -/
theorem parts_of_parseFractionalSeconds {text : Text} {seconds : Int} {nanos : Nat}
    (h : parseFractionalSeconds text = some (seconds, nanos)) :
    ∃ intStr intPart fracNanos,
      (splitOnce '.' text = none ∧ intStr = text ∧ fracNanos = 0 ∨
        ∃ frac, splitOnce '.' text = some (intStr, frac) ∧ fracToNanos frac = some fracNanos) ∧
      parseInt intStr = some intPart ∧
      (fracNanos < 10 ^ 9 → nanos < 10 ^ 9 ∧ seconds * 10 ^ 9 + nanos =
        intPart * 10 ^ 9 + if text.head? = some '-' then -(fracNanos : Int) else fracNanos) := by
  simp only [parseFractionalSeconds, Option.bind_eq_bind, Option.pure_def] at h
  obtain ⟨⟨intStr, fracNanos⟩, hparts, hrest⟩ := Option.bind_eq_some_iff.mp h
  obtain ⟨intPart, hint, hborrow⟩ := Option.bind_eq_some_iff.mp hrest
  refine ⟨intStr, intPart, fracNanos, ?_, (parseSigned_eq_some.mp hint).1,
    fun hlt ↦ borrow_eq hlt hborrow⟩
  cases hsplit : splitOnce '.' text with
  | none =>
      rw [hsplit] at hparts
      obtain ⟨rfl, rfl⟩ := Prod.mk.inj (Option.some.inj hparts)
      exact .inl ⟨rfl, rfl, rfl⟩
  | some parts =>
      rw [hsplit] at hparts
      obtain ⟨nanos, hfrac, heq⟩ := Option.map_eq_some_iff.mp hparts
      obtain ⟨rfl, rfl⟩ := Prod.mk.inj heq
      exact .inr ⟨parts.2, rfl, hfrac⟩

/-- Behind the sign, both codecs split a text at its point. -/
theorem sign_parts {intStr unsigned text : Text} {intPart : Int} {fracNanos n : Nat} {sign : Text}
    (hsign : sign = [] ∨ sign = ['-']) (htext : text = sign ++ unsigned)
    (hparts : splitOnce '.' text = none ∧ intStr = text ∧ fracNanos = 0 ∨
      ∃ frac, splitOnce '.' text = some (intStr, frac) ∧ fracToNanos frac = some fracNanos)
    (hint : parseInt intStr = some intPart) (hmagnitude : magnitudeNanos unsigned = some n) :
    ∃ whole : Nat, intPart = (if sign = [] then (whole : Int) else -(whole : Int)) ∧
      fracNanos < 10 ^ 9 ∧ n = whole * 10 ^ 9 + fracNanos := by
  obtain ⟨whole, fraction, hgetD, hsome, hwhole, hlength, rfl⟩ := parts_eq hmagnitude
  have hsplit : splitOnce '.' text =
      (splitOnce '.' unsigned).map fun parts ↦ (sign ++ parts.1, parts.2) := by
    rcases hsign with rfl | rfl
    · simp [htext]
    · rw [htext]
      exact splitOnce_cons (by decide) unsigned
  have hdigits := parseDigits_eq hsome hwhole
  have hnone : splitOnce '.' unsigned = none → whole = unsigned ∧ fraction = [] := by
    intro hnone
    rw [hnone] at hgetD
    obtain ⟨rfl, rfl⟩ := Prod.mk.inj hgetD
    exact ⟨rfl, rfl⟩
  have hread : intStr = sign ++ whole ∧ fracNanos < 10 ^ 9 ∧
      fracNanos = 10 ^ (9 - fraction.length) * Nat.ofDigitChars 10 fraction 0 := by
    cases hunsigned : splitOnce '.' unsigned with
    | none =>
        obtain ⟨rfl, rfl⟩ := hnone hunsigned
        rw [hsplit, hunsigned] at hparts
        rcases hparts with ⟨-, rfl, rfl⟩ | ⟨_, hcut, -⟩
        · exact ⟨htext, by decide, rfl⟩
        · cases hcut
    | some parts =>
        rw [hunsigned] at hgetD
        obtain rfl : parts = (whole, fraction) := hgetD
        rw [hsplit, hunsigned] at hparts
        rcases hparts with ⟨hcut, -, -⟩ | ⟨frac, hcut, hfrac⟩
        · cases hcut
        · obtain ⟨rfl, rfl⟩ := Prod.mk.inj (Option.some.inj hcut)
          obtain ⟨-, heq, hlt⟩ := fracToNanos_eq hlength hfrac
          exact ⟨rfl, hlt, heq⟩
  obtain ⟨rfl, hlt, heq⟩ := hread
  refine ⟨Nat.ofDigitChars 10 whole 0, ?_, hlt, by rw [heq]⟩
  rcases hsign with rfl | rfl
  · rw [List.nil_append, parseInt_digits hsome hwhole] at hint
    exact (Option.some.inj hint).symm
  · have hminus : parseInt (['-'] ++ whole) = (parseDigits whole).map fun n : Nat ↦ -(n : Int) :=
      rfl
    rw [hminus, hdigits] at hint
    exact (Option.some.inj hint).symm

/-- Where both codecs read a text, they read the same instant. -/
theorem parseFractionalSeconds_eq {text : Text} {seconds n : Int} {nanos : Nat}
    (hwire : parseFractionalSeconds text = some (seconds, nanos))
    (htyped : instantNanos text = some n) : nanos < 10 ^ 9 ∧ seconds * 10 ^ 9 + nanos = n := by
  obtain ⟨intStr, intPart, fracNanos, hparts, hint, heq⟩ := parts_of_parseFractionalSeconds hwire
  by_cases hminus : text.head? = some '-'
  · rw [if_pos hminus] at heq
    obtain ⟨unsigned, rfl⟩ := List.head?_eq_some_iff.mp hminus
    obtain ⟨m, hm, rfl⟩ := Option.map_eq_some_iff.mp htyped
    obtain ⟨whole, rfl, hlt, rfl⟩ := sign_parts (.inr rfl) rfl hparts hint hm
    obtain ⟨hnanos, hsum⟩ := heq hlt
    rw [if_neg (List.cons_ne_nil _ _)] at hsum
    exact ⟨hnanos, by omega⟩
  · rw [if_neg hminus] at heq
    rcases sign_cases text with ⟨unsigned, rfl⟩ | ⟨-, hinstant⟩
    · exact absurd rfl hminus
    · rw [hinstant] at htyped
      obtain ⟨m, hm, rfl⟩ := Option.map_eq_some_iff.mp htyped
      obtain ⟨whole, rfl, hlt, rfl⟩ := sign_parts (.inl rfl) rfl hparts hint hm
      obtain ⟨hnanos, hsum⟩ := heq hlt
      rw [if_pos rfl] at hsum
      exact ⟨hnanos, by simp only [Int.ofNat_eq_natCast]; omega⟩

/-! ## The text of a time zone -/

/-- A sign, hours and minutes. -/
def readZone : Text → Option Int
  | sign :: s => do
      let (hours, s) ← readDigits 2 s
      let (minutes, s) ← readField ':' 2 s
      if s ≠ [] then none
      else if sign = '+' then some (hours * 60 + minutes : Nat)
      else if sign = '-' then some (-(hours * 60 + minutes : Nat))
      else none
  | [] => none

/-- The instant and the offset that the text of a `TIMESTAMP_TZ` denotes: it ends
in the six characters of its zone. -/
def readTimestampOffset (s : Text) : Option (Int × Int) := do
  let wall ← readTimestamp (s.take (s.length - 6))
  let offset ← readZone (s.drop (s.length - 6))
  return (wall - offset * 60 * nanosPerSecond, offset)

/-- The zone of an offset is read back. -/
theorem readZone_offset {offset : Int} (hlo : -1440 ≤ offset) (hhi : offset ≤ 1440) :
    ∃ zone : Text, zone = (if offset < 0 then '-' else '+') ::
        (printInt 2 (|offset|.tdiv 60) ++ ':' :: printInt 2 (|offset|.tmod 60)) ∧
      zone.length = 6 ∧ readZone zone = some offset := by
  obtain ⟨n, hn⟩ : ∃ n : Nat, |offset| = n := ⟨offset.natAbs, (Int.natCast_natAbs offset).symm⟩
  have hle : n ≤ 1440 := by
    have := abs_le.mpr ⟨hlo, hhi⟩
    omega
  have hhours : printInt 2 ((n : Int).tdiv 60) = padded 2 (n / 60) := printInt_natCast 2 (n / 60)
  have hminutes : printInt 2 ((n : Int).tmod 60) = padded 2 (n % 60) := printInt_natCast 2 (n % 60)
  refine ⟨_, rfl, ?_, ?_⟩
  · rw [hn, hhours, hminutes, List.length_cons, List.length_append, List.length_cons,
      length_padded (by decide) (by omega), length_padded (by decide) (by omega)]
  · have hfield : readField ':' 2 (':' :: padded 2 (n % 60)) = some (n % 60, []) := by
      have h := readField_append (by decide) (show n % 60 < 10 ^ 2 by omega) ':' []
      rwa [List.append_nil] at h
    have hsum : n / 60 * 60 + n % 60 = n := Nat.div_add_mod' n 60
    rw [hn, hhours, hminutes, readZone, readDigits_padded (by decide) (by omega)]
    simp only [Option.bind_eq_bind, Option.bind_some, hfield, ne_eq, not_true, if_false, hsum]
    by_cases hnegative : offset < 0
    · rw [if_pos hnegative, if_neg (by decide), if_pos rfl]
      rw [abs_of_neg hnegative] at hn
      exact congrArg some (by omega)
    · rw [if_neg hnegative, if_pos rfl]
      rw [abs_of_nonneg (not_lt.mp hnegative)] at hn
      exact congrArg some (by omega)

/-! ## Agreement -/

theorem i128_eq_ok {n m : Int} : i128 n = .ok m ↔ Fits 128 n ∧ n = m := by
  unfold i128
  split_ifs with hfits
  · exact ⟨fun h ↦ ⟨hfits, Except.ok.inj h⟩, fun h ↦ congrArg _ h.2⟩
  · exact ⟨nofun, fun h ↦ absurd h.1 hfits⟩

/-- No number has whitespace around it. -/
theorem trim_of_parseInt {s : Text} {n : Int} (h : parseInt s = some n) : Unicode.trim s = s := by
  have hdigits {digits : Text} {m : Nat} (hparse : parseDigits digits = some m) :
      ∀ c ∈ digits, Unicode.isWhitespace c = false := by
    unfold parseDigits at hparse
    split_ifs at hparse with hall
    intro c hc
    have hbounds := Char.isDigit_iff_toNat.mp (List.all_eq_true.mp hall.2 c hc)
    have hzero : '0'.toNat = 48 := rfl
    have hnine : '9'.toNat = 57 := rfl
    simp only [Unicode.isWhitespace, Bool.or_eq_false_iff, Bool.and_eq_false_iff,
      decide_eq_false_iff_not, beq_eq_false_iff_ne]
    omega
  apply Unicode.trim_eq_self
  unfold parseInt at h
  split at h
  · obtain ⟨m, hm, -⟩ := Option.map_eq_some_iff.mp h
    exact List.forall_mem_cons.mpr ⟨by decide, hdigits hm⟩
  · obtain ⟨m, hm, -⟩ := Option.map_eq_some_iff.mp h
    exact List.forall_mem_cons.mpr ⟨by decide, hdigits hm⟩
  · obtain ⟨m, hm, -⟩ := Option.map_eq_some_iff.mp h
    exact hdigits hm

/-- The text of the typed decoder denotes the instant and the offset of the cell. -/
theorem readTimestampOffset_decodeTimestampTz {text instant offset : Text} {encoded : Int}
    {value : JsonValue} (hsplit : splitOnce ' ' text = some (instant, offset))
    (hoffset : parseInt offset = some encoded) (h : decodeTimestampTz text = .ok value) :
    ∃ n t, instantNanos instant = some n ∧ value = .string t ∧
      readTimestampOffset t = some (n, encoded - 1440) := by
  unfold decodeTimestampTz at h
  rw [hsplit] at h
  dsimp only at h
  rw [trim_of_parseInt hoffset] at h
  cases hraw : parseSigned 128 offset with
  | none =>
      rw [hraw] at h
      cases h
  | some raw =>
      obtain rfl : encoded = raw :=
        Option.some.inj (hoffset.symm.trans (parseSigned_eq_some.mp hraw).1)
      rw [hraw] at h
      dsimp only at h
      split_ifs at h with hrange
      obtain ⟨minutes, hminutes, h⟩ := bind_eq_ok_iff.mp h
      obtain ⟨-, rfl⟩ := i128_eq_ok.mp hminutes
      obtain ⟨n, hn, h⟩ := bind_eq_ok_iff.mp h
      obtain ⟨seconds, hseconds, h⟩ := bind_eq_ok_iff.mp h
      obtain ⟨-, rfl⟩ := i128_eq_ok.mp hseconds
      obtain ⟨nanos, hnanos, h⟩ := bind_eq_ok_iff.mp h
      obtain ⟨-, rfl⟩ := i128_eq_ok.mp hnanos
      obtain ⟨wall, hwall, h⟩ := bind_eq_ok_iff.mp h
      obtain ⟨hfits, rfl⟩ := i128_eq_ok.mp hwall
      obtain ⟨magnitude, hmagnitude, h⟩ := bind_eq_ok_iff.mp h
      obtain ⟨-, rfl⟩ := i128_eq_ok.mp hmagnitude
      obtain ⟨t, ht, h⟩ := bind_eq_ok_iff.mp h
      obtain ⟨t', ht', hread⟩ := readTimestamp_formatTimestamp ⟨_, hfits⟩
      obtain rfl := Except.ok.inj (ht.symm.trans ht')
      obtain ⟨zone, hzone, hlength, hreadZone⟩ := @readZone_offset (encoded - 1440)
        (by omega) (by omega)
      refine ⟨n, t ++ zone, (instantNanos_of_ok hn).1, ?_, ?_⟩
      · rw [hzone, ← Except.ok.inj h, List.append_assoc]
        rfl
      · have hlen : (t ++ zone).length - 6 = t.length := by simp [hlength]
        rw [readTimestampOffset, hlen, List.take_left, List.drop_left, hread, hreadZone]
        simp

/-- A cell with an offset decodes from its two parts. -/
theorem parts_of_decodeTimestampTzCell {text : Text} {value : CellValue}
    (h : decodeTimestampTzCell text = .ok value) :
    ∃ instant offset encoded seconds nanos, splitOnce ' ' text = some (instant, offset) ∧
      parseInt offset = some encoded ∧ parseFractionalSeconds instant = some (seconds, nanos) ∧
      value = .timestampTz seconds nanos (encoded - 1440) := by
  unfold decodeTimestampTzCell at h
  cases hsplit : splitOnce ' ' text with
  | none =>
      rw [hsplit] at h
      cases h
  | some parts =>
      obtain ⟨instant, offset⟩ := parts
      rw [hsplit] at h
      dsimp only at h
      cases hseconds : parseFractionalSeconds instant with
      | none =>
          rw [hseconds] at h
          cases h
      | some pair =>
          obtain ⟨seconds, nanos⟩ := pair
          rw [hseconds] at h
          dsimp only at h
          cases hoffset : parseSigned 32 offset with
          | none =>
              rw [hoffset] at h
              cases h
          | some encoded =>
              rw [hoffset] at h
              dsimp only at h
              split_ifs at h
              exact ⟨instant, offset, encoded, seconds, nanos, rfl,
                (parseSigned_eq_some.mp hoffset).1, hseconds, (Except.ok.inj h).symm⟩

/-- Its arm is taken for every column of this type. -/
theorem decodeCell_timestampTz {L : JsonLibrary} {column : ColumnType}
    (hcolumn : column.baseType = "TIMESTAMP_TZ".toList) (text : Text) :
    decodeCell L (some text) column =
      (decodeTimestampTzCell text).mapError fun reason ↦
        ⟨column.name, column.columnType, reason⟩ := by
  unfold decodeCell
  rw [hcolumn]
  rfl

/-- The temporal decoders agree: on seconds, and on the instant and the offset of a
`TIMESTAMP_TZ`. -/
theorem temporalDecoders_agree (L : JsonLibrary) :
    (∀ (text : Text) (seconds n : Int) (nanos : Nat),
      parseFractionalSeconds text = some (seconds, nanos) → parseEpochNanos text = .ok n →
        nanos < 10 ^ 9 ∧ seconds * 10 ^ 9 + nanos = n) ∧
    ∀ (text : Text) (column : ColumnType) (codec : ColumnCodec) (cell : CellValue)
      (value : JsonValue), column.baseType = "TIMESTAMP_TZ".toList →
      codec.jsonRepr = .timestampOffset → decodeCell L (some text) column = .ok cell →
      codec.decode L (some text) = .ok value →
        ∃ seconds nanos offset t, cell = .timestampTz seconds nanos offset ∧ value = .string t ∧
          readTimestampOffset t = some (seconds * 10 ^ 9 + nanos, offset) := by
  constructor
  · intro text seconds n nanos hwire htyped
    exact parseFractionalSeconds_eq hwire (instantNanos_of_ok htyped).1
  · intro text column codec cell value hcolumn hcodec hwire htyped
    rw [decodeCell_timestampTz hcolumn] at hwire
    have hcell : decodeTimestampTzCell text = .ok cell := by
      cases hresult : decodeTimestampTzCell text with
      | error reason =>
          rw [hresult] at hwire
          cases hwire
      | ok cell' =>
          rw [hresult] at hwire
          exact congrArg _ (Except.ok.inj hwire)
    obtain ⟨instant, offset, encoded, seconds, nanos, hsplit, hoffset, hseconds, rfl⟩ :=
      parts_of_decodeTimestampTzCell hcell
    have hdecode : codec.decode L (some text) = decodeTimestampTz text := by
      unfold ColumnCodec.decode
      simp only [hcodec]
    rw [hdecode] at htyped
    obtain ⟨n, t, hn, rfl, hread⟩ := readTimestampOffset_decodeTimestampTz hsplit hoffset htyped
    obtain ⟨-, rfl⟩ := parseFractionalSeconds_eq hseconds hn
    exact ⟨seconds, nanos, _, t, rfl, rfl, hread⟩

/-- Half a second before the epoch, and eight hours west of Greenwich. -/
theorem temporalDecoders_agree_halfSecond :
    (500000000 < 10 ^ 9 ∧ (-1 : Int) * 10 ^ 9 + (500000000 : Nat) = -500000000) ∧
      ∃ seconds nanos offset t, CellValue.timestampTz (-1) 500000000 (-480) =
          .timestampTz seconds nanos offset ∧
        JsonValue.string "1969-12-31T15:59:59.500000000-08:00".toList = .string t ∧
        readTimestampOffset t = some (seconds * 10 ^ 9 + (nanos : Nat), offset) := by
  have hdecode : (decodeTimestampTz "-0.5 960".toList).toOption.bind JsonValue.asStr? =
      some "1969-12-31T15:59:59.500000000-08:00".toList := by
    decide +kernel
  have htyped : decodeTimestampTz "-0.5 960".toList =
      .ok (.string "1969-12-31T15:59:59.500000000-08:00".toList) := by
    generalize decodeTimestampTz "-0.5 960".toList = decoded at hdecode ⊢
    cases decoded with
    | error e => cases hdecode
    | ok value =>
        cases value with
        | string t =>
            rw [Option.some.inj hdecode]
        | _ => cases hdecode
  let L : JsonLibrary := ⟨fun _ ↦ none, fun _ ↦ none, fun _ ↦ [], fun _ ↦ none⟩
  exact ⟨(temporalDecoders_agree L).1 "-0.5".toList (-1) (-500000000) 500000000
      (by decide +kernel) (by decide +kernel),
    (temporalDecoders_agree L).2 "-0.5 960".toList ⟨"t".toList, "TIMESTAMP_TZ(9)".toList⟩
      (.new "TIMESTAMP_TZ".toList none (some 9)) (.timestampTz (-1) 500000000 (-480)) _
      (by decide +kernel) (by decide +kernel) rfl htyped⟩

end FrankenSnowflake.Wire
