import FrankenSnowflake.Core.TypedOverflow
import FrankenSnowflake.Export.ParquetColumns
import FrankenSnowflake.Foundation.Split
import FrankenSnowflake.Foundation.Utf8

/-!
# Encoding a cell for Parquet

`encode_cell` turns the text of a cell into a value of its column.  The numbers
are read with checked arithmetic; the calendar and the offset of a time zone are
not.
-/

namespace FrankenSnowflake.Parquet

open Foundation Foundation.Digits Foundation.Calendar FrankenSnowflake.Typed

/-! ## Arithmetic -/

/-- Why a cell has no value: an operation left the range of its type, or the cell
is refused with a message. -/
inductive CellFault where
  | overflow
  | sink (message : String)
deriving DecidableEq, Repr

abbrev Encode (α : Type) : Type := Except CellFault α

/-- The result of an operation on signed integers. -/
def signed (bits : Nat) (n : Int) : Encode Int := if Fits bits n then .ok n else .error .overflow

/-- The result of an operation on `u32`. -/
def u32 (n : Int) : Encode Int := if 0 ≤ n ∧ n < 2 ^ 32 then .ok n else .error .overflow

/-- `n as u32`. -/
def asU32 (n : Int) : Int := n % 2 ^ 32

/-- `n as i32`. -/
def asI32 (n : Int) : Int := n.bmod (2 ^ 32)

/-- Days since 1970-01-01; a month before March counts for the year before. -/
def daysFromCivil (y m d : Int) : Encode Int := do
  let (y, m) ← (if m ≤ 2 then do return (← signed 32 (y - 1), ← u32 (m + 9))
    else do return (y, ← u32 (m - 3)))
  let era := (← (if 0 ≤ y then .ok y else signed 32 (y - 399))).tdiv 400
  let yoe := asU32 (← signed 32 (y - (← signed 32 (era * 400))))
  let months := (← u32 ((← u32 (153 * m)) + 2)) / 5
  let doy ← u32 ((← u32 (months + d)) - 1)
  let years ← u32 ((← u32 ((← u32 (yoe * 365)) + yoe / 4)) - yoe / 100)
  let doe ← u32 (years + doy)
  let days ← signed 32 ((← signed 32 (era * 146097)) + asI32 doe)
  signed 32 (days - 719468)

/-! ## Texts -/

/-- The year, month and day of `YYYY-MM-DD`. -/
def isoParts (s : Text) : Option (Int × Nat × Nat) :=
  match s.splitOn '-' with
  | [year, month, day] => do
      let y ← parseSigned 32 year
      let m ← parseUnsigned 32 month
      let d ← parseUnsigned 32 day
      return (y, m, d)
  | _ => none

def parseIsoDateToDays (s : Text) : Encode (Option Int) :=
  match isoParts s with
  | none => .ok none
  | some (y, m, d) => do return some (← daysFromCivil y m d)

/-- Digits behind those of `value`, checked. -/
def pushDigits : Int → Text → Option Int
  | value, [] => some value
  | value, c :: digits =>
      ((checked (value * 10)).bind fun v ↦ checked (v + (c.toNat - '0'.toNat : Nat))).bind fun v ↦
        pushDigits v digits

/-- A zero behind `value` for every digit of the scale that is left. -/
def scaleUp : Nat → Int → Option Int
  | 0, value => some value
  | digits + 1, value => (checked (value * 10)).bind fun v ↦ scaleUp digits v

/-- The unscaled integer of a plain decimal at `scale` digits; digits beyond that
must be zeros. -/
def parseScaledDecimal (text : Text) (scale : Nat) : Encode Int :=
  let (negative, body) := match text with
    | '-' :: body => (true, body)
    | '+' :: body => (false, body)
    | body => (false, body)
  let (intPart, fracPart) := (splitOnce '.' body).getD (body, [])
  if intPart = [] ∧ fracPart = [] then .error (.sink "empty number")
  else if ¬ intPart.all Char.isDigit ∨ ¬ fracPart.all Char.isDigit then
    .error (.sink "not a plain decimal")
  else
    let keep := min scale fracPart.length
    if (fracPart.drop keep).any (· ≠ '0') then
      .error (.sink ("more than " ++ toString scale ++ " fractional digits (refusing to round)"))
    else
      match (pushDigits 0 (intPart ++ fracPart.take keep)).bind fun value ↦
          scaleUp (scale - keep) value with
      | none => .error (.sink "outside the 128-bit range")
      | some value => if negative then signed 128 (-value) else .ok value

def scaledSecondsI64 (seconds : Text) (unit : TimeUnit) : Encode Int := do
  let value ← parseScaledDecimal seconds unit.digits
  if Fits 64 value then return value
  else .error (.sink ("outside the INT64 range for " ++
    match unit with
    | .micros => "Micros"
    | .nanos => "Nanos"))

def digit16 (c : Char) : Option Nat :=
  if c.isDigit then some (c.toNat - '0'.toNat)
  else if 'a' ≤ c ∧ c ≤ 'f' then some (c.toNat - 'a'.toNat + 10)
  else if 'A' ≤ c ∧ c ≤ 'F' then some (c.toNat - 'A'.toNat + 10)
  else none

/-- Two digits a byte; no byte of a character beyond ASCII is a digit. -/
def decodeHex : Text → Option (List UInt8)
  | [] => some []
  | [_] => none
  | high :: low :: rest => do
      let byte := (← digit16 high) * 16 + (← digit16 low)
      return .ofNat byte :: (← decodeHex rest)

/-! ## Cells -/

/-- A PLAIN value. -/
inductive PlainValue where
  | bool (value : Bool)
  | i32 (value : Int)
  | i64 (value : Int)
  | f64 (bits : UInt64)
  | bytes (bytes : List UInt8)
  | fixed (bytes : List UInt8)
deriving DecidableEq, Repr

def cellError (cell : Text) (target detail : String) : CellFault :=
  .sink ("cannot encode `" ++ String.ofList (cell.take 64) ++ "` as " ++ target ++
    " without loss: " ++ detail)

/-- `map_err(|e| cell_error(s, target, e))`. -/
def withCell {α : Type} (cell : Text) (target : String) (result : Encode α) : Encode α :=
  match result with
  | .error (.sink detail) => .error (cellError cell target detail)
  | result => result

/-- `i128::to_be_bytes`, the last `width` of them. -/
def beBytes (width : Nat) (n : Int) : List UInt8 :=
  (List.range width).map fun i ↦ .ofNat ((n / 256 ^ (width - 1 - i) % 256).toNat)

/-- Encode one cell; `parseF64` is `str::parse::<f64>`, as bits. -/
def encodeCell (parseF64 : Text → Option UInt64) (desc : ParquetColumnDescriptor) (s : Text) :
    Encode PlainValue :=
  let trimmed := Unicode.trim s
  match desc.codec with
  | .text => .ok (.bytes (Utf8.encode s))
  | .hexBytes =>
      match decodeHex trimmed with
      | some bytes => .ok (.bytes bytes)
      | none => .error (cellError s "BINARY" "not an even-length hex string")
  | .boolean =>
      match String.ofList (trimmed.map Char.toLower) with
      | "true" | "t" | "1" => .ok (.bool true)
      | "false" | "f" | "0" => .ok (.bool false)
      | _ => .error (cellError s "BOOLEAN" "not true/false")
  | .integer => do
      let value ← withCell s "INT64" (parseScaledDecimal trimmed 0)
      if Fits 64 value then return .i64 value
      else .error (cellError s "INT64" "outside the 64-bit range")
  | .float =>
      match parseF64 trimmed with
      | some bits => .ok (.f64 bits)
      | none =>
          .error (cellError s "DOUBLE"
            (if trimmed = [] then "cannot parse float from empty string"
            else "invalid float literal"))
  | .decimal precision scale => do
      let target := "DECIMAL(" ++ toString precision ++ "," ++ toString scale ++ ")"
      let unscaled ← withCell s target (parseScaledDecimal trimmed scale)
      let limit ← signed 128 (10 ^ min precision 38)
      if limit ≤ (← signed 128 |unscaled|) then
        .error (cellError s target "more digits than the declared precision")
      else
        match desc.physical with
        | .int32 =>
            if Fits 32 unscaled then .ok (.i32 unscaled)
            else .error (cellError s target "outside INT32")
        | .int64 =>
            if Fits 64 unscaled then .ok (.i64 unscaled)
            else .error (cellError s target "outside INT64")
        | _ =>
            let width := (max 1 (min (desc.typeLength.getD 16) 16)).toNat
            .ok (.fixed (beBytes width unscaled))
  | .date =>
      match parseSigned 32 trimmed with
      | some days => .ok (.i32 days)
      | none => do
          match ← parseIsoDateToDays trimmed with
          | some days => return .i32 days
          | none => .error (cellError s "DATE" "not days-since-epoch or YYYY-MM-DD")
  | .timeOfDay unit | .epoch unit => do
      let value ← withCell s "TIME/TIMESTAMP" (scaledSecondsI64 trimmed unit)
      return .i64 value
  | .tzInstant unit => do
      let instant := (Unicode.splitWhitespace trimmed).head?.getD []
      let value ← withCell s "TIMESTAMP_TZ" (scaledSecondsI64 instant unit)
      return .i64 value
  | .tzOffsetMinutes =>
      match (Unicode.splitWhitespace trimmed)[1]?.bind (parseSigned 32) with
      | none => .error (cellError s "TIMESTAMP_TZ offset" "missing `<offset+1440>`")
      | some raw => do
          let minutes ← signed 32 (raw - 1440)
          if ¬ (-1440 ≤ minutes ∧ minutes ≤ 1440) then
            .error (cellError s "TIMESTAMP_TZ offset" "outside ±24h")
          else return .i32 minutes

/-! ## Dates -/

theorem signed_ok {bits : Nat} {n : Int} (h : Fits bits n) : signed bits n = .ok n := if_pos h

theorem u32_ok {n : Int} (hpos : 0 ≤ n) (hlt : n < 2 ^ 32) : u32 n = .ok n := if_pos ⟨hpos, hlt⟩

theorem fits32 {n : Int} (hlo : -2 ^ 31 ≤ n) (hhi : n < 2 ^ 31) : Fits 32 n := ⟨hlo, hhi⟩

theorem asI32_eq {n : Int} (hlo : -2 ^ 31 ≤ n) (hhi : n < 2 ^ 31) : asI32 n = n := by
  unfold asI32
  rw [Int.bmod_def]
  split_ifs <;> omega

/-- What follows the shift of the year to March. -/
def daysOfMarchYear (y m d : Int) : Encode Int := do
  let era := (← (if 0 ≤ y then .ok y else signed 32 (y - 399))).tdiv 400
  let yoe := asU32 (← signed 32 (y - (← signed 32 (era * 400))))
  let months := (← u32 ((← u32 (153 * m)) + 2)) / 5
  let doy ← u32 ((← u32 (months + d)) - 1)
  let years ← u32 ((← u32 ((← u32 (yoe * 365)) + yoe / 4)) - yoe / 100)
  let doe ← u32 (years + doy)
  let days ← signed 32 ((← signed 32 (era * 146097)) + asI32 doe)
  signed 32 (days - 719468)

/-- The day number of a year from March on, if its sums stay within 32 bits. -/
theorem daysOfMarchYear_eq {y m d : Int} (hy : -1 ≤ y) (hylt : y < 2 ^ 31) (hm : 0 ≤ m)
    (hmle : m ≤ 11) (hd : 1 ≤ d) (hdle : d ≤ 31) :
    daysOfMarchYear y m d =
      let days := y / 400 * 146097 +
        (y % 400 * 365 + y % 400 / 4 - y % 400 / 100 + ((153 * m + 2) / 5 + d - 1))
      if days < 2 ^ 31 then .ok (days - 719468) else .error .overflow := by
  have hera : (if 0 ≤ y then (.ok y : Encode Int) else signed 32 (y - 399)) =
      .ok (if 0 ≤ y then y else y - 399) := by
    split_ifs
    · rfl
    · exact signed_ok (fits32 (by omega) (by omega))
  have hdiv : (if 0 ≤ y then y else y - 399).tdiv 400 = y / 400 := by
    split_ifs with hpos
    · exact Int.tdiv_eq_ediv_of_nonneg hpos
    · obtain rfl : y = -1 := by omega
      rfl
  have hyoe : asU32 (y - y / 400 * 400) = y % 400 := by
    unfold asU32
    omega
  have hdecompose := Int.emod_add_mul_ediv y 400
  have hpos := Int.emod_nonneg y (b := 400) (by decide)
  have hlt := Int.emod_lt_of_pos y (b := 400) (by decide)
  unfold daysOfMarchYear
  rw [hera, ok_bind]
  dsimp only
  rw [hdiv, signed_ok (fits32 (by omega) (by omega) : Fits 32 (y / 400 * 400)), ok_bind,
    signed_ok (fits32 (by omega) (by omega)), ok_bind, hyoe]
  generalize y / 400 = era at *
  generalize y % 400 = yoe at *
  rw [u32_ok (n := 153 * m) (by omega) (by omega), ok_bind,
    u32_ok (n := 153 * m + 2) (by omega) (by omega), ok_bind,
    u32_ok (n := (153 * m + 2) / 5 + d) (by omega) (by omega), ok_bind,
    u32_ok (n := (153 * m + 2) / 5 + d - 1) (by omega) (by omega), ok_bind,
    u32_ok (n := yoe * 365) (by omega) (by omega), ok_bind,
    u32_ok (n := yoe * 365 + yoe / 4) (by omega) (by omega), ok_bind,
    u32_ok (n := yoe * 365 + yoe / 4 - yoe / 100) (by omega) (by omega), ok_bind,
    u32_ok (by omega) (by omega), ok_bind, asI32_eq (by omega) (by omega)]
  obtain ⟨doe, hdoe⟩ : ∃ doe, doe = yoe * 365 + yoe / 4 - yoe / 100 +
      ((153 * m + 2) / 5 + d - 1) := ⟨_, rfl⟩
  rw [← hdoe]
  by_cases hfits : era * 146097 + doe < 2 ^ 31
  · rw [if_pos hfits, signed_ok (fits32 (by omega) (by omega)), ok_bind,
      signed_ok (fits32 (by omega) hfits), ok_bind, signed_ok (fits32 (by omega) (by omega))]
  · rw [if_neg hfits]
    by_cases hera : Fits 32 (era * 146097)
    · rw [signed_ok hera, ok_bind, signed, if_neg fun h ↦ hfits h.2]
      rfl
    · rw [signed, if_neg hera]
      rfl

/-- A date has its day number, if the count from March of year 0 stays within 32
bits. -/
theorem daysFromCivil_date (d : Date) (hy : 0 ≤ d.year) (hylt : d.year < 2 ^ 31) :
    daysFromCivil d.year d.month d.day =
      if d.dayNumber + 719468 < 2 ^ 31 then .ok d.dayNumber else .error .overflow := by
  have hone := d.one_le_day
  have hday : d.day ≤ 31 := d.day_le.trans (daysInMonth_le _ _)
  have hfirst := d.one_le_month
  have htwelve := d.month_le
  have hmarch := daysBefore_march d.year hfirst htwelve
  -- the day number, from the years and the days since a first of March
  have hnumber (y m : Int) (hyear : (if d.month ≤ 2 then d.year else d.year + 1) = y + 1)
      (hmonth : ((d.month + 9) % 12 : Nat) = m) :
      y / 400 * 146097 + (y % 400 * 365 + y % 400 / 4 - y % 400 / 100 +
        ((153 * m + 2) / 5 + d.day - 1)) = d.dayNumber + 719468 := by
    rw [hyear] at hmarch
    unfold Date.dayNumber epochDays
    unfold daysBeforeYear at hmarch ⊢
    omega
  have hresult (y m : Int) (hyear : (if d.month ≤ 2 then d.year else d.year + 1) = y + 1)
      (hmonth : ((d.month + 9) % 12 : Nat) = m) (hy : -1 ≤ y) (hylt : y < 2 ^ 31) :
      daysOfMarchYear y m d.day =
        if d.dayNumber + 719468 < 2 ^ 31 then .ok d.dayNumber else .error .overflow := by
    rw [daysOfMarchYear_eq hy hylt (by omega) (by omega) (by omega) (by omega)]
    dsimp only
    rw [hnumber y m hyear hmonth, add_sub_cancel_right]
  by_cases hmonth : d.month ≤ 2
  · rw [if_pos hmonth] at hresult
    have hshift : daysFromCivil d.year d.month d.day =
        daysOfMarchYear (d.year - 1) (d.month + 9) d.day := by
      rw [daysFromCivil, if_pos (by omega), signed_ok (fits32 (by omega) (by omega)), ok_bind,
        u32_ok (by omega) (by omega)]
      rfl
    rw [hshift]
    exact hresult _ _ (by omega) (by omega) (by omega) (by omega)
  · rw [if_neg hmonth] at hresult
    have hshift : daysFromCivil d.year d.month d.day =
        daysOfMarchYear d.year (d.month - 3) d.day := by
      rw [daysFromCivil, if_neg (by omega), u32_ok (by omega) (by omega)]
      rfl
    rw [hshift]
    exact hresult _ _ rfl (by omega) (by omega) hylt

/-! ## Decimals -/

/-- The arithmetic on the way stays within its types. -/
def Total {α : Type} (result : Encode α) : Prop := result ≠ .error .overflow

variable {α β : Type}

theorem total_ok (value : α) : Total (.ok value : Encode α) := nofun

theorem total_sink (message : String) : Total (.error (.sink message) : Encode α) := nofun

theorem Total.bind {x : Encode α} {f : α → Encode β} (hx : Total x)
    (hf : ∀ a, x = .ok a → Total (f a)) : Total (x >>= f) := by
  cases x with
  | ok a => exact hf a rfl
  | error fault =>
      cases fault with
      | overflow => exact absurd rfl hx
      | sink message => exact total_sink message

theorem Total.withCell {x : Encode α} (hx : Total x) (cell : Text) (target : String) :
    Total (withCell cell target x) := by
  cases x with
  | ok a => exact total_ok a
  | error fault =>
      cases fault with
      | overflow => exact absurd rfl hx
      | sink message => exact total_sink _

theorem eq_ok_of_withCell {cell : Text} {target : String} {x : Encode α} {a : α}
    (h : withCell cell target x = .ok a) : x = .ok a := by
  cases x with
  | ok b => exact h
  | error fault => cases fault <;> cases h

theorem checked_eq_some {n m : Int} : checked n = some m ↔ Fits 128 n ∧ n = m := by
  unfold checked
  split_ifs with hfits
  · exact ⟨fun h ↦ ⟨hfits, Option.some.inj h⟩, fun h ↦ congrArg _ h.2⟩
  · exact ⟨nofun, fun h ↦ absurd h.1 hfits⟩

/-- The numbers that checked arithmetic reads: their negatives fit as well. -/
def Magnitude (n : Int) : Prop := 0 ≤ n ∧ n < 2 ^ 127

theorem magnitude_of_checked {n m : Int} (h : checked n = some m) (hpos : 0 ≤ n) :
    Magnitude m := by
  obtain ⟨hfits, rfl⟩ := checked_eq_some.mp h
  exact ⟨hpos, hfits.2⟩

theorem magnitude_of_pushDigits {digits : Text} {n m : Int} (h : pushDigits n digits = some m)
    (hn : Magnitude n) : Magnitude m := by
  induction digits generalizing n with
  | nil => exact Option.some.inj h ▸ hn
  | cons c digits ih =>
      obtain ⟨v, hv, hrest⟩ := Option.bind_eq_some_iff.mp h
      obtain ⟨w, hw, hsum⟩ := Option.bind_eq_some_iff.mp hv
      have hpos := magnitude_of_checked hw (by have := hn.1; omega)
      exact ih hrest (magnitude_of_checked hsum (by have := hpos.1; omega))

theorem magnitude_of_scaleUp {digits : Nat} {n m : Int} (h : scaleUp digits n = some m)
    (hn : Magnitude n) : Magnitude m := by
  induction digits generalizing n with
  | zero => exact Option.some.inj h ▸ hn
  | succ digits ih =>
      obtain ⟨v, hv, hrest⟩ := Option.bind_eq_some_iff.mp h
      exact ih hrest (magnitude_of_checked hv (by have := hn.1; omega))

/-- A number is read without an overflow, and its magnitude fits as well. -/
def ReadsMagnitude (result : Encode Int) : Prop :=
  Total result ∧ ∀ n, result = .ok n → Magnitude |n|

theorem readsMagnitude_sink (message : String) : ReadsMagnitude (.error (.sink message)) :=
  ⟨total_sink message, nofun⟩

theorem readsMagnitude_sign {value : Int} (h : Magnitude value) (negative : Bool) :
    ReadsMagnitude (if negative then signed 128 (-value) else .ok value) := by
  obtain ⟨hpos, hlt⟩ := h
  cases negative with
  | true =>
      rw [if_pos rfl, signed_ok ⟨by omega, by omega⟩]
      refine ⟨total_ok _, ?_⟩
      rintro n ⟨⟩
      rw [abs_neg, abs_of_nonneg hpos]
      exact ⟨hpos, hlt⟩
  | false =>
      refine ⟨total_ok _, ?_⟩
      rintro n ⟨⟩
      rw [abs_of_nonneg hpos]
      exact ⟨hpos, hlt⟩

theorem parseScaledDecimal_reads (text : Text) (scale : Nat) :
    ReadsMagnitude (parseScaledDecimal text scale) := by
  unfold parseScaledDecimal
  split
  dsimp only
  split
  · exact readsMagnitude_sink _
  · split
    · exact readsMagnitude_sink _
    · split
      · exact readsMagnitude_sink _
      · split
        · exact readsMagnitude_sink _
        · rename_i negative _ _ _ _ _ _ value hvalue
          obtain ⟨pushed, hpushed, hscaled⟩ := Option.bind_eq_some_iff.mp hvalue
          exact readsMagnitude_sign (magnitude_of_scaleUp hscaled
            (magnitude_of_pushDigits hpushed ⟨le_rfl, by decide⟩)) negative

theorem scaledSecondsI64_total (seconds : Text) (unit : TimeUnit) :
    Total (scaledSecondsI64 seconds unit) := by
  refine (parseScaledDecimal_reads seconds unit.digits).1.bind fun value _ ↦ ?_
  split_ifs
  · exact total_ok value
  · exact total_sink _

/-- Every codec but the calendar and the offset is total. -/
theorem encodeCell_total {parseF64 : Text → Option UInt64} {desc : ParquetColumnDescriptor}
    (hdate : desc.codec ≠ .date) (hoffset : desc.codec ≠ .tzOffsetMinutes) (s : Text) :
    Total (encodeCell parseF64 desc s) := by
  unfold encodeCell
  cases hcodec : desc.codec with
  | date => exact absurd hcodec hdate
  | tzOffsetMinutes => exact absurd hcodec hoffset
  | text => exact total_ok _
  | hexBytes =>
      dsimp only
      split
      · exact total_ok _
      · exact total_sink _
  | boolean =>
      dsimp only
      split
      all_goals first | exact total_ok _ | exact total_sink _
  | integer =>
      refine ((parseScaledDecimal_reads _ 0).1.withCell s _).bind fun value _ ↦ ?_
      split_ifs
      · exact total_ok _
      · exact total_sink _
  | float =>
      dsimp only
      split
      · exact total_ok _
      · exact total_sink _
  | decimal precision scale =>
      refine ((parseScaledDecimal_reads _ scale).1.withCell s _).bind fun unscaled hvalue ↦ ?_
      have hmagnitude := (parseScaledDecimal_reads _ scale).2 _ (eq_ok_of_withCell hvalue)
      have hlimit : Fits 128 (10 ^ min precision 38) := by
        have hle : (10 : Int) ^ min precision 38 ≤ 10 ^ 38 :=
          pow_le_pow_right₀ (by decide) (Nat.min_le_right _ _)
        have hpos : (0 : Int) < 10 ^ min precision 38 := by positivity
        exact ⟨by omega, by omega⟩
      have habs : Fits 128 |unscaled| := ⟨by have := hmagnitude.1; omega, hmagnitude.2⟩
      rw [signed_ok hlimit, ok_bind, signed_ok habs, ok_bind]
      split
      · exact total_sink _
      · cases desc.physical with
        | int32 | int64 =>
            dsimp only
            split_ifs
            · exact total_ok _
            · exact total_sink _
        | boolean | double | byteArray | fixedLenByteArray => exact total_ok _
  | timeOfDay unit | epoch unit =>
      exact ((scaledSecondsI64_total _ unit).withCell s _).bind fun value _ ↦ total_ok _
  | tzInstant unit =>
      exact ((scaledSecondsI64_total _ unit).withCell s _).bind fun value _ ↦ total_ok _

/-! ## Dates and offsets as they are written -/

theorem count_eq_zero_of_parseDigits {s : Text} {n : Nat} (h : parseDigits s = some n) :
    s.count '-' = 0 := by
  unfold parseDigits at h
  split_ifs at h with hall
  refine List.count_eq_zero.mpr fun hmem ↦ ?_
  cases List.all_eq_true.mp hall.2 _ hmem

/-- A number has its sign in front, and no other hyphen. -/
theorem count_of_parseInt {s : Text} {n : Int} (h : parseInt s = some n) :
    s.count '-' ≤ 1 ∧ (s.count '-' = 0 → 0 ≤ n) := by
  unfold parseInt at h
  split at h
  · obtain ⟨m, hm, -⟩ := Option.map_eq_some_iff.mp h
    rw [List.count_cons_self, count_eq_zero_of_parseDigits hm]
    exact ⟨le_rfl, nofun⟩
  · obtain ⟨m, hm, rfl⟩ := Option.map_eq_some_iff.mp h
    rw [List.count_cons_of_ne (by decide), count_eq_zero_of_parseDigits hm]
    exact ⟨Nat.zero_le 1, fun _ ↦ Int.natCast_nonneg m⟩
  · obtain ⟨m, hm, rfl⟩ := Option.map_eq_some_iff.mp h
    rw [count_eq_zero_of_parseDigits hm]
    exact ⟨Nat.zero_le 1, fun _ ↦ Int.natCast_nonneg m⟩

/-- A text of three parts is no number, and its year has no sign. -/
theorem year_of_isoParts {s : Text} {y : Int} {m d : Nat} (h : isoParts s = some (y, m, d)) :
    parseSigned 32 s = none ∧ 0 ≤ y ∧ y < 2 ^ 31 := by
  unfold isoParts at h
  split at h
  · rename_i year month day hparts
    simp only [Option.bind_eq_bind, Option.pure_def] at h
    obtain ⟨y', hy, hrest⟩ := Option.bind_eq_some_iff.mp h
    obtain ⟨m', -, hrest⟩ := Option.bind_eq_some_iff.mp hrest
    obtain ⟨d', -, heq⟩ := Option.bind_eq_some_iff.mp hrest
    obtain ⟨rfl, -⟩ := Prod.mk.inj (Option.some.inj heq)
    obtain ⟨hint, hfits⟩ := parseSigned_eq_some.mp hy
    have hcount : s.count '-' = 2 := by
      have hlength := Split.length_splitOn '-' s
      rw [hparts] at hlength
      exact (Nat.succ_injective hlength).symm
    have hyear : '-' ∉ year := Split.notMem_of_mem_splitOn (hparts ▸ List.mem_cons_self)
    refine ⟨?_, (count_of_parseInt hint).2 (List.count_eq_zero.mpr hyear), hfits.2⟩
    cases hsigned : parseSigned 32 s with
    | none => rfl
    | some n =>
        have hle := (count_of_parseInt (parseSigned_eq_some.mp hsigned).1).1
        omega
  · cases h

variable (parseF64 : Text → Option UInt64) (desc : ParquetColumnDescriptor) (s : Text)

/-- A cell is encoded without an overflow, a date that is written with its parts is
one of the calendar, and an offset is within a day. -/
structure EncodesSoundly : Prop where
  total : Total (encodeCell parseF64 desc s)
  date : desc.codec = .date → ∀ y m d, isoParts (Unicode.trim s) = some (y, m, d) →
    ∀ value, encodeCell parseF64 desc s = .ok value →
      ∃ date : Date, date.year = y ∧ date.month = m ∧ date.day = d ∧ value = .i32 date.dayNumber
  offset : desc.codec = .tzOffsetMinutes → ∀ value, encodeCell parseF64 desc s = .ok value →
    ∃ minutes, value = .i32 minutes ∧ -1440 ≤ minutes ∧ minutes ≤ 1440

/-- A date that is written with its parts is one of the calendar, and not too late
for 32 bits; an offset is not too low for them. -/
structure CalendarFits : Prop where
  date : desc.codec = .date → ∀ y m d, isoParts (Unicode.trim s) = some (y, m, d) →
    ∃ date : Date, date.year = y ∧ date.month = m ∧ date.day = d ∧
      date.dayNumber + 719468 < 2 ^ 31
  offset : desc.codec = .tzOffsetMinutes →
    ∀ offset ∈ (Unicode.splitWhitespace (Unicode.trim s))[1]?,
      ∀ raw ∈ parseSigned 32 offset, -2 ^ 31 + 1440 ≤ raw

variable {parseF64 desc s}

/-- The cell of a date that is written with its parts. -/
theorem encodeCell_isoParts (hcodec : desc.codec = .date) {y : Int} {m d : Nat}
    (h : isoParts (Unicode.trim s) = some (y, m, d)) :
    encodeCell parseF64 desc s = (daysFromCivil y m d).map .i32 := by
  unfold encodeCell
  simp only [hcodec]
  rw [(year_of_isoParts h).1]
  dsimp only
  rw [parseIsoDateToDays, h]
  dsimp only
  cases daysFromCivil y m d with
  | error fault => rfl
  | ok days => rfl

/-- The cell of an offset. -/
theorem encodeCell_offset (hcodec : desc.codec = .tzOffsetMinutes) {offset : Text} {raw : Int}
    (hoffset : (Unicode.splitWhitespace (Unicode.trim s))[1]? = some offset)
    (hraw : parseSigned 32 offset = some raw) :
    encodeCell parseF64 desc s =
      signed 32 (raw - 1440) >>= fun minutes ↦
        if ¬ (-1440 ≤ minutes ∧ minutes ≤ 1440) then
          .error (cellError s "TIMESTAMP_TZ offset" "outside ±24h")
        else .ok (.i32 minutes) := by
  unfold encodeCell
  simp only [hcodec]
  rw [hoffset, Option.bind_some, hraw]
  rfl

theorem encodeCell_noOffset (hcodec : desc.codec = .tzOffsetMinutes)
    (hnone : (Unicode.splitWhitespace (Unicode.trim s))[1]?.bind (parseSigned 32) = none) :
    encodeCell parseF64 desc s =
      .error (cellError s "TIMESTAMP_TZ offset" "missing `<offset+1440>`") := by
  unfold encodeCell
  simp only [hcodec]
  rw [hnone]

/-- A date without its parts is a day number, or refused. -/
theorem encodeCell_noParts (hcodec : desc.codec = .date) (h : isoParts (Unicode.trim s) = none) :
    Total (encodeCell parseF64 desc s) := by
  unfold encodeCell
  simp only [hcodec]
  cases parseSigned 32 (Unicode.trim s) with
  | some days => exact total_ok _
  | none =>
      dsimp only
      rw [parseIsoDateToDays, h]
      exact total_sink _

/-- Steps of arithmetic only: nothing is refused with a message. -/
def Arithmetic {α : Type} (result : Encode α) : Prop :=
  ∀ message, result ≠ .error (.sink message)

theorem arithmetic_signed (bits : Nat) (n : Int) : Arithmetic (signed bits n) := by
  unfold signed
  split_ifs <;> exact nofun

theorem arithmetic_u32 (n : Int) : Arithmetic (u32 n) := by
  unfold u32
  split_ifs <;> exact nofun

theorem Arithmetic.bind {α β : Type} {x : Encode α} {f : α → Encode β} (hx : Arithmetic x)
    (hf : ∀ a, Arithmetic (f a)) : Arithmetic (x >>= f) := by
  cases x with
  | ok a => exact hf a
  | error fault => exact fun message h ↦ hx message (congrArg Except.error (Except.error.inj h))

theorem arithmetic_daysOfMarchYear (y m d : Int) : Arithmetic (daysOfMarchYear y m d) := by
  have hera : Arithmetic (if 0 ≤ y then (.ok y : Encode Int) else signed 32 (y - 399)) := by
    split_ifs
    · exact nofun
    · exact arithmetic_signed _ _
  refine hera.bind fun era ↦ ?_
  dsimp only
  refine (arithmetic_signed _ _).bind fun _ ↦ (arithmetic_signed _ _).bind fun _ ↦ ?_
  iterate 8 refine (arithmetic_u32 _).bind fun _ ↦ ?_
  exact (arithmetic_signed _ _).bind fun _ ↦ (arithmetic_signed _ _).bind fun _ ↦
    arithmetic_signed _ _

theorem arithmetic_daysFromCivil (y m d : Int) : Arithmetic (daysFromCivil y m d) := by
  have hmarch : daysFromCivil y m d =
      (if m ≤ 2 then do return (← signed 32 (y - 1), ← u32 (m + 9))
        else do return (y, ← u32 (m - 3))) >>= fun (y, m) ↦ daysOfMarchYear y m d := rfl
  rw [hmarch]
  refine Arithmetic.bind ?_ fun (y, m) ↦ arithmetic_daysOfMarchYear y m d
  split_ifs
  · exact (arithmetic_signed _ _).bind fun _ ↦ (arithmetic_u32 _).bind fun _ message ↦ nofun
  · exact (arithmetic_u32 _).bind fun _ message ↦ nofun

/-! ## The columns at which cells are sound -/

/-- The parts of a date at which the calendar's arithmetic is its meaning. -/
theorem dateFits_of_sound (hcodec : desc.codec = .date) (h : EncodesSoundly parseF64 desc s)
    {y : Int} {m d : Nat} (hparts : isoParts (Unicode.trim s) = some (y, m, d)) :
    ∃ date : Date, date.year = y ∧ date.month = m ∧ date.day = d ∧
      date.dayNumber + 719468 < 2 ^ 31 := by
  have hcell : encodeCell parseF64 desc s = _ := encodeCell_isoParts hcodec hparts
  cases hdays : daysFromCivil y m d with
  | error fault =>
      rw [hdays] at hcell
      cases fault with
      | overflow => exact absurd hcell h.total
      | sink message => exact absurd hdays (arithmetic_daysFromCivil y m d message)
  | ok days =>
      rw [hdays] at hcell
      obtain ⟨date, rfl, rfl, rfl, _⟩ := h.date hcodec y m d hparts (.i32 days) hcell
      refine ⟨date, rfl, rfl, rfl, ?_⟩
      rw [daysFromCivil_date date (year_of_isoParts hparts).2.1 (year_of_isoParts hparts).2.2]
        at hdays
      split_ifs at hdays with hlt
      exact hlt

theorem offsetFits_of_sound (hcodec : desc.codec = .tzOffsetMinutes)
    (h : EncodesSoundly parseF64 desc s) {offset : Text} {raw : Int}
    (hoffset : (Unicode.splitWhitespace (Unicode.trim s))[1]? = some offset)
    (hraw : parseSigned 32 offset = some raw) : -2 ^ 31 + 1440 ≤ raw := by
  have htotal := h.total
  rw [encodeCell_offset hcodec hoffset hraw, signed] at htotal
  split_ifs at htotal with hfits
  · have := hfits.1
    omega
  · exact absurd rfl htotal

theorem sound_of_date (hcodec : desc.codec = .date) (h : CalendarFits desc s) :
    EncodesSoundly parseF64 desc s := by
  have hoffset : desc.codec ≠ .tzOffsetMinutes := hcodec ▸ nofun
  cases hparts : isoParts (Unicode.trim s) with
  | none =>
      refine ⟨encodeCell_noParts hcodec hparts, ?_, fun hc ↦ absurd hc hoffset⟩
      intro _ y m d hyear
      cases hparts.symm.trans hyear
  | some parts =>
      obtain ⟨y, m, d⟩ := parts
      obtain ⟨date, rfl, rfl, rfl, hlt⟩ := h.date hcodec y m d hparts
      have hcell : encodeCell parseF64 desc s = _ := encodeCell_isoParts hcodec hparts
      rw [daysFromCivil_date date (year_of_isoParts hparts).2.1 (year_of_isoParts hparts).2.2,
        if_pos hlt] at hcell
      refine ⟨hcell ▸ total_ok _, ?_, fun hc ↦ absurd hc hoffset⟩
      intro _ y m d hyear value hvalue
      cases hparts.symm.trans hyear
      exact ⟨date, rfl, rfl, rfl, (Except.ok.inj (hcell.symm.trans hvalue)).symm⟩

theorem sound_of_offset (hcodec : desc.codec = .tzOffsetMinutes) (h : CalendarFits desc s) :
    EncodesSoundly parseF64 desc s := by
  have hdate : desc.codec ≠ .date := hcodec ▸ nofun
  cases hword : (Unicode.splitWhitespace (Unicode.trim s))[1]?.bind (parseSigned 32) with
  | none =>
      have hcell : encodeCell parseF64 desc s = _ := encodeCell_noOffset hcodec hword
      refine ⟨hcell ▸ total_sink _, fun hc ↦ absurd hc hdate, ?_⟩
      rintro - value hvalue
      cases hcell.symm.trans hvalue
  | some raw =>
      obtain ⟨offset, hoffset, hraw⟩ := Option.bind_eq_some_iff.mp hword
      have hlow := h.offset hcodec offset hoffset raw hraw
      have hfits := (parseSigned_eq_some.mp hraw).2
      have hcell : encodeCell parseF64 desc s = _ := encodeCell_offset hcodec hoffset hraw
      rw [signed_ok (fits32 (by omega) (by have := hfits.2; omega)), ok_bind] at hcell
      by_cases hday : -1440 ≤ raw - 1440 ∧ raw - 1440 ≤ 1440
      · rw [if_neg (not_not.mpr hday)] at hcell
        refine ⟨hcell ▸ total_ok _, fun hc ↦ absurd hc hdate, ?_⟩
        intro _ value hvalue
        exact ⟨raw - 1440, (Except.ok.inj (hcell.symm.trans hvalue)).symm, hday⟩
      · rw [if_pos hday] at hcell
        refine ⟨hcell ▸ total_sink _, fun hc ↦ absurd hc hdate, ?_⟩
        intro _ value hvalue
        cases hcell.symm.trans hvalue

/-- A cell is encoded soundly exactly if its date and its offset are in range. -/
theorem encodeCell_encodesSoundly_iff (parseF64 : Text → Option UInt64)
    (desc : ParquetColumnDescriptor) (s : Text) :
    EncodesSoundly parseF64 desc s ↔ CalendarFits desc s := by
  constructor
  · intro h
    exact ⟨fun hcodec y m d ↦ dateFits_of_sound hcodec h,
      fun hcodec offset hoffset raw ↦ offsetFits_of_sound hcodec h hoffset⟩
  · intro h
    by_cases hdate : desc.codec = .date
    · exact sound_of_date hdate h
    · by_cases hoffset : desc.codec = .tzOffsetMinutes
      · exact sound_of_offset hoffset h
      · exact ⟨encodeCell_total hdate hoffset s, fun hc ↦ absurd hc hdate,
          fun hc ↦ absurd hc hoffset⟩

/-- A result column `D` of type DATE. -/
def dateColumn : ExportColumn := ⟨['D'], "DATE".toList, true, none, none⟩

/-- The last day of February, 2024, is not the 31st. -/
theorem not_encodeCell_encodesSoundly : ¬ ∀ (columns : List ExportColumn),
    ∀ plan ∈ planParquetColumns columns, ∀ (parseF64 : Text → Option UInt64) (s : Text),
      EncodesSoundly parseF64 plan.desc s := by
  intro h
  have hsound := h [dateColumn] ⟨['D'], 0, .resolve dateColumn⟩ (by decide +kernel) (fun _ ↦ none)
    "2024-02-31".toList
  obtain ⟨date, hyear, hmonth, hday, -⟩ := hsound.date (by decide +kernel) 2024 2 31
    (by decide +kernel) (.i32 19784) (by decide +kernel)
  have hle := date.day_le
  rw [hyear, hmonth, hday] at hle
  exact absurd hle (by decide)

end FrankenSnowflake.Parquet
