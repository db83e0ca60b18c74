import FrankenSnowflake.Http.RetryAfter
import FrankenSnowflake.Foundation.Calendar
import FrankenSnowflake.Foundation.Digits
import FrankenSnowflake.Foundation.Fallible
import FrankenSnowflake.Foundation.Signed

/-!
# Dates in the Retry-After header

The parsers of the header with the arithmetic of the machine: a result that does
not fit its type is an overflow, which is told from a `None`.  What a text of one
of the three formats names is read from its fields alone.
-/

namespace FrankenSnowflake.HttpDate

open Foundation Http

/-! ## Machine arithmetic -/

/-- How a computation ends without a value. -/
inductive Stop where
  /-- It gives `None`. -/
  | refused
  /-- A result does not fit its type. -/
  | overflow
deriving DecidableEq, Repr

abbrev Checked (α : Type) : Type := Except Stop α

def ofOption {α : Type} : Option α → Checked α
  | some a => .ok a
  | none => .error .refused

/-- `Option::or_else`. -/
def orElse {α : Type} : Checked α → Checked α → Checked α
  | .error .refused, y => y
  | .error .overflow, _ => .error .overflow
  | .ok a, _ => .ok a

def FitsI32 (n : Int) : Prop := -2 ^ 31 ≤ n ∧ n < 2 ^ 31

instance (n : Int) : Decidable (FitsI32 n) := inferInstanceAs (Decidable (_ ∧ _))

/-- A result of type `i32`. -/
def i32 (n : Int) : Checked Int := if FitsI32 n then .ok n else .error .overflow

/-- A result of type `i64`. -/
def i64 (n : Int) : Checked Int := if Signed.InRange n then .ok n else .error .overflow

/-- A result of type `i64`, of a checked operation. -/
def checkedI64 (n : Int) : Checked Int := if Signed.InRange n then .ok n else .error .refused

/-! ## The parsers -/

def daysFromCivil (year : Int) (month day : Nat) : Checked Int := do
  let year ← i64 (year - if month ≤ 2 then 1 else 0)
  let base ← (if 0 ≤ year then .ok year else i64 (year - 399))
  let era := base.tdiv 400
  let yearOfEra ← i64 (year - (← i64 (era * 400)))
  let monthPrime ← i64 (month + if 2 < month then -3 else 9)
  let scaled ← i64 ((← i64 (153 * monthPrime)) + 2)
  let dayOfYear ← i64 ((← i64 (scaled.tdiv 5 + day)) - 1)
  let leaps ← i64 ((← i64 ((← i64 (yearOfEra * 365)) + yearOfEra.tdiv 4)) - yearOfEra.tdiv 100)
  let dayOfEra ← i64 (leaps + dayOfYear)
  i64 ((← i64 ((← i64 (era * 146097)) + dayOfEra)) - 719468)

def unixSecondsUtc (year : Int) (month day hour minute second : Nat) : Checked Int :=
  if ¬ (1 ≤ month ∧ month ≤ 12) ∨ day = 0 ∨ day > daysInMonth year month ∨ hour > 23 ∨
      minute > 59 ∨ second > 60 then .error .refused
  else do
    let second := min second 59
    let whole ← checkedI64 ((← daysFromCivil year month day) * 86400)
    let minutes ← i64 ((← i64 (hour * 3600 : Nat)) + (← i64 (minute * 60 : Nat)))
    checkedI64 (whole + (← i64 (minutes + second)))

def parseImfFixdate (raw : Text) : Checked Int := do
  match splitAsciiWhitespace (← ofOption (afterComma raw)) with
  | [day, month, year, time, zone] =>
      let day ← ofOption (parseU32 day)
      let month ← ofOption (parseHttpMonth month)
      let year ← ofOption (parseI32 year)
      let (hour, minute, second) ← ofOption (parseHttpTime time)
      if zone ≠ "GMT".toList then .error .refused
      else unixSecondsUtc year month day hour minute second
  | _ => .error .refused

/-- The year is computed before what follows the date is looked at. -/
def parseRfc850Date (raw : Text) : Checked Int := do
  match splitAsciiWhitespace (← ofOption (afterComma raw)) with
  | [] => .error .refused
  | date :: parts =>
      match split '-' date with
      | [day, month, year] =>
          let day ← ofOption (parseU32 day)
          let month ← ofOption (parseHttpMonth month)
          let yearTwoDigits ← ofOption (parseU32 year)
          let yearTwoDigits ← ofOption (if yearTwoDigits < 2 ^ 31 then some yearTwoDigits else none)
          let year ← i32 (if 70 ≤ yearTwoDigits then 1900 + yearTwoDigits else 2000 + yearTwoDigits)
          match parts with
          | [time, zone] =>
              let (hour, minute, second) ← ofOption (parseHttpTime time)
              if zone ≠ "GMT".toList then .error .refused
              else unixSecondsUtc year month day hour minute second
          | _ => .error .refused
      | _ => .error .refused

def parseAsctimeDate (raw : Text) : Checked Int :=
  match splitAsciiWhitespace raw with
  | [_, month, day, time, year] => do
      let month ← ofOption (parseHttpMonth month)
      let day ← ofOption (parseU32 day)
      let (hour, minute, second) ← ofOption (parseHttpTime time)
      let year ← ofOption (parseI32 year)
      unixSecondsUtc year month day hour minute second
  | _ => .error .refused

def parseHttpDateUnixSeconds (raw : Text) : Checked Int :=
  orElse (parseImfFixdate raw) (orElse (parseRfc850Date raw) (parseAsctimeDate raw))

/-- The delay until a date; `now` is the time since the epoch, if the clock is
not before it. -/
def retryAfterHttpDateMs (now : Option Nat) (raw : Text) : Checked Nat := do
  let targetSeconds ← parseHttpDateUnixSeconds raw
  let nowUnixSeconds ← ofOption (now.filter (· < 2 ^ 63))
  let deltaSeconds := Signed.satSub targetSeconds nowUnixSeconds
  if deltaSeconds ≤ 0 then .ok 0 else .ok (min (deltaSeconds.toNat * 1000) u64Max)

def retryAfterMs (now : Option Nat) (headers : List (Text × Text)) : Checked Nat := do
  let raw := Unicode.trim (← ofOption (responseHeader headers "Retry-After".toList))
  orElse (ofOption ((parseU64 raw).bind checkedMillis)) (retryAfterHttpDateMs now raw)

/-! ## What a text names -/

/-- The fields of a date, of any size. -/
structure Fields where
  year : Int
  month : Nat
  day : Nat
  hour : Nat
  minute : Nat
  second : Nat
deriving DecidableEq, Repr

/-- The second since the epoch of a day of the Gregorian calendar and a time of
the day, if there is one.  A leap second is the one before it. -/
def Fields.unixSecond (f : Fields) : Option Int := do
  let date ← Calendar.Date.of? f.year f.month f.day
  if f.hour ≤ 23 ∧ f.minute ≤ 59 ∧ f.second ≤ 60 then
    some (date.dayNumber * 86400 + (f.hour * 3600 + f.minute * 60 + min f.second 59 : Nat))
  else none

/-- The number of a text, of any size. -/
def numeral (s : Text) : Option Nat := parseDigits (if s.head? = some '+' then s.tail else s)

def signedNumeral (s : Text) : Option Int :=
  if s.head? = some '-' then (parseDigits s.tail).map fun n : Nat ↦ -(n : Int)
  else (numeral s).map Int.ofNat

def timeFields (time : Text) : Option (Nat × Nat × Nat) :=
  match split ':' time with
  | [hour, minute, second] => do
      return (← numeral hour, ← numeral minute, ← numeral second)
  | _ => none

/-- The formats of an HTTP date. -/
inductive Format where
  | imfFixdate
  | rfc850
  | asctime
deriving DecidableEq, Repr

/-- Two digits are a year from 1970 on. -/
def fullYear (year : Nat) : Nat :=
  if year < 70 then 2000 + year else if year < 100 then 1900 + year else year

/-- Day, month and year of an RFC 850 date, and what follows. -/
def rfc850Date (raw : Text) : Option (Nat × Nat × Nat × List Text) := do
  match splitAsciiWhitespace (← afterComma raw) with
  | [] => none
  | date :: parts =>
      match split '-' date with
      | [day, month, year] =>
          return (← numeral day, ← parseHttpMonth month, ← numeral year, parts)
      | _ => none

/-- The fields that a text of a format names. -/
def fields : Format → Text → Option Fields
  | .imfFixdate, raw => do
      match splitAsciiWhitespace (← afterComma raw) with
      | [day, month, year, time, zone] =>
          let day ← numeral day
          let month ← parseHttpMonth month
          let year ← signedNumeral year
          let (hour, minute, second) ← timeFields time
          if zone = "GMT".toList then some ⟨year, month, day, hour, minute, second⟩ else none
      | _ => none
  | .rfc850, raw => do
      let (day, month, year, parts) ← rfc850Date raw
      match parts with
      | [time, zone] =>
          let (hour, minute, second) ← timeFields time
          if zone = "GMT".toList then some ⟨fullYear year, month, day, hour, minute, second⟩
          else none
      | _ => none
  | .asctime, raw =>
      match splitAsciiWhitespace raw with
      | [_, month, day, time, year] => do
          let month ← parseHttpMonth month
          let day ← numeral day
          let (hour, minute, second) ← timeFields time
          let year ← signedNumeral year
          return ⟨year, month, day, hour, minute, second⟩
      | _ => none

/-! ## The calendar -/

theorem i64_eq_ok {n : Int} (hlow : -9223372036854775808 ≤ n) (hhigh : n ≤ 9223372036854775807) :
    i64 n = .ok n := if_pos ⟨hlow, hhigh⟩

theorem checkedI64_eq_ok {n : Int} (hlow : -9223372036854775808 ≤ n)
    (hhigh : n ≤ 9223372036854775807) : checkedI64 n = .ok n := if_pos ⟨hlow, hhigh⟩

theorem daysInMonth_eq (year : Int) {month : Nat} (hlow : 1 ≤ month) (hhigh : month ≤ 12) :
    daysInMonth year month = Calendar.daysInMonth year month := by
  have hleap : isLeapYear year = Calendar.isLeap year := by
    rw [Bool.eq_iff_iff]
    simp only [isLeapYear, Calendar.isLeap, Bool.and_eq_true, Bool.or_eq_true, decide_eq_true_eq]
    omega
  by_cases hfebruary : month = 2
  · subst hfebruary
    show (if isLeapYear year then 29 else 28) = 28 + Calendar.leapDay year
    rw [hleap, Calendar.leapDay]
    split_ifs <;> rfl
  · interval_cases month
    all_goals first
      | rfl
      | exact absurd rfl hfebruary

/-- The quotient by 400 of the source rounds down. -/
theorem era_eq (year : Int) : (if 0 ≤ year then year else year - 399).tdiv 400 = year / 400 := by
  split_ifs with h
  · exact Int.tdiv_eq_ediv_of_nonneg h
  · have hneg : (year - 399).tdiv 400 = -((399 - year).tdiv 400) := by
      rw [← Int.neg_tdiv, Int.neg_sub]
    rw [hneg, Int.tdiv_eq_ediv_of_nonneg (by omega)]
    omega

/-- The days of four hundred years are counted from March on. -/
theorem daysBeforeYear_eras (year : Int) :
    Calendar.daysBeforeYear (year + 1) = year / 400 * 146097 +
      ((year - year / 400 * 400) * 365 + (year - year / 400 * 400) / 4 -
        (year - year / 400 * 400) / 100) := by
  unfold Calendar.daysBeforeYear
  omega

/-- The days of a year that starts in March, up to a month. -/
theorem daysBefore_march (date : Calendar.Date) :
    Calendar.daysBeforeYear date.year + Calendar.daysBeforeMonth date.year date.month =
      Calendar.daysBeforeYear (date.year - (if date.month ≤ 2 then 1 else 0) + 1) - 306 +
        (153 * (date.month + if 2 < date.month then -3 else 9) + 2 : Int) / 5 := by
  have hmonth := date.month_le
  have hmonthPos := date.one_le_month
  rw [Calendar.daysBefore_march date.year hmonthPos hmonth]
  by_cases hm : date.month ≤ 2
  · rw [if_pos hm, if_pos hm, if_neg (Nat.not_lt.mpr hm), Int.sub_add_cancel]
    omega
  · rw [if_neg hm, if_neg hm, if_pos (Nat.not_le.mp hm), Int.sub_zero]
    omega

/-- Days are counted by the Gregorian calendar, without an overflow. -/
theorem daysFromCivil_eq (date : Calendar.Date) (hyear : FitsI32 date.year) :
    daysFromCivil date.year date.month date.day = .ok date.dayNumber := by
  obtain ⟨hlow, hhigh⟩ := hyear
  have hday := date.day_le.trans (Calendar.daysInMonth_le _ _)
  have hdayPos := date.one_le_day
  have hyearBounds : -2147483649 ≤ date.year - (if date.month ≤ 2 then 1 else 0) ∧
      date.year - (if date.month ≤ 2 then 1 else 0) ≤ 2147483647 := by
    split_ifs <;> omega
  have hmonthBounds : 0 ≤ (date.month + if 2 < date.month then -3 else 9 : Int) ∧
      (date.month + if 2 < date.month then -3 else 9 : Int) ≤ 11 := by
    have hmonth := date.month_le
    have hmonthPos := date.one_le_month
    split_ifs <;> omega
  rw [Calendar.Date.dayNumber, daysBefore_march]
  unfold daysFromCivil Calendar.epochDays
  generalize date.year - (if date.month ≤ 2 then 1 else 0) = year at hyearBounds ⊢
  generalize (date.month + if 2 < date.month then -3 else 9 : Int) = monthPrime at hmonthBounds ⊢
  have hbase : (if 0 ≤ year then .ok year else i64 (year - 399) : Checked Int) =
      .ok (if 0 ≤ year then year else year - 399) := by
    split_ifs
    · rfl
    · exact i64_eq_ok (by omega) (by omega)
  rw [i64_eq_ok (by omega) (by omega), ok_bind, hbase, ok_bind, era_eq, daysBeforeYear_eras]
  have hera : 0 ≤ year - year / 400 * 400 ∧ year - year / 400 * 400 ≤ 399 := by omega
  have heraBounds : -5368710 ≤ year / 400 ∧ year / 400 ≤ 5368709 := by omega
  generalize year / 400 = era at hera heraBounds ⊢
  dsimp only
  rw [i64_eq_ok (by omega) (by omega), ok_bind, i64_eq_ok (by omega) (by omega), ok_bind]
  generalize year - era * 400 = yearOfEra at hera ⊢
  rw [Int.tdiv_eq_ediv_of_nonneg hera.1, Int.tdiv_eq_ediv_of_nonneg hera.1]
  rw [i64_eq_ok (by omega) (by omega), ok_bind, i64_eq_ok (by omega) (by omega), ok_bind,
    i64_eq_ok (by omega) (by omega), ok_bind, Int.tdiv_eq_ediv_of_nonneg (by omega)]
  have hmonthDays : 0 ≤ (153 * monthPrime + 2) / 5 ∧ (153 * monthPrime + 2) / 5 ≤ 337 := by omega
  generalize (153 * monthPrime + 2) / 5 = monthDays at hmonthDays ⊢
  rw [i64_eq_ok (by omega) (by omega), ok_bind, i64_eq_ok (by omega) (by omega), ok_bind,
    i64_eq_ok (by omega) (by omega), ok_bind, i64_eq_ok (by omega) (by omega), ok_bind,
    i64_eq_ok (by omega) (by omega), ok_bind, i64_eq_ok (by omega) (by omega), ok_bind,
    i64_eq_ok (by omega) (by omega), ok_bind, i64_eq_ok (by omega) (by omega), ok_bind,
    i64_eq_ok (by omega) (by omega)]
  congr 1
  ring

theorem ofOption_some {α : Type} (a : α) : ofOption (some a) = .ok a := rfl

theorem ofOption_eq_ok {α : Type} {x : Option α} {a : α} : ofOption x = .ok a ↔ x = some a := by
  cases x with
  | none => exact iff_of_false nofun nofun
  | some b =>
      rw [Option.some.injEq]
      exact ⟨Except.ok.inj, congrArg _⟩

theorem dayNumber_bounds (date : Calendar.Date) (hyear : FitsI32 date.year) :
    -800000000000 ≤ date.dayNumber ∧ date.dayNumber ≤ 800000000000 := by
  obtain ⟨hlow, hhigh⟩ := hyear
  have hday := date.day_le.trans (Calendar.daysInMonth_le _ _)
  have hmonth := date.month_le
  have hmonthPos := date.one_le_month
  rw [Calendar.Date.dayNumber, daysBefore_march]
  unfold Calendar.daysBeforeYear Calendar.epochDays
  split_ifs <;> omega

/-- A date of the calendar and a time of the day are the second they denote. -/
theorem unixSecondsUtc_eq (f : Fields) (hyear : FitsI32 f.year) :
    unixSecondsUtc f.year f.month f.day f.hour f.minute f.second = ofOption f.unixSecond := by
  unfold unixSecondsUtc Fields.unixSecond
  by_cases hdate : 1 ≤ f.month ∧ f.month ≤ 12 ∧ 1 ≤ f.day ∧
      f.day ≤ Calendar.daysInMonth f.year f.month
  · have hof : Calendar.Date.of? f.year f.month f.day =
        some ⟨f.year, f.month, f.day, hdate.1, hdate.2.1, hdate.2.2.1, hdate.2.2.2⟩ :=
      dif_pos hdate
    have hdays := daysInMonth_eq f.year hdate.1 hdate.2.1
    by_cases htime : f.hour ≤ 23 ∧ f.minute ≤ 59 ∧ f.second ≤ 60
    · have hcivil := daysFromCivil_eq ⟨f.year, f.month, f.day, hdate.1, hdate.2.1, hdate.2.2.1,
        hdate.2.2.2⟩ hyear
      have hbounds := dayNumber_bounds ⟨f.year, f.month, f.day, hdate.1, hdate.2.1, hdate.2.2.1,
        hdate.2.2.2⟩ hyear
      rw [hof, if_neg (by omega)]
      dsimp only at hcivil hbounds
      simp only [Option.bind_eq_bind, Option.bind_some, if_pos htime, ofOption]
      rw [hcivil, ok_bind]
      generalize Calendar.Date.dayNumber _ = days at hbounds ⊢
      rw [checkedI64_eq_ok (by omega) (by omega), ok_bind, i64_eq_ok (by omega) (by omega),
        ok_bind, i64_eq_ok (by omega) (by omega), ok_bind, i64_eq_ok (by omega) (by omega),
        ok_bind, i64_eq_ok (by omega) (by omega), ok_bind, checkedI64_eq_ok (by omega) (by omega)]
      push_cast
      rfl
    · rw [hof, if_pos (by omega)]
      simp only [Option.bind_eq_bind, Option.bind_some, if_neg htime]
      rfl
  · have hof : Calendar.Date.of? f.year f.month f.day = none := dif_neg hdate
    rw [hof, if_pos]
    · rfl
    · by_cases hmonth : 1 ≤ f.month ∧ f.month ≤ 12
      · rw [daysInMonth_eq f.year hmonth.1 hmonth.2]
        omega
      · exact .inl hmonth

/-! ## The formats -/

theorem ofOption_ne_overflow {α : Type} (x : Option α) : ofOption x ≠ .error .overflow := by
  cases x with
  | none => exact nofun
  | some a => exact nofun

theorem bind_ne_overflow {α β : Type} {x : Checked α} {f : α → Checked β}
    (hx : x ≠ .error .overflow) (hf : ∀ a, x = .ok a → f a ≠ .error .overflow) :
    x >>= f ≠ .error .overflow := by
  cases x with
  | error e => exact fun h ↦ hx (congrArg Except.error (Except.error.inj h))
  | ok a =>
      rw [ok_bind]
      exact hf a rfl

theorem parseU32_eq_some {s : Text} {n : Nat} :
    parseU32 s = some n ↔ numeral s = some n ∧ n < 2 ^ 32 := by
  rw [parseU32, parseUnsigned, Option.filter_eq_some_iff, decide_eq_true_eq, numeral]
  exact and_congr_right fun _ ↦ Nat.le_sub_one_iff_lt (by decide)

theorem parseI32_eq_some {s : Text} {n : Int} :
    parseI32 s = some n ↔ signedNumeral s = some n ∧ FitsI32 n := by
  unfold parseI32 signedNumeral FitsI32
  split_ifs with hsign
  · cases parseDigits s.tail with
    | none => simp
    | some k =>
        simp only [Option.filter_some, Option.map_some, Option.some.injEq, decide_eq_true_eq]
        split_ifs with hk
        · simp only [Option.bind_eq_bind, Option.bind_some, Option.pure_def, Option.map_some,
            Option.some.injEq]
          omega
        · simp only [Option.bind_eq_bind, Option.bind_none, Option.map_none, reduceCtorEq,
            false_iff]
          omega
  · rw [parseUnsigned, ← numeral]
    cases numeral s with
    | none => simp
    | some k =>
        simp only [Option.filter_some, Option.map_some, Option.some.injEq, decide_eq_true_eq]
        split_ifs with hk
        · simp only [Option.map_some, Option.some.injEq, Int.ofNat_eq_natCast]
          omega
        · simp only [Option.map_none, reduceCtorEq, false_iff, Int.ofNat_eq_natCast]
          omega

theorem parseHttpTime_eq_some {time : Text} {hour minute second : Nat} :
    parseHttpTime time = some (hour, minute, second) ↔
      timeFields time = some (hour, minute, second) ∧ hour ≤ 23 ∧ minute ≤ 59 ∧ second ≤ 60 := by
  unfold parseHttpTime timeFields
  generalize split ':' time = parts
  rcases parts with _ | ⟨h, _ | ⟨m, _ | ⟨s, _ | ⟨_, _⟩⟩⟩⟩
  · simp
  · simp
  · simp
  · simp only [Option.bind_eq_bind, Option.bind_eq_some_iff, parseU32_eq_some]
    constructor
    · rintro ⟨h, ⟨hhour, -⟩, m, ⟨hminute, -⟩, s, ⟨hsecond, -⟩, hrange⟩
      split_ifs at hrange with hout
      obtain ⟨rfl, rfl, rfl⟩ : h = hour ∧ m = minute ∧ s = second := by simpa using hrange
      exact ⟨⟨h, hhour, m, hminute, s, hsecond, rfl⟩, by omega⟩
    · rintro ⟨⟨h, hhour, m, hminute, s, hsecond, heq⟩, hrange⟩
      obtain ⟨rfl, rfl, rfl⟩ : h = hour ∧ m = minute ∧ s = second := by simpa using heq
      exact ⟨h, ⟨hhour, by omega⟩, m, ⟨hminute, by omega⟩, s, ⟨hsecond, by omega⟩,
        if_neg (by omega)⟩
  · simp

/-- What has a second is in range. -/
theorem unixSecond_bounds {f : Fields} {t : Int} (h : f.unixSecond = some t) :
    f.day ≤ 31 ∧ f.hour ≤ 23 ∧ f.minute ≤ 59 ∧ f.second ≤ 60 := by
  obtain ⟨date, hdate, htime⟩ := Option.bind_eq_some_iff.mp h
  split_ifs at htime with hrange
  refine ⟨?_, hrange⟩
  rw [Calendar.Date.of?] at hdate
  split_ifs at hdate with hfields
  exact hfields.2.2.2.trans (Calendar.daysInMonth_le _ _)

/-- An IMF-fixdate is read as the second that its fields denote. -/
theorem parseImfFixdate_eq_ok {raw : Text} {t : Int} :
    parseImfFixdate raw = .ok t ↔
      ∃ f, fields .imfFixdate raw = some f ∧ FitsI32 f.year ∧ f.unixSecond = some t := by
  simp only [parseImfFixdate, fields]
  cases afterComma raw with
  | none => exact iff_of_false nofun fun ⟨_, h, _⟩ ↦ nomatch h
  | some rest =>
      simp only [ofOption_some, ok_bind, Option.bind_eq_bind, Option.bind_some]
      split
      · simp only [bind_eq_ok_iff, ofOption_eq_ok, Option.bind_eq_some_iff]
        constructor
        · rintro ⟨day, hday, month, hmonth, year, hyear, ⟨hour, minute, second⟩, htime, h⟩
          obtain ⟨hday, -⟩ := parseU32_eq_some.mp hday
          obtain ⟨hyear, hfits⟩ := parseI32_eq_some.mp hyear
          obtain ⟨htime, -⟩ := parseHttpTime_eq_some.mp htime
          split_ifs at h with hzone
          rw [not_not] at hzone
          refine ⟨⟨year, month, day, hour, minute, second⟩, ⟨day, hday, month, hmonth, year, hyear,
            (hour, minute, second), htime, if_pos hzone⟩, hfits, ?_⟩
          rw [← ofOption_eq_ok, ← unixSecondsUtc_eq _ hfits]
          exact h
        · rintro ⟨f, ⟨day, hday, month, hmonth, year, hyear, ⟨hour, minute, second⟩, htime, h⟩,
            hfits, hsecond⟩
          split_ifs at h with hzone
          cases h
          obtain ⟨hle, hrange⟩ := unixSecond_bounds hsecond
          dsimp only at hle
          refine ⟨day, parseU32_eq_some.mpr ⟨hday, by omega⟩, month, hmonth, year,
            parseI32_eq_some.mpr ⟨hyear, hfits⟩, (hour, minute, second),
            parseHttpTime_eq_some.mpr ⟨htime, hrange⟩, ?_⟩
          rw [if_neg (not_not.mpr hzone)]
          exact (unixSecondsUtc_eq _ hfits).trans (ofOption_eq_ok.mpr hsecond)
      · exact iff_of_false nofun fun ⟨_, h, _⟩ ↦ nomatch h

theorem parseImfFixdate_ne_overflow (raw : Text) : parseImfFixdate raw ≠ .error .overflow := by
  refine bind_ne_overflow (ofOption_ne_overflow _) fun rest _ ↦ ?_
  split
  · refine bind_ne_overflow (ofOption_ne_overflow _) fun day _ ↦ ?_
    refine bind_ne_overflow (ofOption_ne_overflow _) fun month _ ↦ ?_
    refine bind_ne_overflow (ofOption_ne_overflow _) fun year hyear ↦ ?_
    refine bind_ne_overflow (ofOption_ne_overflow _) fun (hour, minute, second) _ ↦ ?_
    have hfits := (parseI32_eq_some.mp (ofOption_eq_ok.mp hyear)).2
    dsimp only
    split_ifs
    · exact nofun
    · rw [unixSecondsUtc_eq ⟨year, month, day, hour, minute, second⟩ hfits]
      exact ofOption_ne_overflow _
  · exact nofun

/-- So is an asctime date. -/
theorem parseAsctimeDate_eq_ok {raw : Text} {t : Int} :
    parseAsctimeDate raw = .ok t ↔
      ∃ f, fields .asctime raw = some f ∧ FitsI32 f.year ∧ f.unixSecond = some t := by
  simp only [parseAsctimeDate, fields]
  split
  · simp only [bind_eq_ok_iff, ofOption_eq_ok, Option.bind_eq_bind, Option.bind_eq_some_iff]
    constructor
    · rintro ⟨month, hmonth, day, hday, ⟨hour, minute, second⟩, htime, year, hyear, h⟩
      obtain ⟨hday, -⟩ := parseU32_eq_some.mp hday
      obtain ⟨hyear, hfits⟩ := parseI32_eq_some.mp hyear
      obtain ⟨htime, -⟩ := parseHttpTime_eq_some.mp htime
      refine ⟨⟨year, month, day, hour, minute, second⟩, ⟨month, hmonth, day, hday,
        (hour, minute, second), htime, year, hyear, rfl⟩, hfits, ?_⟩
      rw [← ofOption_eq_ok, ← unixSecondsUtc_eq _ hfits]
      exact h
    · rintro ⟨f, ⟨month, hmonth, day, hday, ⟨hour, minute, second⟩, htime, year, hyear, h⟩,
        hfits, hsecond⟩
      cases h
      obtain ⟨hle, hrange⟩ := unixSecond_bounds hsecond
      dsimp only at hle
      exact ⟨month, hmonth, day, parseU32_eq_some.mpr ⟨hday, by omega⟩, (hour, minute, second),
        parseHttpTime_eq_some.mpr ⟨htime, hrange⟩, year, parseI32_eq_some.mpr ⟨hyear, hfits⟩,
        (unixSecondsUtc_eq _ hfits).trans (ofOption_eq_ok.mpr hsecond)⟩
  · exact iff_of_false nofun fun ⟨_, h, _⟩ ↦ nomatch h

theorem parseAsctimeDate_ne_overflow (raw : Text) : parseAsctimeDate raw ≠ .error .overflow := by
  unfold parseAsctimeDate
  split
  · refine bind_ne_overflow (ofOption_ne_overflow _) fun month _ ↦ ?_
    refine bind_ne_overflow (ofOption_ne_overflow _) fun day _ ↦ ?_
    refine bind_ne_overflow (ofOption_ne_overflow _) fun (hour, minute, second) _ ↦ ?_
    refine bind_ne_overflow (ofOption_ne_overflow _) fun year hyear ↦ ?_
    have hfits := (parseI32_eq_some.mp (ofOption_eq_ok.mp hyear)).2
    rw [unixSecondsUtc_eq ⟨year, month, day, hour, minute, second⟩ hfits]
    exact ofOption_ne_overflow _
  · exact nofun

/-- The year that is computed from the last field of an RFC 850 date. -/
def computedYear (year : Nat) : Int := if 70 ≤ year then 1900 + year else 2000 + year

theorem i32_eq_ok {n m : Int} : i32 n = .ok m ↔ FitsI32 n ∧ n = m := by
  unfold i32
  split_ifs with h
  · rw [Except.ok.injEq]
    exact (and_iff_right h).symm
  · exact iff_of_false nofun fun hm ↦ h hm.1

theorem parseU32_eq (s : Text) :
    parseU32 s = (numeral s).bind fun n ↦ if n < 2 ^ 32 then some n else none := by
  ext n
  rw [← Option.mem_def, ← Option.mem_def, Option.mem_def, parseU32_eq_some, Option.mem_def,
    Option.bind_eq_some_iff]
  constructor
  · rintro ⟨h, hn⟩
    exact ⟨n, h, if_pos hn⟩
  · rintro ⟨m, h, hm⟩
    split_ifs at hm with hlt
    cases hm
    exact ⟨h, hlt⟩

/-- The parser on an RFC 850 date, after its date. -/
def readTime (year : Int) (month day : Nat) : List Text → Checked Int
  | [time, zone] => do
      let (hour, minute, second) ← ofOption (parseHttpTime time)
      if zone ≠ "GMT".toList then .error .refused
      else unixSecondsUtc year month day hour minute second
  | _ => .error .refused

theorem parseRfc850Date_eq (raw : Text) :
    parseRfc850Date raw = (do
      let (day, month, year, parts) ← ofOption (rfc850Date raw)
      if day < 2 ^ 32 ∧ year < 2 ^ 31 then
        readTime (← i32 (computedYear year)) month day parts
      else .error .refused) := by
  unfold parseRfc850Date rfc850Date
  cases afterComma raw with
  | none => rfl
  | some rest =>
      simp only [ofOption_some, ok_bind, Option.bind_eq_bind, Option.bind_some]
      split
      · rfl
      · rename_i date parts _
        split
        · rename_i day month year _
          simp only [parseU32_eq]
          cases numeral day with
          | none => rfl
          | some d =>
              cases parseHttpMonth month with
              | none => simp only [Option.bind_some]; split_ifs <;> rfl
              | some m =>
                  cases numeral year with
                  | none => simp only [Option.bind_some]; split_ifs <;> rfl
                  | some y =>
                      simp only [Option.bind_some, Option.pure_def, ofOption_some, ok_bind]
                      by_cases hd : d < 2 ^ 32
                      · by_cases hy : y < 2 ^ 31
                        · rw [if_pos hd, if_pos (by omega), if_pos ⟨hd, hy⟩]
                          simp only [ofOption_some, ok_bind, if_pos hy]
                          unfold computedYear
                          congr 1
                        · rw [if_pos hd, if_neg fun h : d < 2 ^ 32 ∧ y < 2 ^ 31 ↦ hy h.2]
                          split_ifs with hy'
                          · simp only [ofOption_some, ok_bind, if_neg hy]
                            rfl
                          · rfl
                      · rw [if_neg hd, if_neg fun h : d < 2 ^ 32 ∧ y < 2 ^ 31 ↦ hd h.1]
                        rfl
        · rfl

theorem readTime_eq_ok {year : Int} {month day : Nat} {parts : List Text} {t : Int}
    (hyear : FitsI32 year) :
    readTime year month day parts = .ok t ↔ ∃ time hour minute second,
      parts = [time, "GMT".toList] ∧ timeFields time = some (hour, minute, second) ∧
      Fields.unixSecond ⟨year, month, day, hour, minute, second⟩ = some t := by
  unfold readTime
  split
  · rename_i time zone
    simp only [bind_eq_ok_iff, ofOption_eq_ok]
    constructor
    · rintro ⟨⟨hour, minute, second⟩, htime, h⟩
      obtain ⟨htime, -⟩ := parseHttpTime_eq_some.mp htime
      split_ifs at h with hzone
      rw [not_not] at hzone
      refine ⟨time, hour, minute, second, by rw [hzone], htime, ?_⟩
      rw [← ofOption_eq_ok, ← unixSecondsUtc_eq _ hyear]
      exact h
    · rintro ⟨time', hour, minute, second, hparts, htime, hsecond⟩
      obtain ⟨rfl, hzone⟩ := List.cons.inj hparts
      obtain ⟨-, hrange⟩ := unixSecond_bounds hsecond
      refine ⟨(hour, minute, second), parseHttpTime_eq_some.mpr ⟨htime, hrange⟩, ?_⟩
      rw [if_neg (not_not.mpr (List.cons.inj hzone).1)]
      exact (unixSecondsUtc_eq _ hyear).trans (ofOption_eq_ok.mpr hsecond)
  · rename_i hne
    refine iff_of_false nofun ?_
    rintro ⟨time, hour, minute, second, hparts, -⟩
    exact hne _ _ hparts

theorem readTime_ne_overflow {year : Int} (month day : Nat) (parts : List Text)
    (hyear : FitsI32 year) : readTime year month day parts ≠ .error .overflow := by
  unfold readTime
  split
  · refine bind_ne_overflow (ofOption_ne_overflow _) fun (hour, minute, second) _ ↦ ?_
    dsimp only
    split_ifs
    · exact nofun
    · rw [unixSecondsUtc_eq ⟨year, month, day, hour, minute, second⟩ hyear]
      exact ofOption_ne_overflow _
  · exact nofun

/-- An RFC 850 date is read as the second of the year that is computed. -/
theorem parseRfc850Date_eq_ok {raw : Text} {t : Int} :
    parseRfc850Date raw = .ok t ↔
      ∃ day month year time hour minute second,
        rfc850Date raw = some (day, month, year, [time, "GMT".toList]) ∧
        timeFields time = some (hour, minute, second) ∧ FitsI32 (computedYear year) ∧
        Fields.unixSecond ⟨computedYear year, month, day, hour, minute, second⟩ = some t := by
  rw [parseRfc850Date_eq]
  simp only [bind_eq_ok_iff, ofOption_eq_ok]
  constructor
  · rintro ⟨⟨day, month, year, parts⟩, hdate, h⟩
    dsimp only at h
    split_ifs at h
    obtain ⟨_, hyear, h⟩ := bind_eq_ok_iff.mp h
    obtain ⟨hfits, rfl⟩ := i32_eq_ok.mp hyear
    obtain ⟨time, hour, minute, second, rfl, htime, hsecond⟩ := (readTime_eq_ok hfits).mp h
    exact ⟨day, month, year, time, hour, minute, second, hdate, htime, hfits, hsecond⟩
  · rintro ⟨day, month, year, time, hour, minute, second, hdate, htime, hfits, hsecond⟩
    refine ⟨_, hdate, ?_⟩
    have hday : day ≤ 31 := (unixSecond_bounds hsecond).1
    have hyear : year < 2 ^ 31 := by
      unfold FitsI32 computedYear at hfits
      split_ifs at hfits <;> omega
    dsimp only
    rw [if_pos ⟨by omega, hyear⟩, i32_eq_ok.mpr ⟨hfits, rfl⟩, ok_bind]
    exact (readTime_eq_ok hfits).mpr ⟨time, hour, minute, second, rfl, htime, hsecond⟩

/-- The year is computed, and may overflow, before the time is looked at. -/
theorem parseRfc850Date_eq_overflow {raw : Text} :
    parseRfc850Date raw = .error .overflow ↔
      ∃ day month year parts, rfc850Date raw = some (day, month, year, parts) ∧
        day < 2 ^ 32 ∧ year < 2 ^ 31 ∧ ¬ FitsI32 (computedYear year) := by
  rw [parseRfc850Date_eq]
  cases hdate : rfc850Date raw with
  | none => exact iff_of_false nofun fun ⟨_, _, _, _, h, _⟩ ↦ nomatch h
  | some date =>
      obtain ⟨day, month, year, parts⟩ := date
      rw [ofOption_some, ok_bind]
      dsimp only
      by_cases hfits : FitsI32 (computedYear year)
      · refine iff_of_false ?_ ?_
        · rw [i32_eq_ok.mpr ⟨hfits, rfl⟩, ok_bind]
          split_ifs
          · exact readTime_ne_overflow month day parts hfits
          · exact nofun
        · rintro ⟨_, _, _, _, ⟨⟩, -, -, h⟩
          exact h hfits
      · rw [i32, if_neg hfits]
        by_cases hrange : day < 2 ^ 32 ∧ year < 2 ^ 31
        · rw [if_pos hrange]
          exact iff_of_true rfl ⟨day, month, year, parts, rfl, hrange.1, hrange.2, hfits⟩
        · rw [if_neg hrange]
          refine iff_of_false nofun ?_
          rintro ⟨_, _, _, _, ⟨⟩, hday, hyear, -⟩
          exact hrange ⟨hday, hyear⟩

end FrankenSnowflake.HttpDate
