import Mathlib.Data.Int.ConditionallyCompleteOrder
import Mathlib.Order.Monotone.Basic
import FrankenSnowflake.Core.Typed

/-!
# Temporal texts

The day count of a date goes through eras of 400 years that start in March.  The
printed fields are a date of the calendar and a time of day, and the arithmetic
that finds them stays far within 128 bits.
-/

namespace FrankenSnowflake.Typed

open Foundation Foundation.Digits Foundation.Calendar

/-! ## Years of an era -/

/-- A day of an era, without the leap days before it. -/
def leapless (doe : Int) : Int := doe - doe / 1460 + doe / 36524 - doe / 146096

def yearOfEra (doe : Int) : Int := leapless doe / 365

def dayOfYear (doe : Int) : Int :=
  doe - (365 * yearOfEra doe + yearOfEra doe / 4 - yearOfEra doe / 100)

/-- The month, counted from March. -/
def marchMonth (doy : Int) : Int := (5 * doy + 2) / 153

def dayOfMonth (doy : Int) : Int := doy - (153 * marchMonth doy + 2) / 5 + 1

def monthOfYear (doy : Int) : Int :=
  if marchMonth doy < 10 then marchMonth doy + 3 else marchMonth doy - 9

theorem leapless_mono : Monotone leapless := by
  apply monotone_int_of_le_succ
  intro doe
  unfold leapless
  omega

/-- The first and the last day of every year of an era. -/
theorem leapless_bounds : ∀ year : Nat, year < 400 →
    365 * (year : Int) ≤ leapless (daysBeforeYear (year + 1)) ∧
      leapless (daysBeforeYear (year + 2) - 1) < 365 * (year + 1) := by
  decide +kernel

theorem leapless_nonneg {doe : Int} (h : 0 ≤ doe) : 0 ≤ leapless doe := by
  have hzero : leapless 0 ≤ leapless doe := leapless_mono h
  exact hzero

theorem yearOfEra_nonneg {doe : Int} (h : 0 ≤ doe) : 0 ≤ yearOfEra doe :=
  Int.ediv_nonneg (leapless_nonneg h) (by decide)

theorem yearOfEra_lt {doe : Int} (h : doe < 146097) : yearOfEra doe < 400 := by
  have hlast : leapless doe ≤ leapless 146096 := leapless_mono (Int.le_of_lt_add_one h)
  have hleapless : leapless 146096 = 145999 := by decide
  unfold yearOfEra
  omega

/-- A day of an era lies in its year. -/
theorem daysBeforeYear_le {doe : Int} (hpos : 0 ≤ doe) (hlt : doe < 146097) :
    daysBeforeYear (yearOfEra doe + 1) ≤ doe ∧ doe < daysBeforeYear (yearOfEra doe + 2) := by
  obtain ⟨year, hyear⟩ := Int.eq_ofNat_of_zero_le (yearOfEra_nonneg hpos)
  have hyear_lt := yearOfEra_lt hlt
  rw [hyear] at hyear_lt ⊢
  have hdiv : year = leapless doe / 365 := hyear.symm
  constructor
  · by_contra hbefore
    rcases Nat.eq_zero_or_pos year with rfl | hsome
    · have hfirst : daysBeforeYear ((0 : Nat) + 1) = 0 := by decide
      omega
    · obtain ⟨last, rfl⟩ := Nat.exists_eq_succ_of_ne_zero hsome.ne'
      have hend := (leapless_bounds last (by omega)).2
      have hsucc : ((last.succ : Nat) : Int) + 1 = last + 2 := by omega
      rw [hsucc] at hbefore
      have hle : leapless doe ≤ leapless (daysBeforeYear (last + 2) - 1) :=
        leapless_mono (Int.le_sub_one_of_lt (not_le.mp hbefore))
      omega
  · by_contra hbehind
    have hbehind : daysBeforeYear (year + 2) ≤ doe := not_lt.mp hbehind
    rcases Nat.lt_or_ge (year + 1) 400 with hnext | hnext
    · have hstart := (leapless_bounds (year + 1) hnext).1
      have hle : leapless (daysBeforeYear (year + 2)) ≤ leapless doe := leapless_mono hbehind
      have hsucc : ((year + 1 : Nat) : Int) + 1 = year + 2 := by omega
      rw [hsucc] at hstart
      omega
    · have hlast : year = 399 := by omega
      subst hlast
      have hend : daysBeforeYear ((399 : Nat) + 2) = 146097 := by decide
      omega

/-! ## Days of a year -/

theorem dayOfYear_bounds {doe : Int} (hpos : 0 ≤ doe) (hlt : doe < 146097) :
    0 ≤ dayOfYear doe ∧ dayOfYear doe < 365 + leapDay (yearOfEra doe + 1) ∧
      doe = daysBeforeYear (yearOfEra doe + 1) + dayOfYear doe := by
  obtain ⟨hstart, hend⟩ := daysBeforeYear_le hpos hlt
  have hdays : dayOfYear doe = doe - daysBeforeYear (yearOfEra doe + 1) := by
    have hera : yearOfEra doe / 400 = 0 :=
      Int.ediv_eq_zero_of_lt (yearOfEra_nonneg hpos) (yearOfEra_lt hlt)
    unfold dayOfYear daysBeforeYear
    rw [add_sub_cancel_right]
    omega
  have hnext := daysBeforeYear_succ (yearOfEra doe + 1)
  rw [daysBeforeMonth_december, add_assoc] at hnext
  push_cast at hnext
  omega

/-- What the month count yields for a day of a year. -/
theorem marchMonth_bounds {doy : Int} (hpos : 0 ≤ doy) (hle : doy ≤ 365) :
    0 ≤ marchMonth doy ∧ marchMonth doy ≤ 11 := by
  unfold marchMonth
  omega

theorem monthOfYear_bounds {doy : Int} (hpos : 0 ≤ doy) (hle : doy ≤ 365) :
    1 ≤ monthOfYear doy ∧ monthOfYear doy ≤ 12 ∧
      (monthOfYear doy + 9) % 12 = marchMonth doy := by
  obtain ⟨hmonth, hmonth'⟩ := marchMonth_bounds hpos hle
  unfold monthOfYear
  split_ifs <;> omega

/-- The day is one of the month; a leap day is the last day counted. -/
theorem dayOfMonth_bounds {doy : Int} (year : Int) (hpos : 0 ≤ doy)
    (hlt : doy < 365 + leapDay year) {month : Nat} (hmonth : (month : Int) = monthOfYear doy) :
    1 ≤ dayOfMonth doy ∧ dayOfMonth doy ≤ daysInMonth year month := by
  have hleap := leapDay_le_one year
  obtain ⟨hone, htwelve, hmarch⟩ := monthOfYear_bounds hpos (by omega)
  have hdiv : marchMonth doy = (5 * doy + 2) / 153 := rfl
  have hday : dayOfMonth doy = doy - (153 * marchMonth doy + 2) / 5 + 1 := rfl
  have hle : month ≤ 12 := by omega
  have hpos' : 1 ≤ month := by omega
  rw [← hmonth] at hmarch
  interval_cases month
  all_goals
    simp only [daysInMonth]
    omega

/-! ## Dates -/

/-- The year of a day count from 0000-03-01. -/
def civilYear (z : Int) : Int :=
  yearOfEra (z % 146097) + z / 146097 * 400 +
    if monthOfYear (dayOfYear (z % 146097)) ≤ 2 then 1 else 0

theorem leapDay_add_era (year era : Int) : leapDay (year + era * 400) = leapDay year := by
  have hshift := leapDay_eq (year + era * 400)
  have hleap := leapDay_eq year
  omega

theorem daysBeforeYear_add_era (year era : Int) :
    daysBeforeYear (year + era * 400) = daysBeforeYear year + era * 146097 := by
  unfold daysBeforeYear
  omega

theorem daysInMonth_congr {month : Nat} (h : 2 < month) (hle : month ≤ 12) (year year' : Int) :
    daysInMonth year month = daysInMonth year' month := by
  interval_cases month <;> rfl

/-- The date of a day count, and the fields that are computed for it. -/
theorem exists_date (days : Int) :
    ∃ d : Date, d.dayNumber = days ∧ d.year = civilYear (days + 719468) ∧
      (d.month : Int) = monthOfYear (dayOfYear ((days + 719468) % 146097)) ∧
      (d.day : Int) = dayOfMonth (dayOfYear ((days + 719468) % 146097)) := by
  have hsplit := Int.emod_add_mul_ediv (days + 719468) 146097
  have hpos := Int.emod_nonneg (days + 719468) (b := 146097) (by decide)
  have hlt := Int.emod_lt_of_pos (days + 719468) (b := 146097) (by decide)
  unfold civilYear
  generalize (days + 719468) % 146097 = doe at hsplit hpos hlt ⊢
  generalize (days + 719468) / 146097 = era at hsplit ⊢
  obtain ⟨hdoy, hdoy', hdoe⟩ := dayOfYear_bounds hpos hlt
  have hleap := leapDay_le_one (yearOfEra doe + 1)
  obtain ⟨hone, htwelve, hmarch⟩ := monthOfYear_bounds hdoy (by omega)
  obtain ⟨month, hmonth⟩ := Int.eq_ofNat_of_zero_le (Int.le_trans (by decide) hone)
  have hnext : daysBeforeYear (yearOfEra doe + 1 + era * 400) =
      daysBeforeYear (yearOfEra doe + 1) + era * 146097 := daysBeforeYear_add_era _ _
  obtain ⟨hday, hday'⟩ := dayOfMonth_bounds (yearOfEra doe + 1 + era * 400) hdoy
    (by rw [leapDay_add_era]; exact hdoy') hmonth.symm
  obtain ⟨day, hdayNat⟩ := Int.eq_ofNat_of_zero_le (Int.le_trans (by decide) hday)
  rw [hmonth] at hone htwelve hmarch ⊢
  rw [hdayNat] at hday hday' ⊢
  generalize hyear : yearOfEra doe + era * 400 + (if (month : Int) ≤ 2 then 1 else 0) = year
  have hmarchYear : (if month ≤ 2 then year else year + 1) = yearOfEra doe + 1 + era * 400 := by
    rw [← hyear]
    split_ifs <;> omega
  have hmonthPos : 1 ≤ month := by omega
  have hmonthLe : month ≤ 12 := by omega
  have hvalid : day ≤ daysInMonth year month := by
    rw [← Int.ofNat_le]
    refine hday'.trans_eq ?_
    rcases Nat.lt_or_ge 2 month with hlate | hearly
    · rw [daysInMonth_congr hlate hmonthLe]
    · rw [if_pos hearly] at hmarchYear
      rw [hmarchYear]
  refine ⟨⟨year, month, day, hmonthPos, hmonthLe, by omega, hvalid⟩, ?_, rfl, rfl, rfl⟩
  have hbefore := daysBefore_march year hmonthPos hmonthLe
  have hcount : (((153 * ((month + 9) % 12) + 2) / 5 : Nat) : Int) =
      (153 * marchMonth (dayOfYear doe) + 2) / 5 := by
    rw [← hmarch]
    push_cast
    rfl
  rw [hmarchYear, hnext, hcount] at hbefore
  have hdayEq : dayOfMonth (dayOfYear doe) =
      dayOfYear doe - (153 * marchMonth (dayOfYear doe) + 2) / 5 + 1 := rfl
  unfold Date.dayNumber epochDays
  dsimp only
  omega

/-! ## Texts -/

theorem i128_ok {n : Int} (hlo : -2 ^ 126 ≤ n) (hhi : n ≤ 2 ^ 126) : i128 n = .ok n :=
  if_pos ⟨by omega, by omega⟩

/-- `"YYYY-MM-DD"`. -/
def dateText (year month day : Int) : Text :=
  (if year < 0 then '-' :: printInt 4 (-year) else printInt 4 year) ++
    '-' :: printInt 2 month ++ '-' :: printInt 2 day

theorem leapless_ok {doe : Int} (hpos : 0 ≤ doe) (hlt : doe < 146097) :
    sub doe (doe / 1460) = .ok (doe - doe / 1460) ∧
      add (doe - doe / 1460) (doe / 36524) = .ok (doe - doe / 1460 + doe / 36524) ∧
      sub (doe - doe / 1460 + doe / 36524) (doe / 146096) = .ok (leapless doe) := by
  unfold leapless
  exact ⟨i128_ok (by omega) (by omega), i128_ok (by omega) (by omega),
    i128_ok (by omega) (by omega)⟩

theorem daysOfYears_ok {year : Int} (hpos : 0 ≤ year) (hlt : year < 400) :
    mul 365 year = .ok (365 * year) ∧
      add (365 * year) (year / 4) = .ok (365 * year + year / 4) ∧
      sub (365 * year + year / 4) (year / 100) = .ok (365 * year + year / 4 - year / 100) :=
  ⟨i128_ok (by omega) (by omega), i128_ok (by omega) (by omega), i128_ok (by omega) (by omega)⟩

theorem dayOfYear_ok {doe : Int} (hpos : 0 ≤ doe) (hlt : doe < 146097) :
    sub doe (365 * yearOfEra doe + yearOfEra doe / 4 - yearOfEra doe / 100) =
      .ok (dayOfYear doe) := by
  have hdoy := (dayOfYear_bounds hpos hlt).1
  have hyear := yearOfEra_nonneg hpos
  unfold dayOfYear at hdoy
  exact i128_ok (by omega) (by omega)

/-- The length of a year bounds the day of the year. -/
theorem dayOfYear_le {doe : Int} (hpos : 0 ≤ doe) (hlt : doe < 146097) : dayOfYear doe ≤ 365 := by
  have hleap := leapDay_le_one (yearOfEra doe + 1)
  have hdoy := (dayOfYear_bounds hpos hlt).2.1
  omega

theorem marchMonth_ok {doy : Int} (hpos : 0 ≤ doy) (hle : doy ≤ 365) :
    mul 5 doy = .ok (5 * doy) ∧ add (5 * doy) 2 = .ok (5 * doy + 2) ∧
      (5 * doy + 2).tdiv 153 = marchMonth doy :=
  ⟨i128_ok (by omega) (by omega), i128_ok (by omega) (by omega),
    Int.tdiv_eq_ediv_of_nonneg (by omega)⟩

theorem dayOfMonth_ok {doy : Int} (hpos : 0 ≤ doy) (hle : doy ≤ 365) :
    mul 153 (marchMonth doy) = .ok (153 * marchMonth doy) ∧
      add (153 * marchMonth doy) 2 = .ok (153 * marchMonth doy + 2) ∧
      (153 * marchMonth doy + 2).tdiv 5 = (153 * marchMonth doy + 2) / 5 ∧
      sub doy ((153 * marchMonth doy + 2) / 5) = .ok (doy - (153 * marchMonth doy + 2) / 5) ∧
      add (doy - (153 * marchMonth doy + 2) / 5) 1 = .ok (dayOfMonth doy) := by
  obtain ⟨hmonth, hmonth'⟩ := marchMonth_bounds hpos hle
  unfold dayOfMonth
  generalize marchMonth doy = month at hmonth hmonth' ⊢
  exact ⟨i128_ok (by omega) (by omega), i128_ok (by omega) (by omega),
    Int.tdiv_eq_ediv_of_nonneg (by omega), i128_ok (by omega) (by omega),
    i128_ok (by omega) (by omega)⟩

theorem monthOfYear_ok {doy : Int} (hpos : 0 ≤ doy) (hle : doy ≤ 365) :
    (if marchMonth doy < 10 then add (marchMonth doy) 3 else sub (marchMonth doy) 9) =
      .ok (monthOfYear doy) := by
  obtain ⟨hmonth, hmonth'⟩ := marchMonth_bounds hpos hle
  unfold monthOfYear
  generalize marchMonth doy = month at hmonth hmonth' ⊢
  split_ifs
  · exact i128_ok (by omega) (by omega)
  · exact i128_ok (by omega) (by omega)

theorem year_ok {year era : Int} (hpos : 0 ≤ year) (hlt : year < 400) (hlo : -2 ^ 100 ≤ era)
    (hhi : era ≤ 2 ^ 100) (early : Prop) [Decidable early] :
    mul era 400 = .ok (era * 400) ∧ add year (era * 400) = .ok (year + era * 400) ∧
      add (year + era * 400) (if early then 1 else 0) =
        .ok (year + era * 400 + if early then 1 else 0) ∧
      neg (year + era * 400 + if early then 1 else 0) =
        .ok (-(year + era * 400 + if early then 1 else 0)) := by
  have hearly : (0 : Int) ≤ (if early then 1 else 0) ∧ (if early then 1 else 0) ≤ (1 : Int) := by
    split_ifs <;> decide
  generalize (if early then 1 else 0 : Int) = one at hearly ⊢
  exact ⟨i128_ok (by omega) (by omega), i128_ok (by omega) (by omega),
    i128_ok (by omega) (by omega), i128_ok (by omega) (by omega)⟩

/-- Far within 128 bits, no operation of `format_date` overflows. -/
theorem formatDate_eq {days : Int} (hlo : -2 ^ 100 ≤ days) (hhi : days ≤ 2 ^ 100) :
    formatDate days =
      .ok (dateText (civilYear (days + 719468))
        (monthOfYear (dayOfYear ((days + 719468) % 146097)))
        (dayOfMonth (dayOfYear ((days + 719468) % 146097)))) := by
  have hz : add days 719468 = .ok (days + 719468) := i128_ok (by omega) (by omega)
  have hpos := Int.emod_nonneg (days + 719468) (b := 146097) (by decide)
  have hlt := Int.emod_lt_of_pos (days + 719468) (b := 146097) (by decide)
  have hera : -2 ^ 100 ≤ (days + 719468) / 146097 ∧ (days + 719468) / 146097 ≤ 2 ^ 100 :=
    ⟨by omega, by omega⟩
  unfold formatDate civilYear
  rw [hz]
  simp only [ok_bind]
  generalize (days + 719468) % 146097 = doe at hpos hlt ⊢
  generalize (days + 719468) / 146097 = era at hera ⊢
  have hyear := yearOfEra_nonneg hpos
  have hyear' := yearOfEra_lt hlt
  have hdoy := (dayOfYear_bounds hpos hlt).1
  have hdoy' := dayOfYear_le hpos hlt
  -- the year and the day of the year
  obtain ⟨h1, h2, h3⟩ := leapless_ok hpos hlt
  have hyoe : (leapless doe).tdiv 365 = yearOfEra doe :=
    Int.tdiv_eq_ediv_of_nonneg (leapless_nonneg hpos)
  obtain ⟨h4, h5, h6⟩ := daysOfYears_ok hyear hyear'
  simp only [Int.tdiv_eq_ediv_of_nonneg hpos, h1, h2, h3, ok_bind, hyoe,
    Int.tdiv_eq_ediv_of_nonneg hyear, h4, h5, h6, dayOfYear_ok hpos hlt]
  -- the month, the day of the month and the year that starts in January
  obtain ⟨h7, h8, hmonth⟩ := marchMonth_ok hdoy hdoy'
  obtain ⟨h9, h10, hfive, h11, h12⟩ := dayOfMonth_ok hdoy hdoy'
  obtain ⟨h13, h14, h15, h16⟩ :=
    year_ok hyear hyear' hera.1 hera.2 (monthOfYear (dayOfYear doe) ≤ 2)
  simp only [h7, h8, hmonth, h9, h10, hfive, h11, h12, monthOfYear_ok hdoy hdoy', h13, h14, h15,
    ok_bind]
  rw [dateText]
  generalize (yearOfEra doe + era * 400 + if monthOfYear (dayOfYear doe) ≤ 2 then 1 else 0) = year
    at h16 ⊢
  by_cases hnegative : year < 0
  · rw [if_pos hnegative, if_pos hnegative, h16]
    rfl
  · rw [if_neg hnegative, if_neg hnegative]
    rfl

/-- The instants of `i128` nanoseconds. -/
abbrev I128 : Type := { n : Int // Fits 128 n }

def dayNanos : Int := 86400000000000

theorem formatTimestamp_eq (n : I128) :
    ∃ d : Date, d.dayNumber = n.val / dayNanos ∧
      formatTimestamp n.val =
        .ok (dateText d.year d.month d.day ++ 'T' :: formatTimeOfDay (n.val % dayNanos)) := by
  obtain ⟨n, hlo, hhi⟩ := n
  obtain ⟨d, hdays, hyear, hmonth, hday⟩ := exists_date (n / dayNanos)
  have hmul : mul secondsPerDay nanosPerSecond = .ok dayNanos :=
    i128_ok (by decide) (by decide)
  have hdate := @formatDate_eq (n / dayNanos) (by unfold dayNanos; omega)
    (by unfold dayNanos; omega)
  refine ⟨d, hdays, ?_⟩
  rw [formatTimestamp, hmul, ok_bind, hdate, ok_bind, hyear, hmonth, hday]
  rfl

/-! ## Reading a text back -/

/-- Digits behind a separator. -/
def readField (c : Char) (width : Nat) : Text → Option (Nat × Text)
  | d :: s => if d = c then readDigits width s else none
  | [] => none

/-- A year of four digits or more, with a sign if it is negative. -/
def readYear (s : Text) : Option (Int × Text) :=
  let negative := s.head? = some '-'
  let s := if negative then s.tail else s
  let digits := s.takeWhile Char.isDigit
  if digits.length < 4 then none
  else
    let year := Nat.ofDigitChars 10 digits 0
    some (if negative then -(year : Int) else year, s.dropWhile Char.isDigit)

/-- The instant that a text denotes, from its fields and the day number of its
date; the fields are those of a date and of a time of day. -/
def readTimestamp (s : Text) : Option Int := do
  let (year, s) ← readYear s
  let (month, s) ← readField '-' 2 s
  let (day, s) ← readField '-' 2 s
  let (hour, s) ← readField 'T' 2 s
  let (minute, s) ← readField ':' 2 s
  let (second, s) ← readField ':' 2 s
  let (nanos, s) ← readField '.' 9 s
  let date ← Date.of? year month day
  if s = [] ∧ hour < 24 ∧ minute < 60 ∧ second < 60 then
    some ((((date.dayNumber * 24 + hour) * 60 + minute) * 60 + second) * 1000000000 + nanos)
  else none

theorem printInt_natCast (width n : Nat) : printInt width n = padded width n := by
  rw [printInt, if_neg (not_lt.mpr (Int.natCast_nonneg n)), Int.natAbs_natCast]

theorem readField_append {width n : Nat} (hwidth : 0 < width) (hn : n < 10 ^ width) (c : Char)
    (s : Text) : readField c width (c :: (padded width n ++ s)) = some (n, s) :=
  (if_pos rfl).trans (readDigits_padded hwidth hn s)

/-- The year that is printed in front of a hyphen is read. -/
theorem readYear_append (year : Int) (s : Text) :
    readYear ((if year < 0 then '-' :: printInt 4 (-year) else printInt 4 year) ++ '-' :: s) =
      some (year, '-' :: s) := by
  have htake (n : Nat) : (padded 4 n ++ '-' :: s).takeWhile Char.isDigit = padded 4 n := by
    rw [List.takeWhile_append_of_pos fun c hc ↦ isDigit_of_mem_padded hc]
    simp
  have hdrop (n : Nat) : (padded 4 n ++ '-' :: s).dropWhile Char.isDigit = '-' :: s := by
    rw [List.dropWhile_append_of_pos fun c hc ↦ isDigit_of_mem_padded hc]
    rfl
  have hlength (n : Nat) : ¬ (padded 4 n).length < 4 := not_lt.mpr (le_length_padded 4 n)
  have hhead (n : Nat) : (padded 4 n ++ '-' :: s).head? ≠ some '-' := by
    intro hminus
    cases hpadded : padded 4 n with
    | nil =>
        have hnil := hlength n
        rw [hpadded] at hnil
        exact hnil (by decide)
    | cons c tail =>
        rw [hpadded] at hminus
        obtain rfl : c = '-' := Option.some.inj hminus
        have hdigit := @isDigit_of_mem_padded 4 n '-' (hpadded ▸ List.mem_cons_self)
        cases hdigit
  by_cases hnegative : year < 0
  · obtain ⟨n, hn⟩ := Int.eq_ofNat_of_zero_le (a := -year) (by omega)
    have hyear : year = -(n : Int) := by omega
    rw [if_pos hnegative, hn, printInt_natCast]
    simp [readYear, htake, hdrop, hlength, ofDigitChars_padded, hyear]
  · obtain ⟨n, rfl⟩ := Int.eq_ofNat_of_zero_le (not_lt.mp hnegative)
    rw [if_neg hnegative, printInt_natCast]
    simp only [readYear, if_neg (hhead n), htake, hdrop, if_neg (hlength n), ofDigitChars_padded]

/-- A time of day, from its fields. -/
theorem formatTimeOfDay_eq {nanos : Int} (hpos : 0 ≤ nanos) (hlt : nanos < dayNanos) :
    ∃ hour minute second fraction : Nat,
      hour < 24 ∧ minute < 60 ∧ second < 60 ∧ fraction < 10 ^ 9 ∧
      nanos = ((hour * 60 + minute) * 60 + second) * 1000000000 + fraction ∧
      formatTimeOfDay nanos = padded 2 hour ++ ':' :: padded 2 minute ++ ':' :: padded 2 second ++
        '.' :: padded 9 fraction := by
  obtain ⟨n, rfl⟩ := Int.eq_ofNat_of_zero_le hpos
  have hn : n < 86400000000000 := by
    unfold dayNanos at hlt
    omega
  refine ⟨n / 1000000000 / 3600, n / 1000000000 / 60 % 60, n / 1000000000 % 60, n % 1000000000,
    by omega, by omega, by omega, by omega, by omega, ?_⟩
  -- division and remainder of natural numbers are those of the integers
  show printInt 2 (n / 1000000000 / 3600 : Nat) ++
      ':' :: printInt 2 (n / 1000000000 / 60 % 60 : Nat) ++
      ':' :: printInt 2 (n / 1000000000 % 60 : Nat) ++
      '.' :: printInt 9 (n % 1000000000 : Nat) = _
  simp only [printInt_natCast]

theorem lt_of_month (d : Date) : d.month < 10 ^ 2 := Nat.lt_of_le_of_lt d.month_le (by decide)

theorem lt_of_day (d : Date) : d.day < 10 ^ 2 :=
  Nat.lt_of_le_of_lt (d.day_le.trans (daysInMonth_le _ _)) (by decide)

/-- The fields of a date and of a time of day are read back. -/
theorem readTimestamp_append (d : Date) {hour minute second fraction : Nat} (hhour : hour < 24)
    (hminute : minute < 60) (hsecond : second < 60) (hfraction : fraction < 10 ^ 9) :
    readTimestamp (dateText d.year d.month d.day ++ 'T' :: (padded 2 hour ++ ':' :: padded 2 minute ++
      ':' :: padded 2 second ++ '.' :: padded 9 fraction)) =
      some ((((d.dayNumber * 24 + hour) * 60 + minute) * 60 + second) * 1000000000 + fraction) := by
  have hlast : readField '.' 9 ('.' :: padded 9 fraction) = some (fraction, []) := by
    have h := readField_append (by decide) hfraction '.' []
    rwa [List.append_nil] at h
  have hfield {n : Nat} (hn : n < 10 ^ 2) (c : Char) (s : Text) :
      readField c 2 (c :: (padded 2 n ++ s)) = some (n, s) := readField_append (by decide) hn c s
  rw [dateText, printInt_natCast, printInt_natCast]
  simp only [List.append_assoc, List.cons_append]
  rw [readTimestamp, readYear_append]
  simp only [Option.bind_eq_bind, Option.bind_some, hfield (lt_of_month d), hfield (lt_of_day d),
    hfield (Nat.lt_trans hhour (by decide)), hfield (Nat.lt_trans hminute (by decide)),
    hfield (Nat.lt_trans hsecond (by decide)), hlast, Date.of?_eq]
  exact if_pos ⟨trivial, hhour, hminute, hsecond⟩

/-- The text of an instant denotes it. -/
theorem readTimestamp_formatTimestamp (n : I128) :
    ∃ text, formatTimestamp n.val = .ok text ∧ readTimestamp text = some n.val := by
  obtain ⟨d, hdays, htext⟩ := formatTimestamp_eq n
  obtain ⟨hour, minute, second, fraction, hhour, hminute, hsecond, hfraction, hnanos, htime⟩ :=
    formatTimeOfDay_eq (Int.emod_nonneg n.val (b := dayNanos) (by decide))
      (Int.emod_lt_of_pos n.val (b := dayNanos) (by decide))
  refine ⟨_, htext, ?_⟩
  rw [htime, readTimestamp_append d hhour hminute hsecond hfraction, hdays]
  have hsplit := Int.emod_add_mul_ediv n.val dayNanos
  rw [hnanos] at hsplit
  unfold dayNanos at hsplit ⊢
  congr 1
  omega

/-- The text of an instant denotes it, so that different instants have different
texts. -/
theorem formatTimestamp_exact :
    (∀ n : I128, ∃ text, formatTimestamp n.val = .ok text ∧ readTimestamp text = some n.val) ∧
      Function.Injective fun n : I128 ↦ formatTimestamp n.val := by
  refine ⟨readTimestamp_formatTimestamp, fun n m hnm ↦ ?_⟩
  obtain ⟨text, htext, hread⟩ := readTimestamp_formatTimestamp n
  obtain ⟨text', htext', hread'⟩ := readTimestamp_formatTimestamp m
  obtain rfl : text = text' := Except.ok.inj (htext.symm.trans (hnm.trans htext'))
  exact Subtype.ext (Option.some.inj (hread.symm.trans hread'))

end FrankenSnowflake.Typed
