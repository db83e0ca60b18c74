import FrankenSnowflake.Http.HttpDate

/-!
# What a Retry-After date is read as

A text is of one format at most.  What the parsers read is the second that its
fields denote, unless it is an RFC 850 date with a year of more than two digits:
there 1900 is added to the year, which may overflow.
-/

namespace FrankenSnowflake.HttpDate

open Foundation Http

/-! ## One format -/

theorem splitFrom_plain {isSeparator : Char → Bool} {s : Text}
    (h : ∀ c ∈ s, isSeparator c = false) (part : Text) :
    splitFrom isSeparator part s = [part ++ s] := by
  induction s generalizing part with
  | nil => rw [splitFrom, List.append_nil]
  | cons c s ih =>
      obtain ⟨hc, h⟩ := List.forall_mem_cons.mp h
      rw [splitFrom, if_neg (by rw [hc]; exact Bool.false_ne_true), ih h, List.append_assoc,
        List.singleton_append]

/-- A part ends at a separator. -/
theorem splitFrom_append {isSeparator : Char → Bool} {s : Text}
    (h : ∀ c ∈ s, isSeparator c = false) {c : Char} (hc : isSeparator c) (part rest : Text) :
    splitFrom isSeparator part (s ++ c :: rest) =
      (part ++ s) :: splitFrom isSeparator [] rest := by
  induction s generalizing part with
  | nil => rw [List.nil_append, splitFrom, if_pos hc, List.append_nil]
  | cons d s ih =>
      obtain ⟨hd, h⟩ := List.forall_mem_cons.mp h
      rw [List.cons_append, splitFrom, if_neg (by rw [hd]; exact Bool.false_ne_true), ih h,
        List.append_assoc, List.singleton_append]

/-- The parts behind the comma are the last parts of the text. -/
theorem splitFrom_afterComma {raw rest : Text} (h : afterComma raw = some rest) (part : Text) :
    ∃ front, splitFrom isAsciiWhitespace part raw =
      front ++ splitFrom isAsciiWhitespace [] rest := by
  induction raw using afterComma.induct generalizing part with
  | case1 s =>
      rw [afterComma, Option.some.injEq] at h
      subst h
      exact ⟨[part ++ [',']], rfl⟩
  | case2 c s hne ih =>
      rw [afterComma] at h
      · rw [splitFrom]
        split_ifs
        · obtain ⟨front, hfront⟩ := ih h []
          exact ⟨part :: front, by rw [hfront, List.cons_append]⟩
        · exact ih h (part ++ [c])
      · exact hne
  | case3 => cases h

theorem tokens_afterComma {raw rest : Text} (h : afterComma raw = some rest) :
    ∃ front, splitAsciiWhitespace raw = front ++ splitAsciiWhitespace rest := by
  obtain ⟨front, hfront⟩ := splitFrom_afterComma h []
  exact ⟨front.filter (· ≠ []), by
    rw [splitAsciiWhitespace, hfront, List.filter_append, splitAsciiWhitespace]⟩

/-- A number has no dash. -/
theorem split_of_numeral {s : Text} {n : Nat} (h : numeral s = some n) : split '-' s = [s] := by
  refine splitFrom_plain (fun c hc ↦ ?_) []
  rw [numeral] at h
  obtain ⟨-, hdigits, -⟩ := parseDigits_eq_some h
  rw [decide_eq_false_iff_not]
  rintro rfl
  split_ifs at hdigits with hplus
  · cases s with
    | nil => cases hc
    | cons d s =>
        rcases List.mem_cons.mp hc with rfl | hc
        · exact absurd (Option.some.inj hplus) (by decide)
        · exact absurd (hdigits _ hc) (by decide)
  · exact absurd (hdigits _ hc) (by decide)

/-- The first part of an RFC 850 date is no number. -/
theorem fields_imfFixdate_of_rfc850Date {raw : Text} {date : Nat × Nat × Nat × List Text}
    (h : rfc850Date raw = some date) : fields .imfFixdate raw = none := by
  rw [Option.eq_none_iff_forall_ne_some]
  intro f hf
  simp only [rfc850Date, fields] at h hf
  obtain ⟨rest, hrest, h⟩ := Option.bind_eq_some_iff.mp h
  obtain ⟨rest', hrest', hf⟩ := Option.bind_eq_some_iff.mp hf
  cases hrest.symm.trans hrest'
  split at hf
  · rename_i heq
    obtain ⟨day, hday, -⟩ := Option.bind_eq_some_iff.mp hf
    rw [heq] at h
    dsimp only at h
    rw [split_of_numeral hday] at h
    cases h
  · cases hf

/-- A text of the first two formats ends in `GMT`. -/
theorem tokens_of_zone {raw : Text} {f : Fields} {format : Format} (hformat : format ≠ .asctime)
    (h : fields format raw = some f) :
    ∃ front, splitAsciiWhitespace raw = front ++ ["GMT".toList] := by
  cases format with
  | imfFixdate =>
      obtain ⟨rest, hrest, h⟩ := Option.bind_eq_some_iff.mp h
      obtain ⟨front, hfront⟩ := tokens_afterComma hrest
      split at h
      · rename_i day month year time zone heq
        obtain ⟨_, -, h⟩ := Option.bind_eq_some_iff.mp h
        obtain ⟨_, -, h⟩ := Option.bind_eq_some_iff.mp h
        obtain ⟨_, -, h⟩ := Option.bind_eq_some_iff.mp h
        obtain ⟨_, -, h⟩ := Option.bind_eq_some_iff.mp h
        split_ifs at h with hzone
        refine ⟨front ++ [day, month, year, time], ?_⟩
        rw [hfront, heq, hzone, List.append_assoc]
        rfl
      · cases h
  | rfc850 =>
      obtain ⟨⟨day, month, year, parts⟩, hdate, h⟩ := Option.bind_eq_some_iff.mp h
      dsimp only at h
      split at h
      · rename_i time zone
        obtain ⟨_, -, h⟩ := Option.bind_eq_some_iff.mp h
        split_ifs at h with hzone
        obtain ⟨rest, hrest, hdate⟩ := Option.bind_eq_some_iff.mp hdate
        obtain ⟨front, hfront⟩ := tokens_afterComma hrest
        split at hdate
        · cases hdate
        · rename_i date parts heq
          split at hdate
          · simp only [Option.bind_eq_bind, Option.bind_eq_some_iff, Option.pure_def,
              Option.some.injEq, Prod.mk.injEq] at hdate
            obtain ⟨_, -, _, -, _, -, -, -, -, rfl⟩ := hdate
            refine ⟨front ++ [date, time], ?_⟩
            rw [hfront, heq, hzone, List.append_assoc]
            rfl
          · cases hdate
      · cases h
  | asctime => exact absurd rfl hformat

/-- An asctime date ends in a year. -/
theorem tokens_of_asctime {raw : Text} {f : Fields} (h : fields .asctime raw = some f) :
    ∃ front year, splitAsciiWhitespace raw = front ++ [year] ∧ (signedNumeral year).isSome := by
  simp only [fields] at h
  split at h
  · rename_i weekday month day time year heq
    obtain ⟨_, -, h⟩ := Option.bind_eq_some_iff.mp h
    obtain ⟨_, -, h⟩ := Option.bind_eq_some_iff.mp h
    obtain ⟨_, -, h⟩ := Option.bind_eq_some_iff.mp h
    obtain ⟨_, hyear, -⟩ := Option.bind_eq_some_iff.mp h
    exact ⟨[weekday, month, day, time], year, heq, Option.isSome_iff_exists.mpr ⟨_, hyear⟩⟩
  · cases h

theorem fields_asctime_of_zone {raw : Text} {f : Fields} {format : Format}
    (hformat : format ≠ .asctime) (h : fields format raw = some f) :
    fields .asctime raw = none := by
  rw [Option.eq_none_iff_forall_ne_some]
  intro f' hf'
  obtain ⟨front, hzone⟩ := tokens_of_zone hformat h
  obtain ⟨front', year, hyear, hsome⟩ := tokens_of_asctime hf'
  have hgmt := List.append_inj_right' (hyear.symm.trans hzone) rfl
  rw [(List.cons.inj hgmt).1] at hsome
  exact absurd hsome (by decide +kernel)

/-- A text is of one format. -/
theorem fields_unique {raw : Text} {format format' : Format} {f f' : Fields}
    (h : fields format raw = some f) (h' : fields format' raw = some f') : f = f' := by
  have himf : ∀ {f f'}, fields .imfFixdate raw = some f → fields .rfc850 raw = some f' → False := by
    intro f f' h h'
    obtain ⟨date, hdate, -⟩ := Option.bind_eq_some_iff.mp h'
    rw [fields_imfFixdate_of_rfc850Date hdate] at h
    cases h
  have hasctime : ∀ format, ∀ {f f'}, format ≠ .asctime → fields format raw = some f →
      fields .asctime raw = some f' → False := by
    intro format f f' hformat h h'
    rw [fields_asctime_of_zone hformat h] at h'
    cases h'
  have hsame : format = format' := by
    cases format with
    | imfFixdate =>
        cases format' with
        | imfFixdate => rfl
        | rfc850 => exact (himf h h').elim
        | asctime => exact (hasctime _ (by decide) h h').elim
    | rfc850 =>
        cases format' with
        | imfFixdate => exact (himf h' h).elim
        | rfc850 => rfl
        | asctime => exact (hasctime _ (by decide) h h').elim
    | asctime =>
        cases format' with
        | imfFixdate => exact (hasctime _ (by decide) h' h).elim
        | rfc850 => exact (hasctime _ (by decide) h' h).elim
        | asctime => rfl
  rw [hsame] at h
  exact Option.some.inj (h.symm.trans h')

/-! ## Years of more than two digits -/

/-- An RFC 850 date whose year is a number of a hundred or more that is computed
with: 1900 more is too much for the type, or the date that it makes is in range. -/
def LongYear (raw : Text) : Prop :=
  ∃ day month year parts, rfc850Date raw = some (day, month, year, parts) ∧ 100 ≤ year ∧
    ((day < 2 ^ 32 ∧ year < 2 ^ 31 ∧ 2 ^ 31 ≤ 1900 + year) ∨
      (1900 + year < 2 ^ 31 ∧ ∃ time hour minute second, parts = [time, "GMT".toList] ∧
        timeFields time = some (hour, minute, second) ∧
        (Fields.unixSecond ⟨1900 + year, month, day, hour, minute, second⟩).isSome))

theorem computedYear_eq_fullYear {year : Nat} (h : year < 100) :
    computedYear year = fullYear year := by
  unfold computedYear fullYear
  split_ifs <;> omega

theorem fitsI32_computedYear {year : Nat} (h : year < 100) : FitsI32 (computedYear year) := by
  unfold FitsI32 computedYear
  split_ifs <;> omega

theorem computedYear_of_long {year : Nat} (h : 100 ≤ year) :
    computedYear year = 1900 + year := if_pos (by omega)

/-- Only an RFC 850 date with such a year overflows. -/
theorem longYear_of_overflow {raw : Text}
    (h : parseHttpDateUnixSeconds raw = .error .overflow) : LongYear raw := by
  have hrfc : parseRfc850Date raw = .error .overflow := by
    unfold parseHttpDateUnixSeconds at h
    cases himf : parseImfFixdate raw with
    | ok t => rw [himf] at h; cases h
    | error e =>
        cases e with
        | overflow => exact absurd himf (parseImfFixdate_ne_overflow raw)
        | refused =>
            rw [himf] at h
            cases hrfc : parseRfc850Date raw with
            | ok t => rw [hrfc] at h; cases h
            | error e =>
                cases e with
                | overflow => rfl
                | refused =>
                    rw [hrfc] at h
                    exact absurd h (parseAsctimeDate_ne_overflow raw)
  obtain ⟨day, month, year, parts, hdate, hday, hyear, hfits⟩ :=
    parseRfc850Date_eq_overflow.mp hrfc
  have hlong : 100 ≤ year := by
    by_contra hshort
    exact hfits (fitsI32_computedYear (by omega))
  rw [computedYear_of_long hlong, FitsI32] at hfits
  exact ⟨day, month, year, parts, hdate, hlong, .inl ⟨hday, hyear, by omega⟩⟩

/-- Without such a year, what is read is what the fields of the text denote. -/
theorem fields_of_eq_ok {raw : Text} (hshort : ¬ LongYear raw) {t : Int}
    (h : parseHttpDateUnixSeconds raw = .ok t) :
    ∃ format f, fields format raw = some f ∧ f.unixSecond = some t := by
  unfold parseHttpDateUnixSeconds at h
  cases himf : parseImfFixdate raw with
  | ok t' =>
      rw [himf] at h
      cases h
      obtain ⟨f, hf, -, hsecond⟩ := parseImfFixdate_eq_ok.mp himf
      exact ⟨.imfFixdate, f, hf, hsecond⟩
  | error e =>
      cases e with
      | overflow => exact absurd himf (parseImfFixdate_ne_overflow raw)
      | refused =>
          rw [himf] at h
          cases hrfc : parseRfc850Date raw with
          | ok t' =>
              rw [hrfc] at h
              cases h
              obtain ⟨day, month, year, time, hour, minute, second, hdate, htime, hfits, hsecond⟩ :=
                parseRfc850Date_eq_ok.mp hrfc
              have hyear : year < 100 := by
                by_contra hlong
                rw [Nat.not_lt] at hlong
                rw [computedYear_of_long hlong] at hfits hsecond
                exact hshort ⟨day, month, year, _, hdate, hlong, .inr ⟨by unfold FitsI32 at hfits; omega,
                  time, hour, minute, second, rfl, htime, by rw [hsecond]; rfl⟩⟩
              rw [computedYear_eq_fullYear hyear] at hsecond
              refine ⟨.rfc850, _, ?_, hsecond⟩
              simp only [fields, hdate, htime, Option.bind_eq_bind, Option.bind_some, if_pos]
          | error e =>
              rw [hrfc] at h
              cases e with
              | overflow => cases h
              | refused =>
                  obtain ⟨f, hf, -, hsecond⟩ := parseAsctimeDate_eq_ok.mp h
                  exact ⟨.asctime, f, hf, hsecond⟩

theorem of?_eq_some {year : Int} {month day : Nat} {date : Calendar.Date}
    (h : Calendar.Date.of? year month day = some date) :
    date.year = year ∧ date.month = month ∧ date.day = day := by
  unfold Calendar.Date.of? at h
  split_ifs at h
  cases h
  exact ⟨rfl, rfl, rfl⟩

/-- Days of different years are different. -/
theorem year_unique {f : Fields} {year : Int} {t : Int} (h : f.unixSecond = some t)
    (h' : Fields.unixSecond { f with year := year } = some t) : f.year = year := by
  obtain ⟨date, hdate, htime⟩ := Option.bind_eq_some_iff.mp h
  obtain ⟨date', hdate', htime'⟩ := Option.bind_eq_some_iff.mp h'
  obtain ⟨hyear, hmonth, hday⟩ := of?_eq_some hdate
  obtain ⟨hyear', hmonth', hday'⟩ := of?_eq_some hdate'
  dsimp only at hyear' hmonth' hday' htime'
  split_ifs at htime htime'
  have hnumber : date.dayNumber = date'.dayNumber := by
    have hsame := htime.trans htime'.symm
    rw [Option.some.injEq] at hsame
    omega
  rw [Calendar.Date.dayNumber, Calendar.Date.dayNumber, daysBefore_march, daysBefore_march,
    hmonth, hmonth', hday, hday', hyear, hyear'] at hnumber
  unfold Calendar.daysBeforeYear at hnumber
  split_ifs at hnumber <;> omega

/-! ## The promise -/

def dayNames : List Text :=
  ["Mon".toList, "Tue".toList, "Wed".toList, "Thu".toList, "Fri".toList, "Sat".toList,
    "Sun".toList]

def monthNames : List Text :=
  ["Jan".toList, "Feb".toList, "Mar".toList, "Apr".toList, "May".toList, "Jun".toList,
    "Jul".toList, "Aug".toList, "Sep".toList, "Oct".toList, "Nov".toList, "Dec".toList]

/-- An IMF-fixdate. -/
def imfFixdate (dayName : Text) (year month day hour minute second : Nat) : Text :=
  dayName ++ ", ".toList ++ Digits.padded 2 day ++ ' ' :: monthNames.getD (month - 1) [] ++
    ' ' :: Digits.padded 4 year ++ ' ' :: Digits.padded 2 hour ++ ':' :: Digits.padded 2 minute ++
    ':' :: Digits.padded 2 second ++ " GMT".toList

/-- What the parsers promise of a text. -/
structure Exact (raw : Text) : Prop where
  /-- Nothing overflows, at any time and in any header. -/
  safe : parseHttpDateUnixSeconds raw ≠ .error .overflow
  header : ∀ now headers value, responseHeader headers "Retry-After".toList = some value →
    Unicode.trim value = raw → retryAfterMs now headers ≠ .error .overflow
  /-- A date that is accepted denotes the second that is read. -/
  denotes : ∀ t, parseHttpDateUnixSeconds raw = .ok t → (∃ format f, fields format raw = some f) ∧
    ∀ format f, fields format raw = some f → f.unixSecond = some t
  /-- A valid IMF-fixdate is accepted. -/
  fixdate : ∀ dayName ∈ dayNames, ∀ year month day hour minute second : Nat, year < 10000 →
    (Fields.unixSecond ⟨year, month, day, hour, minute, second⟩).isSome →
    raw = imfFixdate dayName year month day hour minute second →
    ∃ t, parseHttpDateUnixSeconds raw = .ok t
  /-- A day that the month does not have, or a time out of range, is rejected. -/
  rejects : ∀ format f, fields format raw = some f → f.unixSecond = none →
    parseHttpDateUnixSeconds raw = .error .refused

theorem retryAfterMs_ne_overflow {raw : Text}
    (hsafe : parseHttpDateUnixSeconds raw ≠ .error .overflow) {now : Option Nat}
    {headers : List (Text × Text)} {value : Text}
    (hvalue : responseHeader headers "Retry-After".toList = some value)
    (htrim : Unicode.trim value = raw) : retryAfterMs now headers ≠ .error .overflow := by
  unfold retryAfterMs
  rw [hvalue, ofOption_some, ok_bind, htrim]
  have hdate : retryAfterHttpDateMs now raw ≠ .error .overflow := by
    refine bind_ne_overflow hsafe fun target _ ↦ ?_
    refine bind_ne_overflow (ofOption_ne_overflow _) fun seconds _ ↦ ?_
    dsimp only
    split_ifs
    · exact nofun
    · exact nofun
  dsimp only
  cases (parseU64 raw).bind checkedMillis with
  | some ms => exact nofun
  | none => exact hdate

section Fixdate

theorem numeral_padded {width n : Nat} (hwidth : 0 < width) (h : n < 10 ^ width) :
    numeral (Digits.padded width n) = some n := by
  have hdigits : ∀ c ∈ Digits.padded width n, c.isDigit := fun c hc ↦
    Digits.isDigit_of_mem_padded hc
  have hne : Digits.padded width n ≠ [] := by
    rw [← List.length_pos_iff, Digits.length_padded hwidth h]
    exact hwidth
  have hplus : (Digits.padded width n).head? ≠ some '+' := fun hplus ↦ by
    exact absurd (hdigits _ (List.mem_of_head? hplus)) (by decide)
  rw [numeral, if_neg hplus, parseDigits, if_pos ⟨hne, List.all_eq_true.mpr hdigits⟩]
  exact congrArg some (Digits.ofDigitChars_padded width n)

theorem signedNumeral_padded {width n : Nat} (hwidth : 0 < width) (h : n < 10 ^ width) :
    signedNumeral (Digits.padded width n) = some (n : Int) := by
  have hminus : (Digits.padded width n).head? ≠ some '-' := fun hminus ↦ by
    exact absurd (Digits.isDigit_of_mem_padded (List.mem_of_head? hminus)) (by decide)
  rw [signedNumeral, if_neg hminus, numeral_padded hwidth h]
  rfl

theorem isAsciiWhitespace_of_isDigit {c : Char} (h : c.isDigit) : isAsciiWhitespace c = false := by
  rw [← Bool.not_eq_true]
  intro hblank
  simp only [isAsciiWhitespace, Bool.or_eq_true, decide_eq_true_eq, or_assoc] at hblank
  rcases hblank with rfl | rfl | rfl | rfl | rfl <;> exact absurd h (by decide)

/-- The time of a fixdate. -/
def timeText (hour minute second : Nat) : Text :=
  Digits.padded 2 hour ++ ':' :: (Digits.padded 2 minute ++ ':' :: Digits.padded 2 second)

theorem timeFields_timeText {hour minute second : Nat} (hhour : hour < 100)
    (hminute : minute < 100) (hsecond : second < 100) :
    timeFields (timeText hour minute second) = some (hour, minute, second) := by
  have hplain : ∀ n, ∀ c ∈ Digits.padded 2 n, (decide (c = ':')) = false := fun n c hc ↦ by
    rw [decide_eq_false_iff_not]
    rintro rfl
    exact absurd (Digits.isDigit_of_mem_padded hc) (by decide)
  have hsplit : split ':' (timeText hour minute second) =
      [Digits.padded 2 hour, Digits.padded 2 minute, Digits.padded 2 second] := by
    rw [split, timeText, splitFrom_append (hplain hour) (by decide),
      splitFrom_append (hplain minute) (by decide), splitFrom_plain (hplain second)]
    rfl
  rw [timeFields, hsplit]
  simp only [numeral_padded (by decide : 0 < 2) hhour, numeral_padded (by decide : 0 < 2) hminute,
    numeral_padded (by decide : 0 < 2) hsecond]
  rfl

/-- A part in front of a blank. -/
theorem tokens_cons {part : Text} (hne : part ≠ [])
    (hplain : ∀ c ∈ part, isAsciiWhitespace c = false) (rest : Text) :
    splitAsciiWhitespace (part ++ ' ' :: rest) = part :: splitAsciiWhitespace rest := by
  rw [splitAsciiWhitespace, splitFrom_append hplain (by decide), List.nil_append,
    List.filter_cons_of_pos (by simpa using hne), splitAsciiWhitespace]

theorem tokens_padded {width n : Nat} (hwidth : 0 < width) (h : n < 10 ^ width) (rest : Text) :
    splitAsciiWhitespace (Digits.padded width n ++ ' ' :: rest) =
      Digits.padded width n :: splitAsciiWhitespace rest := by
  refine tokens_cons ?_ (fun c hc ↦ isAsciiWhitespace_of_isDigit (Digits.isDigit_of_mem_padded hc))
    rest
  rw [← List.length_pos_iff, Digits.length_padded hwidth h]
  exact hwidth

theorem afterComma_append {dayName : Text} (h : ',' ∉ dayName) (rest : Text) :
    afterComma (dayName ++ ',' :: ' ' :: rest) = some rest := by
  induction dayName with
  | nil => rfl
  | cons c dayName ih =>
      rw [List.cons_append, afterComma]
      · exact ih fun hmem ↦ h (List.mem_cons_of_mem c hmem)
      · rintro s rfl -
        exact h List.mem_cons_self

theorem monthNames_spec {month : Nat} (hlow : 1 ≤ month) (hhigh : month ≤ 12) :
    monthNames.getD (month - 1) [] ≠ [] ∧
    (monthNames.getD (month - 1) []).all (fun c ↦ !isAsciiWhitespace c) ∧
    parseHttpMonth (monthNames.getD (month - 1) []) = some month := by
  interval_cases month <;> decide +kernel

theorem fields_imfFixdate {dayName : Text} (hname : dayName ∈ dayNames)
    {year month day hour minute second : Nat} (hyear : year < 10000)
    (h : (Fields.unixSecond ⟨year, month, day, hour, minute, second⟩).isSome) :
    fields .imfFixdate (imfFixdate dayName year month day hour minute second) =
      some ⟨year, month, day, hour, minute, second⟩ := by
  obtain ⟨t, h⟩ := Option.isSome_iff_exists.mp h
  obtain ⟨hday, hhour, hminute, hsecond⟩ := unixSecond_bounds h
  have hmonth : 1 ≤ month ∧ month ≤ 12 := by
    obtain ⟨date, hdate, -⟩ := Option.bind_eq_some_iff.mp h
    obtain ⟨-, hmonth, -⟩ := of?_eq_some hdate
    rw [← show date.month = month from hmonth]
    exact ⟨date.one_le_month, date.month_le⟩
  obtain ⟨hmonthNe, hmonthPlain, hmonthName⟩ := monthNames_spec hmonth.1 hmonth.2
  have hcomma : ',' ∉ dayName := by
    have hall : ∀ name ∈ dayNames, ',' ∉ name := by decide +kernel
    exact hall dayName hname
  dsimp only at hday hhour hminute hsecond
  have htext : imfFixdate dayName year month day hour minute second =
      dayName ++ ',' :: ' ' :: (Digits.padded 2 day ++ ' ' ::
        (monthNames.getD (month - 1) [] ++ ' ' :: (Digits.padded 4 year ++ ' ' ::
          (timeText hour minute second ++ ' ' :: "GMT".toList)))) := by
    simp only [imfFixdate, timeText, List.append_assoc, List.cons_append]
    rfl
  have htime : ∀ c ∈ timeText hour minute second, isAsciiWhitespace c = false := by
    intro c hc
    simp only [timeText, List.mem_append, List.mem_cons] at hc
    rcases hc with hc | rfl | hc | rfl | hc
    · exact isAsciiWhitespace_of_isDigit (Digits.isDigit_of_mem_padded hc)
    · decide
    · exact isAsciiWhitespace_of_isDigit (Digits.isDigit_of_mem_padded hc)
    · decide
    · exact isAsciiWhitespace_of_isDigit (Digits.isDigit_of_mem_padded hc)
  have htimeNe : timeText hour minute second ≠ [] := List.append_ne_nil_of_right_ne_nil _
    (List.cons_ne_nil _ _)
  have htokens : splitAsciiWhitespace (Digits.padded 2 day ++ ' ' ::
        (monthNames.getD (month - 1) [] ++ ' ' :: (Digits.padded 4 year ++ ' ' ::
          (timeText hour minute second ++ ' ' :: "GMT".toList)))) =
      [Digits.padded 2 day, monthNames.getD (month - 1) [], Digits.padded 4 year,
        timeText hour minute second, "GMT".toList] := by
    rw [tokens_padded (by decide) (by omega), tokens_cons hmonthNe (fun c hc ↦ by
      simpa using List.all_eq_true.mp hmonthPlain c hc), tokens_padded (by decide) (by omega),
      tokens_cons htimeNe htime]
    rfl
  simp only [fields, htext, afterComma_append hcomma, htokens, Option.bind_eq_bind,
    Option.bind_some, numeral_padded (by decide : 0 < 2) (show day < 10 ^ 2 by omega), hmonthName,
    signedNumeral_padded (by decide : 0 < 4) (show year < 10 ^ 4 by omega),
    timeFields_timeText (show hour < 100 by omega) (show minute < 100 by omega)
      (show second < 100 by omega), if_pos]

end Fixdate

/-! ## Exactly when -/

/-- The dates are exact on the texts without a year of more than two digits that is
computed with. -/
theorem exact_iff_not_longYear (raw : Text) : Exact raw ↔ ¬ LongYear raw := by
  constructor
  · rintro hexact ⟨day, month, year, parts, hdate, hlong, hcase⟩
    have himf : parseImfFixdate raw = .error .refused := by
      cases himf : parseImfFixdate raw with
      | ok t =>
          obtain ⟨f, hf, -⟩ := parseImfFixdate_eq_ok.mp himf
          rw [fields_imfFixdate_of_rfc850Date hdate] at hf
          cases hf
      | error e =>
          cases e with
          | refused => rfl
          | overflow => exact absurd himf (parseImfFixdate_ne_overflow raw)
    rcases hcase with ⟨hday, hyear, hover⟩ | ⟨hfits, time, hour, minute, second, rfl, htime, hsome⟩
    · -- the sum overflows
      have hrfc : parseRfc850Date raw = .error .overflow := by
        refine parseRfc850Date_eq_overflow.mpr ⟨day, month, year, parts, hdate, hday, hyear, ?_⟩
        rw [computedYear_of_long hlong, FitsI32]
        omega
      refine hexact.safe ?_
      rw [parseHttpDateUnixSeconds, himf, hrfc]
      rfl
    · -- the date is taken for one of 1900 years later
      obtain ⟨t, hsecond⟩ := Option.isSome_iff_exists.mp hsome
      have hrfc : parseRfc850Date raw = .ok t := by
        refine parseRfc850Date_eq_ok.mpr
          ⟨day, month, year, time, hour, minute, second, hdate, htime, ?_, ?_⟩
        · rw [computedYear_of_long hlong, FitsI32]
          omega
        · rw [computedYear_of_long hlong]
          exact hsecond
      have hread : parseHttpDateUnixSeconds raw = .ok t := by
        rw [parseHttpDateUnixSeconds, himf, hrfc]
        rfl
      have hfields : fields .rfc850 raw = some ⟨year, month, day, hour, minute, second⟩ := by
        have hfull : fullYear year = year := by
          rw [fullYear, if_neg (by omega), if_neg (by omega)]
        simp only [fields, hdate, htime, Option.bind_eq_bind, Option.bind_some, if_pos, hfull]
      have hyear := year_unique hsecond ((hexact.denotes t hread).2 .rfc850 _ hfields)
      dsimp only at hyear
      omega
  · intro hshort
    have hsafe : parseHttpDateUnixSeconds raw ≠ .error .overflow := fun h ↦
      hshort (longYear_of_overflow h)
    have hdenotes : ∀ t, parseHttpDateUnixSeconds raw = .ok t →
        (∃ format f, fields format raw = some f) ∧
          ∀ format f, fields format raw = some f → f.unixSecond = some t := by
      intro t ht
      obtain ⟨format, f, hf, hsecond⟩ := fields_of_eq_ok hshort ht
      exact ⟨⟨format, f, hf⟩, fun format' f' hf' ↦ fields_unique hf hf' ▸ hsecond⟩
    refine ⟨hsafe, fun now headers value ↦ retryAfterMs_ne_overflow hsafe, hdenotes, ?_, ?_⟩
    · rintro dayName hname year month day hour minute second hyear hvalid rfl
      obtain ⟨t, hsecond⟩ := Option.isSome_iff_exists.mp hvalid
      refine ⟨t, ?_⟩
      have himf := parseImfFixdate_eq_ok.mpr ⟨_, fields_imfFixdate hname hyear hvalid,
        (by unfold FitsI32; dsimp only; omega), hsecond⟩
      rw [parseHttpDateUnixSeconds, himf]
      rfl
    · intro format f hf hnone
      cases hread : parseHttpDateUnixSeconds raw with
      | ok t =>
          rw [(hdenotes t hread).2 format f hf] at hnone
          cases hnone
      | error e =>
          cases e with
          | refused => rfl
          | overflow => exact absurd hread hsafe

/-- Days are counted by the proleptic Gregorian calendar for every year, and the
dates are exact on the texts without such a year. -/
theorem httpDates_exact (raw : Text) :
    (∀ date : Calendar.Date, FitsI32 date.year →
      daysFromCivil date.year date.month date.day = .ok date.dayNumber) ∧
    (Exact raw ↔ ¬ LongYear raw) :=
  ⟨daysFromCivil_eq, exact_iff_not_longYear raw⟩

/-- A year of ten digits overflows, and one of four digits is taken for one of
1900 years later. -/
theorem not_exact_long_years :
    retryAfterMs (some 0)
      [("Retry-After".toList, "Sun, 01-Jan-2147483647 00:00:00 GMT".toList)] = .error .overflow ∧
    ¬ Exact "Sun, 01-Jan-2147483647 00:00:00 GMT".toList ∧
    parseHttpDateUnixSeconds "Sun, 06-Nov-1994 08:49:37 GMT".toList =
      ofOption (Fields.unixSecond ⟨3894, 11, 6, 8, 49, 37⟩) := by
  have hover : parseHttpDateUnixSeconds "Sun, 01-Jan-2147483647 00:00:00 GMT".toList =
      .error .overflow := by decide +kernel
  exact ⟨by decide +kernel, fun h ↦ h.safe hover, by decide +kernel⟩

end FrankenSnowflake.HttpDate
