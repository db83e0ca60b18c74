import FrankenSnowflake.Foundation.Unicode

/-!
# The Retry-After header

A delay in seconds, or one of the three forms of an HTTP date.  Numbers are
parsed as the types of the source parse them: a plus sign is allowed, and what
does not fit is refused.
-/

namespace FrankenSnowflake.Http

open Foundation

abbrev Text := List Char

def u64Max : Nat := 2 ^ 64 - 1

/-! ## Numbers -/

/-- The value of decimal digits. -/
def digitsValue (s : Text) : Nat := s.foldl (fun n c ↦ 10 * n + (c.toNat - '0'.toNat)) 0

def parseDigits (s : Text) : Option Nat :=
  if s ≠ [] ∧ s.all Char.isDigit then some (digitsValue s) else none

/-- An unsigned integer of a type whose greatest value is `max`. -/
def parseUnsigned (max : Nat) (s : Text) : Option Nat :=
  (parseDigits (if s.head? = some '+' then s.tail else s)).filter (· ≤ max)

def parseU32 : Text → Option Nat := parseUnsigned (2 ^ 32 - 1)

def parseU64 : Text → Option Nat := parseUnsigned u64Max

def parseI32 (s : Text) : Option Int :=
  if s.head? = some '-' then ((parseDigits s.tail).filter (· ≤ 2 ^ 31)).map fun n ↦ -(n : Int)
  else (parseUnsigned (2 ^ 31 - 1) s).map Int.ofNat

/-! ## Texts -/

/-- What follows the first `, `. -/
def afterComma : Text → Option Text
  | ',' :: ' ' :: s => some s
  | _ :: s => afterComma s
  | [] => none

def isAsciiWhitespace (c : Char) : Bool :=
  c = ' ' || c = '\t' || c = '\n' || c = '\x0c' || c = '\r'

/-- `str::split`: the parts between separators, of which `part` was read. -/
def splitFrom (isSeparator : Char → Bool) (part : Text) : Text → List Text
  | [] => [part]
  | c :: s =>
      if isSeparator c then part :: splitFrom isSeparator [] s
      else splitFrom isSeparator (part ++ [c]) s

def split (separator : Char) (s : Text) : List Text := splitFrom (· = separator) [] s

def splitAsciiWhitespace (s : Text) : List Text :=
  (splitFrom isAsciiWhitespace [] s).filter (· ≠ [])

/-! ## Dates -/

def parseHttpMonth (month : Text) : Option Nat :=
  if month = "Jan".toList then some 1
  else if month = "Feb".toList then some 2
  else if month = "Mar".toList then some 3
  else if month = "Apr".toList then some 4
  else if month = "May".toList then some 5
  else if month = "Jun".toList then some 6
  else if month = "Jul".toList then some 7
  else if month = "Aug".toList then some 8
  else if month = "Sep".toList then some 9
  else if month = "Oct".toList then some 10
  else if month = "Nov".toList then some 11
  else if month = "Dec".toList then some 12
  else none

def parseHttpTime (time : Text) : Option (Nat × Nat × Nat) :=
  match split ':' time with
  | [hour, minute, second] => do
      let hour ← parseU32 hour
      let minute ← parseU32 minute
      let second ← parseU32 second
      if hour > 23 ∨ minute > 59 ∨ second > 60 then none else some (hour, minute, second)
  | _ => none

def isLeapYear (year : Int) : Bool :=
  (year % 4 = 0 && year % 100 ≠ 0) || year % 400 = 0

def daysInMonth (year : Int) (month : Nat) : Nat :=
  if month ∈ [1, 3, 5, 7, 8, 10, 12] then 31
  else if month ∈ [4, 6, 9, 11] then 30
  else if month = 2 then if isLeapYear year then 29 else 28
  else 0

def daysFromCivil (year : Int) (month day : Nat) : Int :=
  let year := year - if month ≤ 2 then 1 else 0
  let era := (if 0 ≤ year then year else year - 399).tdiv 400
  let yearOfEra := year - era * 400
  let monthPrime : Int := month + if 2 < month then -3 else 9
  let dayOfYear := (153 * monthPrime + 2) / 5 + day - 1
  let dayOfEra := yearOfEra * 365 + yearOfEra / 4 - yearOfEra / 100 + dayOfYear
  era * 146097 + dayOfEra - 719468

/-- Seconds since the epoch; for the years of an `i32` they fit into an `i64`. -/
def unixSecondsUtc (year : Int) (month day hour minute second : Nat) : Option Int :=
  if ¬ (1 ≤ month ∧ month ≤ 12) ∨ day = 0 ∨ day > daysInMonth year month ∨ hour > 23 ∨
      minute > 59 ∨ second > 60 then none
  else
    let second := min second 59
    some (daysFromCivil year month day * 86400 + (hour * 3600 + minute * 60 + second : Nat))

def parseImfFixdate (raw : Text) : Option Int := do
  match splitAsciiWhitespace (← afterComma raw) with
  | [day, month, year, time, zone] =>
      let day ← parseU32 day
      let month ← parseHttpMonth month
      let year ← parseI32 year
      let (hour, minute, second) ← parseHttpTime time
      if zone ≠ "GMT".toList then none else unixSecondsUtc year month day hour minute second
  | _ => none

def parseRfc850Date (raw : Text) : Option Int := do
  match splitAsciiWhitespace (← afterComma raw) with
  | [date, time, zone] =>
      match split '-' date with
      | [day, month, year] =>
          let day ← parseU32 day
          let month ← parseHttpMonth month
          let yearTwoDigits ← parseU32 year
          if 2 ^ 31 ≤ yearTwoDigits then none
          else
            -- the sum wraps as an `i32`
            let year := Int.bmod
              (if 70 ≤ yearTwoDigits then 1900 + yearTwoDigits else 2000 + yearTwoDigits) (2 ^ 32)
            let (hour, minute, second) ← parseHttpTime time
            if zone ≠ "GMT".toList then none else unixSecondsUtc year month day hour minute second
      | _ => none
  | _ => none

def parseAsctimeDate (raw : Text) : Option Int :=
  match splitAsciiWhitespace raw with
  | [_, month, day, time, year] => do
      let month ← parseHttpMonth month
      let day ← parseU32 day
      let (hour, minute, second) ← parseHttpTime time
      let year ← parseI32 year
      unixSecondsUtc year month day hour minute second
  | _ => none

def parseHttpDateUnixSeconds (raw : Text) : Option Int :=
  (parseImfFixdate raw).or ((parseRfc850Date raw).or (parseAsctimeDate raw))

/-- The delay until a date; `now` is the time since the epoch, if the clock is
not before it. -/
def retryAfterHttpDateMs (now : Option Nat) (raw : Text) : Option Nat := do
  let targetSeconds ← parseHttpDateUnixSeconds raw
  let nowUnixSeconds ← now
  let deltaSeconds := targetSeconds - nowUnixSeconds
  if deltaSeconds ≤ 0 then some 0 else some (min (deltaSeconds.toNat * 1000) u64Max)

/-! ## The header -/

/-- `str::eq_ignore_ascii_case`. -/
def eqIgnoreAsciiCase (a b : Text) : Bool := a.map Char.toLower = b.map Char.toLower

def responseHeader (headers : List (Text × Text)) (name : Text) : Option Text :=
  (headers.find? fun h ↦ eqIgnoreAsciiCase h.1 name).map Prod.snd

/-- `u64::checked_mul` by a thousand. -/
def checkedMillis (seconds : Nat) : Option Nat :=
  if seconds * 1000 ≤ u64Max then some (seconds * 1000) else none

def retryAfterMs (now : Option Nat) (headers : List (Text × Text)) : Option Nat := do
  let raw := Unicode.trim (← responseHeader headers "Retry-After".toList)
  ((parseU64 raw).bind checkedMillis).or (retryAfterHttpDateMs now raw)

/-! ## Seconds -/

/-- A Retry-After of `n` seconds: decimal digits, with blanks around them. -/
def CarriesRetryAfter (headers : List (Text × Text)) (n : Nat) : Prop :=
  ∃ value, responseHeader headers "Retry-After".toList = some value ∧
    parseDigits (Unicode.trim value) = some n

theorem parseDigits_eq_some {s : Text} {n : Nat} (h : parseDigits s = some n) :
    s ≠ [] ∧ (∀ c ∈ s, c.isDigit = true) ∧ digitsValue s = n := by
  unfold parseDigits at h
  split_ifs at h with hs
  exact ⟨hs.1, List.all_eq_true.mp hs.2, Option.some.inj h⟩

theorem parseUnsigned_of_parseDigits {s : Text} {n : Nat} (h : parseDigits s = some n) (max : Nat) :
    parseUnsigned max s = if n ≤ max then some n else none := by
  have hhead : s.head? ≠ some '+' := by
    intro hplus
    have hdigit := (parseDigits_eq_some h).2.1 '+' (List.mem_of_head? hplus)
    exact absurd hdigit (by decide)
  rw [parseUnsigned, if_neg hhead, h, Option.filter_some]
  simp only [decide_eq_true_eq]

section Digits

variable {s : Text} (hs : ∀ c ∈ s, c.isDigit = true)
include hs

theorem afterComma_digits : afterComma s = none := by
  induction s with
  | nil => rfl
  | cons c s ih =>
      obtain ⟨hc, hs⟩ := List.forall_mem_cons.mp hs
      have hcomma : c ≠ ',' := by
        rintro rfl
        exact absurd hc (by decide)
      unfold afterComma
      split
      · rename_i heq
        exact absurd (List.cons.inj heq).1 hcomma
      · rename_i heq
        rw [← (List.cons.inj heq).2]
        exact ih hs
      · rfl

theorem splitFrom_digits {isSeparator : Char → Bool} (hsep : ∀ c, isSeparator c = true → c.isDigit = false)
    (part : Text) : splitFrom isSeparator part s = [part ++ s] := by
  induction s generalizing part with
  | nil => rw [splitFrom, List.append_nil]
  | cons c s ih =>
      obtain ⟨hc, hs⟩ := List.forall_mem_cons.mp hs
      have hplain : isSeparator c ≠ true := by
        intro hc'
        rw [hsep c hc'] at hc
        cases hc
      rw [splitFrom, if_neg hplain, ih hs, List.append_assoc, List.singleton_append]

/-- Digits are no date. -/
theorem parseHttpDateUnixSeconds_digits : parseHttpDateUnixSeconds s = none := by
  have hwhitespace : ∀ c, isAsciiWhitespace c = true → c.isDigit = false := by
    intro c hc
    simp only [isAsciiWhitespace, Bool.or_eq_true, decide_eq_true_eq, or_assoc] at hc
    rcases hc with rfl | rfl | rfl | rfl | rfl <;> rfl
  have hasctime : parseAsctimeDate s = none := by
    unfold parseAsctimeDate splitAsciiWhitespace
    rw [splitFrom_digits hs hwhitespace, List.nil_append]
    by_cases hempty : s = []
    · subst hempty
      rfl
    · simp [hempty]
  rw [parseHttpDateUnixSeconds, parseImfFixdate, parseRfc850Date, afterComma_digits hs, hasctime]
  rfl

end Digits

/-- What is read from a Retry-After of `n` seconds. -/
theorem retryAfterMs_of_carries {headers : List (Text × Text)} {n : Nat}
    (h : CarriesRetryAfter headers n) (now : Option Nat) :
    retryAfterMs now headers = if n * 1000 ≤ u64Max then some (n * 1000) else none := by
  obtain ⟨value, hvalue, hdigits⟩ := h
  have hdate : retryAfterHttpDateMs now (Unicode.trim value) = none := by
    rw [retryAfterHttpDateMs, parseHttpDateUnixSeconds_digits (parseDigits_eq_some hdigits).2.1]
    rfl
  have hparse := parseUnsigned_of_parseDigits hdigits u64Max
  unfold retryAfterMs
  rw [hvalue]
  show ((parseU64 (Unicode.trim value)).bind checkedMillis).or
    (retryAfterHttpDateMs now (Unicode.trim value)) = _
  rw [hdate, Option.or_none, parseU64, hparse]
  by_cases hn : n * 1000 ≤ u64Max
  · rw [if_pos (by omega), Option.bind_some, checkedMillis]
  · rw [if_neg hn]
    split_ifs
    · rw [Option.bind_some, checkedMillis, if_neg hn]
    · rfl

end FrankenSnowflake.Http
