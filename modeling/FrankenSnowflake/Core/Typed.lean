import FrankenSnowflake.Foundation.Calendar
import FrankenSnowflake.Foundation.Digits
import FrankenSnowflake.Foundation.Fallible
import FrankenSnowflake.Foundation.JsonValue
import FrankenSnowflake.Foundation.Unicode

/-!
# Typed cells

The SQL API returns every cell as a text whose meaning depends on its column.
The arithmetic of dates and times is done on integers of 128 bits; a result
that does not fit is a fault of its own.
-/

namespace FrankenSnowflake.Typed

open Foundation Foundation.Digits

abbrev Text : Type := List Char

/-! ## Columns -/

/-- The type family that a `rowType.type` names. -/
inductive LogicalType where
  | fixed
  | real
  | decfloat
  | text
  | binary
  | boolean
  | date
  | time
  | timestampNtz
  | timestampLtz
  | timestampTz
  | variant
  | object
  | array
  | other
deriving DecidableEq, Repr

/-- Classify a `rowType.type`; a parameter list such as `NUMBER(38,0)` is ignored. -/
def LogicalType.fromRowType (typeName : Text) : LogicalType :=
  let base := (Unicode.trim (typeName.takeWhile (· ≠ '('))).map Char.toLower
  match String.ofList base with
  | "fixed" | "number" | "decimal" | "numeric" | "int" | "integer" | "bigint" | "smallint"
  | "tinyint" | "byteint" => .fixed
  | "real" | "float" | "float4" | "float8" | "double" | "double precision" => .real
  | "decfloat" => .decfloat
  | "text" | "varchar" | "string" | "char" | "character" => .text
  | "binary" | "varbinary" => .binary
  | "boolean" => .boolean
  | "date" => .date
  | "time" => .time
  | "timestamp_ntz" | "datetime" => .timestampNtz
  | "timestamp_ltz" => .timestampLtz
  | "timestamp_tz" => .timestampTz
  | "variant" => .variant
  | "object" => .object
  | "array" => .array
  | _ => .other

/-- How the cells of a column are represented. -/
inductive JsonRepr where
  | integer
  | decimalString
  | float
  | bool
  | string
  | hex
  | date
  | time
  | timestampNtz
  | timestampUtc
  | timestampOffset
  | json
  | wire
deriving DecidableEq, Repr

/-- The decoder for one result column. -/
structure ColumnCodec where
  logical : LogicalType
  precision : Option Int
  scale : Option Int
deriving DecidableEq, Repr

def maxExactIntegerPrecision : Int := 15

def nanosPerSecond : Int := 1000000000

def secondsPerDay : Int := 86400

def ColumnCodec.new (typeName : Text) (precision scale : Option Int) : ColumnCodec :=
  ⟨.fromRowType typeName, precision, scale⟩

/-- The representation every cell of the column gets. -/
def ColumnCodec.jsonRepr (codec : ColumnCodec) : JsonRepr :=
  match codec.logical with
  | .fixed =>
      if codec.scale.getD 0 = 0 ∧ codec.precision.any (· ≤ maxExactIntegerPrecision) then .integer
      else .decimalString
  | .decfloat => .decimalString
  | .real => .float
  | .boolean => .bool
  | .text => .string
  | .binary => .hex
  | .date => .date
  | .time => .time
  | .timestampNtz => .timestampNtz
  | .timestampLtz => .timestampUtc
  | .timestampTz => .timestampOffset
  | .variant | .object | .array => .json
  | .other => .wire

/-! ## Arithmetic -/

/-- Why a cell has no value: an operation left the range of its type, or the text
is none of the column's. -/
inductive DecodeFault where
  | overflow
  | cell (reason : String)
deriving DecidableEq, Repr

abbrev Decode (α : Type) : Type := Except DecodeFault α

/-- The result of an operation on `i128`. -/
def i128 (n : Int) : Decode Int := if Fits 128 n then .ok n else .error .overflow

def add (a b : Int) : Decode Int := i128 (a + b)

def sub (a b : Int) : Decode Int := i128 (a - b)

def mul (a b : Int) : Decode Int := i128 (a * b)

def neg (a : Int) : Decode Int := i128 (-a)

def abs (a : Int) : Decode Int := i128 |a|

/-- `checked_add` and `checked_mul`. -/
def checked (n : Int) : Option Int := if Fits 128 n then some n else none

/-! ## Dates and times -/

/-- `{:0width}`: zeros come behind the sign, which counts. -/
def printInt (width : Nat) (n : Int) : Text :=
  if n < 0 then '-' :: padded (width - 1) n.natAbs else padded width n.natAbs

/-- `"YYYY-MM-DD"` for days since 1970-01-01. -/
def formatDate (days : Int) : Decode Text := do
  let z ← add days 719468
  let era := z / 146097
  let doe := z % 146097
  let whole ← sub (← add (← sub doe (doe.tdiv 1460)) (doe.tdiv 36524)) (doe.tdiv 146096)
  let yoe := whole.tdiv 365
  let doy ← sub doe (← sub (← add (← mul 365 yoe) (yoe.tdiv 4)) (yoe.tdiv 100))
  let mp := (← add (← mul 5 doy) 2).tdiv 153
  let day ← add (← sub doy ((← add (← mul 153 mp) 2).tdiv 5)) 1
  let month ← (if mp < 10 then add mp 3 else sub mp 9)
  let year ← add (← add yoe (← mul era 400)) (if month ≤ 2 then 1 else 0)
  if year < 0 then
    let magnitude ← neg year
    return '-' :: printInt 4 magnitude ++ '-' :: printInt 2 month ++ '-' :: printInt 2 day
  else return printInt 4 year ++ '-' :: printInt 2 month ++ '-' :: printInt 2 day

/-- `"HH:MM:SS.fffffffff"` for nanoseconds since midnight. -/
def formatTimeOfDay (nanos : Int) : Text :=
  let seconds := nanos.tdiv nanosPerSecond
  let fraction := nanos.tmod nanosPerSecond
  printInt 2 (seconds.tdiv 3600) ++ ':' :: printInt 2 ((seconds.tdiv 60).tmod 60) ++
    ':' :: printInt 2 (seconds.tmod 60) ++ '.' :: printInt 9 fraction

/-- `"YYYY-MM-DDTHH:MM:SS.fffffffff"` for nanoseconds since the epoch. -/
def formatTimestamp (nanos : Int) : Decode Text := do
  let dayNanos ← mul secondsPerDay nanosPerSecond
  let date ← formatDate (nanos / dayNanos)
  return date ++ 'T' :: formatTimeOfDay (nanos % dayNanos)

/-- `str::split_once`. -/
def splitOnce (c : Char) (s : Text) : Option (Text × Text) :=
  match s.dropWhile (· ≠ c) with
  | [] => none
  | _ :: rest => some (s.takeWhile (· ≠ c), rest)

/-- The loop over the digits of a fraction. -/
def fractionNanos : Nat → Int → Text → Decode Int
  | _, nanos, [] => .ok nanos
  | index, nanos, c :: rest => do
      -- `8 - index` on `usize`
      if 8 < index then .error .overflow
      let nanos ← add nanos (← mul (c.toNat - '0'.toNat : Nat) (10 ^ (8 - index)))
      fractionNanos (index + 1) nanos rest

/-- `"<seconds>[.<fraction>]"` as nanoseconds; at most nine fraction digits. -/
def parseUnsignedNanos (unsigned : Text) : Decode Int :=
  let bad : DecodeFault := .cell "not fractional seconds"
  let (whole, fraction) := (splitOnce '.' unsigned).getD (unsigned, [])
  if whole.isEmpty ∨ ¬ whole.all Char.isDigit ∨ 9 < fraction.length ∨ ¬ fraction.all Char.isDigit then
    .error bad
  else
    match parseSigned 128 whole with
    | none => .error bad
    | some seconds => do
        let nanos ← fractionNanos 0 0 fraction
        match (checked (seconds * nanosPerSecond)).bind fun value ↦ checked (value + nanos) with
        | none => .error bad
        | some total => .ok total

/-- The same, optionally negative. -/
def parseEpochNanos : Text → Decode Int
  | '-' :: unsigned => do
      let total ← parseUnsignedNanos unsigned
      neg total
  | unsigned => parseUnsignedNanos unsigned

def decodeTimestampTz (wire : Text) : Decode JsonValue :=
  match splitOnce ' ' wire with
  | none => .error (.cell "TIMESTAMP_TZ without an offset")
  | some (instant, offset) =>
      match parseSigned 128 (Unicode.trim offset) with
      | none => .error (.cell "not an offset")
      | some rawOffset =>
          if ¬ (0 ≤ rawOffset ∧ rawOffset ≤ 2880) then .error (.cell "offset out of range")
          else do
            let offsetMinutes ← sub rawOffset 1440
            let wall ← add (← parseEpochNanos instant)
              (← mul (← mul offsetMinutes 60) nanosPerSecond)
            let sign := if offsetMinutes < 0 then '-' else '+'
            let magnitude ← abs offsetMinutes
            let text ← formatTimestamp wall
            return .string (text ++ sign :: printInt 2 (magnitude.tdiv 60) ++
              ':' :: printInt 2 (magnitude.tmod 60))

/-! ## Numbers in texts -/

/-- What reads and prints the floats and the JSON of a cell. -/
structure JsonLibrary where
  /-- `str::parse::<f64>`, as bits. -/
  parseF64 : Text → Option UInt64
  /-- `serde_json::from_str`. -/
  fromStr : Text → Option JsonValue
  /-- `Number::to_string`. -/
  numberText : JsonNumber → Text
  /-- `Number::as_f64`, as bits. -/
  asF64 : JsonNumber → Option UInt64

/-- `f64::is_finite`. -/
def isFinite (bits : UInt64) : Bool := (bits >>> 52) &&& 0x7ff ≠ 0x7ff

/-- `Number::from_f64`. -/
def numberFromF64 (bits : UInt64) : Option JsonNumber :=
  if isFinite bits then some (.float bits) else none

/-- `Value::from` of an `i64`. -/
def numberFromI64 (n : Int) : JsonNumber :=
  if n < 0 then .negInt (Int64.ofInt n) else .posInt (UInt64.ofNat n.toNat)

/-- `Number::as_i64`. -/
def asI64 : JsonNumber → Option Int
  | .posInt n => if n.toNat < 2 ^ 63 then some n.toNat else none
  | .negInt n => some n.toInt
  | .float _ => none

def isHexDigit (c : Char) : Bool :=
  c.isDigit || ('a' ≤ c && c ≤ 'f') || ('A' ≤ c && c ≤ 'F')

/-- `[-+]digits[.digits]`, and an exponent where it is allowed. -/
def isDecimal (text : Text) (allowExponent : Bool) : Bool :=
  let stripSign (s : Text) : Text := if s.head? = some '-' ∨ s.head? = some '+' then s.tail else s
  let digits (s : Text) : Bool := !s.isEmpty && s.all Char.isDigit
  let unsigned := stripSign text
  let mantissa := unsigned.takeWhile fun c ↦ c ≠ 'e' && c ≠ 'E'
  let exponent := (unsigned.dropWhile fun c ↦ c ≠ 'e' && c ≠ 'E').tail?
  let mantissaOk :=
    match splitOnce '.' mantissa with
    | some (whole, fraction) => digits whole && digits fraction
    | none => digits mantissa
  let exponentOk :=
    match exponent with
    | none => true
    | some exponent => allowExponent && digits (stripSign exponent)
  mantissaOk && exponentOk

section Library

variable (L : JsonLibrary)

def canonicalNumber (number : JsonNumber) : JsonValue :=
  let integer := (L.numberText number).all fun c ↦ c.isDigit || c = '-'
  match if integer then asI64 number else none with
  | some value => .number (numberFromI64 value)
  | none =>
      match (L.asF64 number).bind numberFromF64 with
      | some float => .number float
      | none => .number number

mutual

/-- Rebuild every number as the integer or float that the exactness check admitted. -/
def canonicalNumbers : JsonValue → JsonValue
  | .number number => canonicalNumber L number
  | .array items => .array (canonicalItems items)
  | .object entries => .object (canonicalEntries entries)
  | .null => .null
  | .bool b => .bool b
  | .string s => .string s

def canonicalItems : List JsonValue → List JsonValue
  | [] => []
  | item :: items => canonicalNumbers item :: canonicalItems items

def canonicalEntries : List (Text × JsonValue) → List (Text × JsonValue)
  | [] => []
  | (key, value) :: entries => (key, canonicalNumbers value) :: canonicalEntries entries

end

def numberIsExact (token : Text) : Bool :=
  if token.all fun c ↦ c.isDigit || c = '-' then (parseSigned 64 token).isSome
  else
    let mantissa := token.takeWhile fun c ↦ c ≠ 'e' && c ≠ 'E'
    let significant := ((mantissa.filter Char.isDigit).dropWhile (· = '0')).length
    significant ≤ 15 && (L.parseF64 token).any isFinite

def isNumberChar (c : Char) : Bool :=
  c.isDigit || c = '-' || c = '+' || c = '.' || c = 'e' || c = 'E'

/-- The scan for number literals outside strings; `fuel` is the length of what is
left. -/
def jsonNumbersAreExactFrom : Nat → Bool → Text → Bool
  | 0, _, _ | _, _, [] => true
  | fuel + 1, true, c :: rest =>
      if c = '\\' then jsonNumbersAreExactFrom fuel true rest.tail
      else jsonNumbersAreExactFrom fuel (c ≠ '"') rest
  | fuel + 1, false, c :: rest =>
      if c = '"' then jsonNumbersAreExactFrom fuel true rest
      else if c = '-' ∨ c.isDigit then
        numberIsExact L ((c :: rest).takeWhile isNumberChar) &&
          jsonNumbersAreExactFrom fuel false ((c :: rest).dropWhile isNumberChar)
      else jsonNumbersAreExactFrom fuel false rest

/-- Whether every number literal of a JSON text survives as a JSON number. -/
def jsonNumbersAreExact (text : Text) : Bool := jsonNumbersAreExactFrom L text.length false text

def decodeFloat (wire : Text) : Decode JsonValue :=
  match String.ofList (wire.map Char.toLower) with
  | "nan" => .ok (.string "NaN".toList)
  | "inf" | "+inf" | "infinity" => .ok (.string "Infinity".toList)
  | "-inf" | "-infinity" => .ok (.string "-Infinity".toList)
  | _ =>
      match L.parseF64 wire with
      | none => .error (.cell "not a float")
      | some bits =>
          match numberFromF64 bits with
          | none => .error (.cell "not a finite float")
          | some number => .ok (.number number)

/-- Decode one wire cell; no text is SQL NULL. -/
def ColumnCodec.decode (codec : ColumnCodec) (wire : Option Text) : Decode JsonValue :=
  match wire with
  | none => .ok .null
  | some wire =>
      match codec.jsonRepr with
      | .integer =>
          match parseSigned 64 wire with
          | some n => .ok (.number (numberFromI64 n))
          | none => .error (.cell "not an integer")
      | .decimalString =>
          if isDecimal wire (codec.logical = .decfloat) then .ok (.string wire)
          else .error (.cell "not a decimal")
      | .float => decodeFloat L wire
      | .bool =>
          match String.ofList (wire.map Char.toLower) with
          | "true" | "1" => .ok (.bool true)
          | "false" | "0" => .ok (.bool false)
          | _ => .error (.cell "not a boolean")
      | .string | .wire => .ok (.string wire)
      | .hex =>
          if wire.length % 2 = 0 ∧ wire.all isHexDigit then .ok (.string wire)
          else .error (.cell "not hex")
      | .date =>
          match parseSigned 64 wire with
          | none => .error (.cell "not a day count")
          | some days => do
              let date ← formatDate days
              return .string date
      | .time => do
          let nanos ← parseEpochNanos wire
          let dayNanos ← mul secondsPerDay nanosPerSecond
          if ¬ (0 ≤ nanos ∧ nanos < dayNanos) then .error (.cell "time of day out of range")
          else return .string (formatTimeOfDay nanos)
      | .timestampNtz => do
          let text ← formatTimestamp (← parseEpochNanos wire)
          return .string text
      | .timestampUtc => do
          let text ← formatTimestamp (← parseEpochNanos wire)
          return .string (text ++ ['Z'])
      | .timestampOffset => decodeTimestampTz wire
      | .json =>
          if ¬ jsonNumbersAreExact L wire then
            .error (.cell "holds a number a JSON number cannot carry exactly")
          else
            match L.fromStr wire with
            | some value => .ok (canonicalNumbers L value)
            | none => .error (.cell "not JSON")

end Library

end FrankenSnowflake.Typed
