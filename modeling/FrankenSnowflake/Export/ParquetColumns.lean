import FrankenSnowflake.Core.Typed

/-!
# Parquet columns

The physical column and the cell codec of every result column.  A `TIMESTAMP_TZ`
column becomes two: its instants, and its offsets under a suffixed name.
-/

namespace FrankenSnowflake.Parquet

open Foundation Foundation.Digits FrankenSnowflake.Typed

/-! ## Types -/

inductive ParquetType where
  | boolean
  | int32
  | int64
  | double
  | byteArray
  | fixedLenByteArray
deriving DecidableEq, Repr

inductive ParquetConvertedType where
  | utf8
  | decimal
  | date
  | timestampMicros
  | json
deriving DecidableEq, Repr

inductive TimeUnit where
  | micros
  | nanos
deriving DecidableEq, Repr

/-- The fractional digits that a unit represents. -/
def TimeUnit.digits : TimeUnit → Nat
  | .micros => 6
  | .nanos => 9

def TimeUnit.forScale (scale : Option Nat) : TimeUnit := if scale.any (6 < ·) then .nanos else .micros

inductive ParquetLogicalType where
  | string
  | decimal (precision scale : Nat)
  | date
  | time (unit : TimeUnit)
  | timestamp (adjustedToUtc : Bool) (unit : TimeUnit)
  | json
deriving DecidableEq, Repr

/-- How a cell becomes a Parquet value. -/
inductive CellCodec where
  | text
  | hexBytes
  | boolean
  | integer
  | float
  | decimal (precision scale : Nat)
  | date
  | timeOfDay (unit : TimeUnit)
  | epoch (unit : TimeUnit)
  | tzInstant (unit : TimeUnit)
  | tzOffsetMinutes
deriving DecidableEq, Repr

structure ParquetColumnDescriptor where
  physical : ParquetType
  converted : Option ParquetConvertedType
  logical : Option ParquetLogicalType
  /-- The width of a `FIXED_LEN_BYTE_ARRAY` in bytes. -/
  typeLength : Option Int
  nullable : Bool
  codec : CellCodec
deriving DecidableEq, Repr

/-- A physical column, and the result column that its cells come from. -/
structure ParquetColumnPlan where
  name : Text
  source : Nat
  desc : ParquetColumnDescriptor
deriving DecidableEq, Repr

/-- A result column as its metadata reports it. -/
structure ExportColumn where
  name : Text
  snowflakeType : Text
  nullable : Bool
  precision : Option Nat
  scale : Option Nat
deriving DecidableEq, Repr

/-! ## Planning -/

def TZ_OFFSET_SUFFIX : Text := "__tz_offset_minutes".toList

/-- The least width whose signed range holds every decimal of `precision` digits;
at 16 bytes the shift reaches the sign bit. -/
def decimalByteWidth (precision : Nat) : Int :=
  let maxUnscaled : Int := 10 ^ min precision 38 - 1
  let bound (width : Nat) : Int := if width = 16 then -2 ^ 127 else 2 ^ (8 * width - 1)
  (((List.range' 1 16).find? fun width ↦ maxUnscaled < bound width).getD 16 : Nat)

/-- `str::parse` of an unsigned number of `bits` bits. -/
def parseUnsigned (bits : Nat) (s : Text) : Option Nat :=
  (match s with
    | '+' :: digits => parseDigits digits
    | digits => parseDigits digits).filter (· < 2 ^ bits)

/-- `(p, s)` of a type label such as `NUMBER(p,s)` or `TIME(s)`. -/
def parseDeclaredPrecisionScale (typeName : Text) : Option Nat × Option Nat :=
  match (splitOnce '(' typeName).bind fun parts ↦ splitOnce ')' parts.2 with
  | none => (none, none)
  | some (args, _) =>
      let parts := (args.splitOn ',').map fun part ↦ parseUnsigned 32 (Unicode.trim part)
      let first := parts[0]?.join
      let second := parts[1]?.join
      let upper := (Unicode.trimStart typeName).map Char.toUpper
      let numeric := ["NUMBER", "DECIMAL", "NUMERIC", "FIXED"].any fun name ↦
        name.toList.isPrefixOf upper
      if numeric then (first, second) else (none, first)

/-- The column of a result column, from its type name and its metadata. -/
def ParquetColumnDescriptor.resolve (column : ExportColumn) : ParquetColumnDescriptor :=
  let base := (Unicode.trim (column.snowflakeType.takeWhile (· ≠ '('))).map Char.toUpper
  let declared := parseDeclaredPrecisionScale column.snowflakeType
  let precision := column.precision.or declared.1
  let scale := column.scale.or declared.2
  let plain (physical : ParquetType) (codec : CellCodec) : ParquetColumnDescriptor :=
    ⟨physical, none, none, none, column.nullable, codec⟩
  match String.ofList base with
  | "BOOLEAN" | "BOOL" => plain .boolean .boolean
  | "DATE" => { plain .int32 .date with converted := some .date, logical := some .date }
  | "TIME" =>
      let unit := TimeUnit.forScale scale
      { plain .int64 (.timeOfDay unit) with logical := some (.time unit) }
  | "TIMESTAMP" | "TIMESTAMP_NTZ" | "DATETIME" =>
      let unit := TimeUnit.forScale scale
      { plain .int64 (.epoch unit) with logical := some (.timestamp false unit) }
  | "TIMESTAMP_LTZ" | "TIMESTAMP_TZ" =>
      let unit := TimeUnit.forScale scale
      let codec := if base = "TIMESTAMP_TZ".toList then .tzInstant unit else .epoch unit
      { plain .int64 codec with
        converted := if unit = .micros then some .timestampMicros else none
        logical := some (.timestamp true unit) }
  | "FLOAT" | "FLOAT4" | "FLOAT8" | "DOUBLE" | "DOUBLE PRECISION" | "REAL" => plain .double .float
  | "INT" | "INTEGER" | "BIGINT" | "SMALLINT" | "TINYINT" | "BYTEINT" => plain .int64 .integer
  | "NUMBER" | "FIXED" | "DECIMAL" | "NUMERIC" =>
      let scale := min (scale.getD 0) 37
      let precision := max (min (max (precision.getD 38) 1) 38) scale
      if scale = 0 ∧ precision ≤ 18 then plain .int64 .integer
      else
        let layout : ParquetType × Option Int :=
          if precision ≤ 9 then (.int32, none)
          else if precision ≤ 18 then (.int64, none)
          else (.fixedLenByteArray, some (decimalByteWidth precision))
        { plain layout.1 (.decimal precision scale) with
          converted := some .decimal
          logical := some (.decimal precision scale)
          typeLength := layout.2 }
  | "BINARY" | "VARBINARY" => plain .byteArray .hexBytes
  | "VARIANT" | "OBJECT" | "ARRAY" =>
      { plain .byteArray .text with converted := some .json, logical := some .json }
  | _ => { plain .byteArray .text with converted := some .utf8, logical := some .string }

/-- The physical columns of one result column. -/
def planParquetColumn (source : Nat) (column : ExportColumn) : List ParquetColumnPlan :=
  let desc := ParquetColumnDescriptor.resolve column
  let instant : ParquetColumnPlan := ⟨column.name, source, desc⟩
  match desc.codec with
  | .tzInstant _ =>
      [instant, ⟨column.name ++ TZ_OFFSET_SUFFIX, source,
        ⟨.int32, none, none, none, column.nullable, .tzOffsetMinutes⟩⟩]
  | _ => [instant]

def planParquetColumns (columns : List ExportColumn) : List ParquetColumnPlan :=
  (columns.zipIdx.map fun (column, source) ↦ planParquetColumn source column).flatten

end FrankenSnowflake.Parquet
