import FrankenSnowflake.Core.Jsonv2Extract

/-!
# SQL API response bodies

One type per HTTP status class.  Of a result set the model keeps the fields the
lifecycle and the driver read; its cells stay nullable strings.
-/

namespace FrankenSnowflake.SqlApi

/-- The classification of a response by its status code. -/
inductive ResponseClass where
  | completed
  | running
  | statementTimeout
  | statementFailed
  | rateLimited
  | other (code : UInt16)
deriving DecidableEq, Repr

def ResponseClass.fromStatus (code : UInt16) : ResponseClass :=
  if code = 200 then .completed
  else if code = 202 then .running
  else if code = 408 then .statementTimeout
  else if code = 422 then .statementFailed
  else if code = 429 then .rateLimited
  else .other code

structure StatementHandle where
  value : String
deriving DecidableEq, Repr

/-- A row: a vector of nullable `jsonv2` strings. -/
abbrev Row := List (Option (List Char))

/-- The size of one result partition. -/
structure PartitionInfo where
  rowCount : Int
deriving DecidableEq, Repr

structure ResultSetMetaData where
  /-- Total rows across every partition. -/
  numRows : Int
  /-- Partition sizes; index 0 is the inline `data`. -/
  partitionInfo : List PartitionInfo
deriving DecidableEq, Repr

/-- A `200` completed result, with the rows of partition 0. -/
structure ResultSet where
  resultSetMetaData : ResultSetMetaData
  data : List Row
  code : String
  statementHandle : StatementHandle
  statementHandles : Option (List StatementHandle)
deriving DecidableEq, Repr

/-- The response fanned out into sub-statements. -/
def ResultSet.isMultiStatement (rs : ResultSet) : Bool :=
  rs.statementHandles.any fun handles ↦ !handles.isEmpty

/-- A `202` still-running status. -/
structure QueryStatus where
  code : String
  statementHandle : StatementHandle
deriving DecidableEq, Repr

/-- A `408` or `422` body. -/
structure QueryFailureStatus where
  code : String
  message : String
  statementHandle : Option StatementHandle
deriving DecidableEq, Repr

/-- The JSON parsers for the three bodies; an error carries its text. -/
structure Serde where
  resultSet : List UInt8 → Except String ResultSet
  queryStatus : List UInt8 → Except String QueryStatus
  queryFailure : List UInt8 → Except String QueryFailureStatus

end FrankenSnowflake.SqlApi
