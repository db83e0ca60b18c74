import Mathlib.Data.List.Infix
import FrankenSnowflake.Core.Redact
import FrankenSnowflake.Core.SqlRead
import FrankenSnowflake.Core.SqlLexerSplit
import FrankenSnowflake.Foundation.Unicode

/-!
# COPY INTO plans

What `CopyIntoPlan::to_sql` writes, and when its source stays inside the
parentheses that the plan writes around it.
-/

namespace FrankenSnowflake.Export

open Foundation.Unicode SqlLexer Redact

/-! ## Plans -/

inductive ExportFormat where
  | csv
  | jsonl
  | parquet
deriving DecidableEq, Repr

inductive CopyCompression where
  | none
  | gzip
  | snappy
deriving DecidableEq, Repr

def CopyCompression.snowflakeSql : CopyCompression → List Char
  | .none => "NONE".toList
  | .gzip => "GZIP".toList
  | .snappy => "SNAPPY".toList

/-- The rows to unload: those of a query, or of one that has run. -/
inductive CopySource where
  | query (sql : List Char)
  | resultScan (queryId : List Char)
deriving DecidableEq, Repr

structure CopyIntoOptions where
  format : ExportFormat
  compression : CopyCompression
  header : Bool
  overwrite : Bool
  single : Bool
  maxFileSize : Option UInt64
deriving DecidableEq

structure CopyIntoPlan where
  location : List Char
  source : CopySource
  options : CopyIntoOptions
deriving DecidableEq

inductive ExportError where
  | invalidCopyLocation (location : List Char) (reason : String)
  | unsafeCopySource (reason : String)
deriving DecidableEq, Repr

/-- A plan is refused, or a text is split inside of a character, which panics. -/
inductive Failure where
  | error (e : ExportError)
  | panic
deriving DecidableEq, Repr

def refuse {α : Type} (reason : String) : Except Failure α :=
  .error (.error (.unsafeCopySource reason))

/-! ## The location -/

def isCopyLocationByte (c : Char) : Bool :=
  ['@', '~', '%', '_', '/', '.', '-'].contains c || c.isAlphanum

def copyLocationSql (location : List Char) : Except Failure (List Char) :=
  let trimmed := trim location
  if trimmed = [] ∨ trimmed.head? ≠ some '@' then
    .error (.error (.invalidCopyLocation location
      "location must be a Snowflake stage URI starting with @"))
  else if trimmed ≠ location then
    .error (.error (.invalidCopyLocation location "leading or trailing whitespace is not allowed"))
  else if utf8Len location = 1 then
    .error (.error (.invalidCopyLocation location
      "location must name a stage or stage path after @"))
  else if containsSecret location then
    .error (.error (.invalidCopyLocation (redact location)
      "location appears to contain a secret-shaped token"))
  else if !location.all isCopyLocationByte then
    .error (.error (.invalidCopyLocation location
      "location contains characters outside the safe stage URI allowlist"))
  else if ['-', '-'] <:+: location then
    .error (.error (.invalidCopyLocation location "location must not contain SQL comment markers"))
  else .ok location

/-! ## The source -/

/-- What is left behind a string literal. -/
def scanSingleQuotedSqlString : List Char → Except Failure (List Char)
  | [] | ['\\'] => refuse "source query has an unterminated string literal"
  | '\\' :: _ :: rest => scanSingleQuotedSqlString rest
  | '\'' :: '\'' :: rest => scanSingleQuotedSqlString rest
  | '\'' :: rest => .ok rest
  | _ :: rest => scanSingleQuotedSqlString rest

/-- What is left behind a quoted identifier. -/
def scanDoubleQuotedSqlIdentifier : List Char → Except Failure (List Char)
  | [] => refuse "source query has an unterminated quoted identifier"
  | '"' :: '"' :: rest => scanDoubleQuotedSqlIdentifier rest
  | '"' :: rest => .ok rest
  | _ :: rest => scanDoubleQuotedSqlIdentifier rest

/-- The loop of `validate_wrapped_copy_source_sql`, which takes a character at least each time;
the depth is an `i32` that saturates. -/
def validateWrappedFrom : Nat → Int → List Char → Except Failure Unit
  | 0, depth, _ | _, depth, [] =>
      if depth ≠ 0 then refuse "source query has unbalanced parentheses" else .ok ()
  | fuel + 1, depth, c :: rest =>
      if c = ';' then refuse "source query must be one statement without semicolons"
      else if c = '\'' then do
        let rest ← scanSingleQuotedSqlString rest
        validateWrappedFrom fuel depth rest
      else if c = '"' then do
        let rest ← scanDoubleQuotedSqlIdentifier rest
        validateWrappedFrom fuel depth rest
      else if c = '(' then validateWrappedFrom fuel (min (depth + 1) (2 ^ 31 - 1)) rest
      else if c = ')' then
        if depth - 1 < 0 then refuse "source query closes the COPY INTO wrapper"
        else validateWrappedFrom fuel (depth - 1) rest
      else if (c = '-' ∧ rest.head? = some '-') ∨ (c = '/' ∧ rest.head? = some '*') then
        refuse "source query must not contain SQL comments"
      else validateWrappedFrom fuel depth rest

def validateWrappedCopySourceSql (sql : List Char) : Except Failure Unit :=
  validateWrappedFrom sql.length 0 sql

/-- `none` where `split_at` panics. -/
def startsWithKeyword (input keyword : List Char) : Option Bool :=
  if utf8Len input < utf8Len keyword then some false
  else
    (splitAtByte (utf8Len keyword) input).map fun (head, rest) ↦
      head.map Char.toLower = keyword.map Char.toLower &&
        rest.head?.all fun c ↦ isAsciiWhitespace c || c = '('

def validateSingleStatementSql (sql : List Char) : Except Failure Unit :=
  let trimmed := trim sql
  if trimmed = [] then refuse "source query is empty"
  else
    match startsWithKeyword trimmed "select".toList, startsWithKeyword trimmed "with".toList with
    | some true, _ | some false, some true => validateWrappedCopySourceSql trimmed
    | some false, some false => refuse "source query must begin with SELECT or WITH"
    | none, _ | some false, none => .error .panic

def isResultScanQueryIdByte (c : Char) : Bool := c = '-' || c = '_' || c.isAlphanum

def validateResultScanQueryId (queryId : List Char) : Except Failure Unit :=
  if trim queryId = [] then refuse "RESULT_SCAN query id is empty"
  else if trim queryId ≠ queryId then
    refuse "RESULT_SCAN query id must not contain leading or trailing whitespace"
  else if containsSecret queryId then
    refuse "RESULT_SCAN query id appears to contain a secret-shaped token"
  else if !queryId.all isResultScanQueryIdByte then
    refuse "RESULT_SCAN query id contains characters outside the safe allowlist"
  else .ok ()

def sqlStringLiteral (input : List Char) : List Char :=
  '\'' :: input.flatMap (fun c ↦
    if c = '\'' then ['\'', '\''] else if c = '\\' then ['\\', '\\'] else [c]) ++ ['\'']

def CopySource.toSql : CopySource → Except Failure (List Char)
  | .query sql => do
      validateSingleStatementSql sql
      .ok (trim sql)
  | .resultScan queryId => do
      validateResultScanQueryId queryId
      .ok ("SELECT * FROM TABLE(RESULT_SCAN(".toList ++ sqlStringLiteral queryId ++ "))".toList)

/-! ## The plan -/

namespace CopyIntoOptions

variable (options : CopyIntoOptions)

def fileFormatClause : List Char :=
  match options.format with
  | .csv => "TYPE = CSV COMPRESSION = ".toList ++ options.compression.snowflakeSql ++
      " FIELD_OPTIONALLY_ENCLOSED_BY = '\"' NULL_IF = () EMPTY_FIELD_AS_NULL = FALSE".toList
  | .jsonl => "TYPE = JSON COMPRESSION = ".toList ++ options.compression.snowflakeSql
  | .parquet => "TYPE = PARQUET COMPRESSION = ".toList ++ options.compression.snowflakeSql

/-- What is written behind the file format. -/
def unloadOptions : List Char :=
  (if options.format = .csv then
    if options.header then " HEADER = TRUE".toList else " HEADER = FALSE".toList
  else []) ++
  (if options.overwrite then " OVERWRITE = TRUE".toList else " OVERWRITE = FALSE".toList) ++
  (if options.single then " SINGLE = TRUE".toList else " SINGLE = FALSE".toList) ++
  options.maxFileSize.elim [] fun size ↦ " MAX_FILE_SIZE = ".toList ++ Nat.toDigits 10 size.toNat

/-- What is written behind the parenthesis that closes the source. -/
def clauses : List Char :=
  " FILE_FORMAT = (".toList ++ options.fileFormatClause ++ ")".toList ++ options.unloadOptions

end CopyIntoOptions

def CopyIntoPlan.toSql (plan : CopyIntoPlan) : Except Failure (List Char) := do
  let locationSql ← copyLocationSql plan.location
  let sourceSql ← plan.source.toSql
  .ok ("COPY INTO ".toList ++ locationSql ++ " FROM (".toList ++ sourceSql ++ ")".toList ++
    plan.options.clauses)

/-! ## Containment -/

/-- The depth of parentheses behind tokens, unless they close more than they open. -/
def parenDepth : Nat → List (SqlTokenKind × List Char) → Option Nat
  | depth, [] => some depth
  | depth, t :: ts =>
      if t = (.symbol, ['(']) then parenDepth (depth + 1) ts
      else if t = (.symbol, [')']) then if depth = 0 then none else parenDepth (depth - 1) ts
      else parenDepth depth ts

/-- The text that tokens make up. -/
def textOf (ts : List (SqlTokenKind × List Char)) : List Char := (ts.map Prod.snd).flatten

/-- A plan is one reliable statement, the parenthesis behind `FROM` is closed by the one that the
plan writes behind the source, and every token behind it comes from the options. -/
structure Contained (plan : CopyIntoPlan) (sql : List Char) : Prop where
  reliable : (lex sql).isUnreliable = false
  single : (lex sql).statementCount = 1
  wrapped : ∃ sourceSql, plan.source.toSql = .ok sourceSql ∧ ∃ target source options,
    tokenContent sql = target ++ (.symbol, ['(']) :: (source ++ (.symbol, [')']) :: options) ∧
      textOf target = "COPY INTO ".toList ++ plan.location ++ " FROM ".toList ∧
      textOf source = sourceSql ∧ parenDepth 0 source = some 0 ∧
      textOf options = plan.options.clauses

/-- A text that the lexer takes as one whole: reliable, without a semicolon, with balanced
parentheses, and not ending in a line comment. -/
structure SelfContained (sql : List Char) : Prop where
  reliable : (lex sql).isUnreliable = false
  single : ∀ t ∈ tokenContent sql, t.1 ≠ .semicolon
  balanced : parenDepth 0 (tokenContent sql) = some 0
  ended : endsInLineComment sql = false

end FrankenSnowflake.Export
