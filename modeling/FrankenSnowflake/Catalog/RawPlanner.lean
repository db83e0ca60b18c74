import FrankenSnowflake.Catalog.Planner

/-!
# The raw SQL planner

Raw mode takes one `SELECT` of the caller.  The planner has a scanner of its own
for words and semicolons outside of quotes and comments.
-/

namespace FrankenSnowflake.Catalog

open Foundation Guardrails

structure RawSqlPlanRequest where
  sql : Text
  limit : Option Nat
  exportMode : Bool
  confirmationToken : Option Text
  warehouse : Option Text
  profileFingerprint : Text
  commandId : Text
  traceId : Text
deriving DecidableEq, Repr

/-! ## Executable tokens -/

structure ExecutableSqlTokens where
  words : List Text
  hasSemicolon : Bool
deriving DecidableEq, Repr

inductive SqlScanState where
  | normal
  | singleQuoted
  | doubleQuoted
  | lineComment
  | blockComment (depth : Nat)
deriving DecidableEq, Repr

/-- Put a word in front, unless it is empty. -/
def ExecutableSqlTokens.flushWord (word : Text) (tokens : ExecutableSqlTokens) :
    ExecutableSqlTokens :=
  if word.isEmpty then tokens else { tokens with words := word :: tokens.words }

/-- Scan on from a state, with the characters of a word that has begun. -/
def scanSql : SqlScanState → Text → Text → ExecutableSqlTokens
  | _, word, [] => ExecutableSqlTokens.flushWord word ⟨[], false⟩
  | .normal, word, '-' :: '-' :: rest => (scanSql .lineComment [] rest).flushWord word
  | .normal, word, '/' :: '*' :: rest => (scanSql (.blockComment 1) [] rest).flushWord word
  | .normal, word, ch :: rest =>
      if ch = '\'' then (scanSql .singleQuoted [] rest).flushWord word
      else if ch = '"' then (scanSql .doubleQuoted [] rest).flushWord word
      else if ch = ';' then
        ExecutableSqlTokens.flushWord word ⟨(scanSql .normal [] rest).words, true⟩
      else if ch.isAlphanum ∨ ch = '_' then scanSql .normal (word ++ [ch.toLower]) rest
      else (scanSql .normal [] rest).flushWord word
  | .singleQuoted, word, '\\' :: _ :: rest => scanSql .singleQuoted word rest
  | .singleQuoted, word, '\'' :: '\'' :: rest => scanSql .singleQuoted word rest
  | .singleQuoted, word, ch :: rest =>
      if ch = '\'' then scanSql .normal word rest else scanSql .singleQuoted word rest
  | .doubleQuoted, word, '"' :: '"' :: rest => scanSql .doubleQuoted word rest
  | .doubleQuoted, word, ch :: rest =>
      if ch = '"' then scanSql .normal word rest else scanSql .doubleQuoted word rest
  | .lineComment, word, ch :: rest =>
      if ch = '\n' ∨ ch = '\r' then scanSql .normal word rest else scanSql .lineComment word rest
  | .blockComment depth, word, '/' :: '*' :: rest => scanSql (.blockComment (depth + 1)) word rest
  | .blockComment depth, word, '*' :: '/' :: rest =>
      if depth = 1 then scanSql .normal word rest else scanSql (.blockComment (depth - 1)) word rest
  | .blockComment depth, word, _ :: rest => scanSql (.blockComment depth) word rest

def executableSqlTokens (sql : Text) : ExecutableSqlTokens := scanSql .normal [] sql

def containsWord (sql : Text) (needle : Text) : Bool :=
  (executableSqlTokens sql).words.any (· = needle)

def firstKeyword (sql : Text) : Option Text := (executableSqlTokens sql).words.head?

def hasStatementSeparator (sql : Text) : Bool := (executableSqlTokens sql).hasSemicolon

def hasResultLimit (sql : Text) : Bool :=
  containsWord sql "limit".toList || containsWord sql "fetch".toList

/-! ## Planning -/

def rawSqlRefusal (message : String) : PlanRefusal where
  code := "FSNOW_RAW_SQL_UNSAFE".toList
  message := message.toList
  didYouMean := []

def refusedKeywords : List Text :=
  ["alter", "call", "copy", "create", "delete", "drop", "execute", "grant", "insert", "merge",
    "put", "remove", "revoke", "rm", "truncate", "undrop", "update", "use"].map String.toList

/-- The statement without blanks around it and without its last semicolon. -/
def withoutTrailingSemicolon (sql : Text) : Text :=
  let trimmed := Unicode.trim sql
  Unicode.trimEnd (if trimmed.getLast? = some ';' then trimmed.dropLast else trimmed)

def normalizeRawSelect (sql : Text) : Except PlanRefusal Text :=
  if (Unicode.trim sql).isEmpty then
    .error (rawSqlRefusal "raw SQL must be a single SELECT statement")
  else if hasStatementSeparator (withoutTrailingSemicolon sql) then
    .error (rawSqlRefusal
      "raw SQL dry-run accepts one statement; semicolon chaining is refused")
  else if firstKeyword (withoutTrailingSemicolon sql) ≠ some "select".toList then
    .error (rawSqlRefusal "raw SQL dry-run accepts SELECT only")
  else if refusedKeywords.any (containsWord (withoutTrailingSemicolon sql)) then
    .error (rawSqlRefusal "raw SQL dry-run refused a mutating or session-changing keyword")
  else .ok (withoutTrailingSemicolon sql)

def rawQueryTag (request : RawSqlPlanRequest) : Text :=
  tagOr "franken-snowflake.raw-query-plan" request.traceId request.commandId

/-- The normalised raw plan that is hashed. -/
def normalizedRawPlan (sql : Text) (bindings : SortedMap Text TypedBinding)
    (guardrails : PlanGuardrails) (request : RawSqlPlanRequest) : Text :=
  sql ++ barred ([request.profileFingerprint, "raw".toList] ++ guardedFields bindings guardrails)

def rawPlanId (sql : Text) (bindings : SortedMap Text TypedBinding) (guardrails : PlanGuardrails)
    (request : RawSqlPlanRequest) : Text :=
  formatPlanId (normalizedRawPlan sql bindings guardrails request)

/-- The limit that is pushed down, and the warning if nobody asked for it. -/
def pushedLimit (hasSqlLimit : Bool) (request : RawSqlPlanRequest) :
    Option Nat × List PlanWarning :=
  if hasSqlLimit then (request.limit, [])
  else
    match request.limit with
    | some limit => (some limit, [])
    | none =>
        if request.exportMode ∨ request.confirmationToken.isSome then (none, [])
        else
          (some defaultMaxResultRows,
            [⟨"FSNOW_UNCONSTRAINED_QUERY_ADVISORY".toList,
              "raw SELECT had no LIMIT; planner pushed down the default row cap".toList⟩])

/-- The statement with the pushed limit, and its bindings. -/
def limitedSql (sql : Text) (hasSqlLimit : Bool) (limit : Option Nat) :
    Text × SortedMap Text TypedBinding :=
  match hasSqlLimit, limit with
  | false, some limit =>
      let placeholder := pushBinding .new .number (Nat.toDigits 10 limit)
      (sql ++ " LIMIT ".toList ++ placeholder.1, placeholder.2.bindings)
  | _, _ => (sql, .empty)

/-- Plan a raw SQL dry run. -/
def planRawSqlDryRun (request : RawSqlPlanRequest) : Except (List PlanRefusal) QueryPlan :=
  match normalizeRawSelect request.sql with
  | .error refusal => .error [refusal]
  | .ok sql =>
      let hasSqlLimit := hasResultLimit sql
      let pushed := pushedLimit hasSqlLimit request
      let limited := limitedSql sql hasSqlLimit pushed.1
      match plannerGuardrails limited.1 (pushed.1.getD defaultMaxResultRows) request.exportMode
          request.warehouse (rawQueryTag request) with
      | .error refusal => .error [refusal]
      | .ok (guardrails, warnings) =>
          .ok
            { planId := rawPlanId limited.1 limited.2 guardrails request
              mode := .rawSql
              sql := limited.1
              bindings := limited.2
              guardrails
              pushdown :=
                { projectedColumns := 0
                  axisFilters := 0
                  predicateFilters := 0
                  allPredicatesPushedDown := true }
              warnings := pushed.2 ++ warnings }

end FrankenSnowflake.Catalog
