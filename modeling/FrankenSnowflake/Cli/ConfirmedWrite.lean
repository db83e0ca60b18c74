import FrankenSnowflake.Cli.Confirmation
import FrankenSnowflake.Foundation.Program
import FrankenSnowflake.Http.Transport

/-!
# The program of `query write`

One invocation, as a program of requests to the local store, the clock and the
SQL API.  A dry run records a confirmation; a confirmed write verifies its token,
submits and records that the token is used.
-/

namespace FrankenSnowflake.ConfirmedWrite

open Foundation SqlLexer Redact WriteIntent Confirmation
open Http (Text TransportRoute)

/-! ## Submits -/

structure SubmitQueryParams where
  requestId : Option Text
  retry : Bool
  asynchronous : Bool
  nullable : Option Bool
deriving DecidableEq, Repr

def SubmitQueryParams.toQueryPairs (params : SubmitQueryParams) : List (Text × Text) :=
  (params.requestId.map fun id ↦ ("requestId".toList, id)).toList ++
    (if params.retry then [("retry".toList, "true".toList)] else []) ++
    (if params.asynchronous then [("async".toList, "true".toList)] else []) ++
    (params.nullable.map fun nullable ↦
      ("nullable".toList, (if nullable then "true" else "false").toList)).toList

def submitRoute (params : SubmitQueryParams) : TransportRoute :=
  match params.toQueryPairs with
  | [] => .submit
  | pair :: query => .submitWithQuery (pair :: query)

/-- The route of an authorized write. -/
def writeRoute (requestId : Text) : TransportRoute := submitRoute ⟨some requestId, true, false, none⟩

/-! ## Ids -/

/-- A number in hexadecimal, of at least some width. -/
def hexPadded (width n : Nat) : Text :=
  List.replicate (width - (Nat.toDigits 16 n).length) '0' ++ Nat.toDigits 16 n

/-- What an id is made from: random bytes, or for want of them the time, the
process id and a hash. -/
inductive IdSource where
  | random (bytes : List UInt8)
  | invocation (mixed : Nat)
deriving DecidableEq, Repr

def invocationId (mixed : Nat) : Text :=
  hexPadded 8 (mixed / 2 ^ 96 % 2 ^ 32) ++ '-' :: hexPadded 4 (mixed / 2 ^ 80 % 2 ^ 16) ++
    '-' :: '4' :: hexPadded 3 (mixed / 2 ^ 68 % 2 ^ 12) ++
    '-' :: '8' :: hexPadded 3 (mixed / 2 ^ 56 % 2 ^ 12) ++ '-' :: hexPadded 12 (mixed % 2 ^ 48)

def IdSource.id : IdSource → Text
  | random bytes => randomId bytes
  | invocation mixed => invocationId mixed

/-- The id of an unconfirmed submit. -/
def uniqueRequestId (nanos seq : Nat) : Text :=
  hexPadded 8 (nanos % 2 ^ 32) ++ "-0000-4000-8000-".toList ++
    hexPadded 12 ((nanos / 2 ^ 16 ^^^ seq) % 2 ^ 48)

/-! ## Requests -/

/-- A request of an invocation.  Audit events are read from the store that was
opened first; `appendAudit` opens the store again, `recordReceipt` also writes the
receipt of a statement that was executed or ended otherwise. -/
inductive Action where
  | openStore
  | auditEvents
  | confirmKey
  | clock
  | idSource
  | requestIdSource
  | resolve
  | prepare
  | appendAudit (event : AuditEvent)
  | recordReceipt (eventKind : String)
  | submit (route : TransportRoute)
  | answer
deriving DecidableEq

abbrev Action.Reply : Action → Type
  | openStore | resolve | prepare | appendAudit _ | answer => Bool
  | auditEvents => Except String (List AuditEventRecord)
  | confirmKey => Except String (List UInt8)
  | clock => Nat
  | idSource => IdSource
  | requestIdSource => Nat × Nat
  | recordReceipt _ => Option Text
  | submit _ => Unit

/-- How an invocation ends. -/
inductive WriteOutcome where
  | usageError (message : String)
  | refused (message : String)
  | ladderRefused (refusal : WriteIntentRefusal)
  | planned (plan : WriteIntentPlan) (recorded : Except String Unit)
  | failed
  | succeeded (receipt : Option Text) (consumed : Bool)

abbrev WriteM (α : Type) : Type := Program Action Action.Reply α

/-! ## Verification -/

/-- A store of which only the log is looked at; a log that cannot be read has no
events. -/
def Store.ofLog (log : Except String (List AuditEventRecord)) : Store :=
  { confirmKey := .error "", auditLog := log }

/-- A store of which only the key is looked at. -/
def Store.ofKey (key : Except String (List UInt8)) : Store := { confirmKey := key, auditLog := .ok [] }

/-- `verify_confirmation`: the log is read for the dry run, and once more for the
consumption. -/
def verify (hmac : Hmac) (stored : Bool) (ttl : Option Nat) (profile sql : Text)
    (statementKind : WriteStatementKind) (token : Text) : WriteM (Except String Text) :=
  if ¬ stored then
    .done (.error "the local store is unavailable, so the token cannot be verified")
  else
    let kind := statementKind.asToken
    match stripPrefix? (confirmPrefix statementKind) token with
    | none => .done (.error s!"the token is not a `{kind}` confirmation (expected confirm:{kind}:<id> from a dry run of this statement)")
    | some id => .ask .auditEvents fun log ↦
        match (Store.ofLog log).findDryRun id with
        | none => .done (.error "the token names no dry run recorded in this data directory; run `query write --dry-run` first")
        | some issued => .ask .confirmKey fun key ↦
            match keyedSqlDigest hmac (Store.ofKey key) profile (compactSql sql) with
            | .error error => .done (.error error)
            | .ok digest =>
                if issued.profile ≠ profile ∨ issued.sqlDigest ≠ digest ∨
                    issued.statementKind ≠ kind.toList then
                  .done (.error "the token was issued for a different statement or profile")
                else .ask .clock fun now ↦
                  let ttlSeconds := ttl.getD defaultWriteTokenTtlSeconds
                  let ageMs := now - issued.issuedAtMs
                  let ageSeconds := ageMs / 1000
                  if toMillis ttlSeconds ≤ ageMs then
                    .done (.error s!"the token expired: issued {ageSeconds} s ago, lifetime {ttlSeconds} s; dry-run again")
                  else .ask .auditEvents fun log ↦
                    match (Store.ofLog log).confirmationConsumedBy id with
                    | some receipt =>
                        let receipt := String.ofList receipt
                        .done (.error s!"the token was already used by a completed write (receipt {receipt}); dry-run again for a new one")
                    | none => .done (.ok id)

/-! ## Execution -/

/-- `execute_authorized_write`, and what is recorded of it. -/
def executeWrite (confirmedRequestId : Option Text) (requestId : Text) : WriteM WriteOutcome :=
  .ask (.submit (writeRoute requestId)) fun _ ↦
    .ask .answer fun executed ↦
      if ¬ executed then .ask (.recordReceipt "statement_terminal") fun _ ↦ .done .failed
      else .ask (.recordReceipt "write_executed") fun receipt ↦
        match confirmedRequestId with
        | none => .done (.succeeded receipt false)
        | some confirmId =>
            .ask (.appendAudit (.writeConfirmConsumed (redact confirmId) (receipt.map redact)))
              fun consumed ↦ .done (.succeeded receipt consumed)

/-- `run_write_outcome`: an authorized write is announced, submitted and recorded. -/
def runWrite (grant : WriteAuthorization) (sql : Text) (confirmedRequestId : Option Text) :
    WriteM WriteOutcome :=
  if ¬ grant.covers sql then .done .failed
  else .ask .resolve fun resolved ↦
    if ¬ resolved then
      .ask (.appendAudit (.other "write_not_submitted")) fun _ ↦ .done .failed
    else .ask (.appendAudit (.other "write_submitted")) fun _ ↦
      .ask .prepare fun prepared ↦
        if ¬ prepared then .ask (.recordReceipt "statement_terminal") fun _ ↦ .done .failed
        else
          match confirmedRequestId with
          | some id => executeWrite (some id) id
          | none => .ask .requestIdSource fun (nanos, seq) ↦
              executeWrite none (uniqueRequestId nanos seq)

/-- `record_issued_confirmation`. -/
def recordIssued (hmac : Hmac) (profile sql : Text) (kind : WriteStatementKind) (confirmId : Text) :
    WriteM (Except String Unit) :=
  .ask .confirmKey fun key ↦
    match keyedSqlDigest hmac (Store.ofKey key) profile (compactSql sql) with
    | .error error => .done (.error error)
    | .ok sqlDigest => .ask .clock fun now ↦
        let issued : IssuedConfirmation :=
          ⟨confirmId, profile, sqlDigest, kind.asToken.toList, now⟩
        .ask (.appendAudit (.writeDryRun issued.redacted)) fun recorded ↦
          .done (if recorded then .ok () else .error "the audit log could not be appended")

/-! ## The command -/

/-- The settings of a profile that a write looks at. -/
structure WriteSettings where
  enabled : Bool
  allowDdl : Bool
  requireConfirm : Bool
  allowProcedures : Bool
  allowExternalUnload : Bool
  allowedKinds : Except String (Option (List WriteStatementKind))
  tokenTtlSeconds : Option Nat

structure WriteCommand where
  profile : Option Text
  sql : Option Text
  dryRun : Bool
  confirm : Option Text
  settings : WriteSettings

def cliAllowlistId (kind : WriteStatementKind) : String := "cli_auto_" ++ kind.asToken

def writePolicyFromFlags (enabled allowDdl requireConfirm : Bool) (kind : WriteStatementKind) :
    WriteIntentPolicy :=
  { enabled, allowDdl, requireDryRun := requireConfirm, requireExactConfirmation := requireConfirm
    requireIdempotencyRequestId := true, requireAppendOnlyAudit := true
    statementAllowlist := [⟨cliAllowlistId kind, kind⟩] }

def writePolicyForProfile (settings : WriteSettings) (kind : WriteStatementKind) :
    Except String WriteIntentPolicy := do
  let allowedKinds ← settings.allowedKinds
  return { writePolicyFromFlags settings.enabled settings.allowDdl settings.requireConfirm kind with
    allowProcedures := settings.allowProcedures
    allowExternalUnload := settings.allowExternalUnload
    allowedKinds }

def ambiguousSqlReason (sql : Text) : Option String :=
  if (lex sql).unterminated then
    some "The SQL has an unterminated string, quoted identifier, `$$` string or block comment, so its statement boundaries are ambiguous; it is refused. Close every quote and comment."
  else if (lex sql).ambiguous then
    some "The SQL nests a block comment (`/* ... /* ... */`); Snowflake's handling of nested comments is undocumented and the two readings disagree about which statements run, so it is refused. Remove the inner `/*`."
  else none

def hasMultipleStatements (sql : Text) : Bool :=
  (lex sql).isUnreliable || 1 < (lex sql).statementCount ||
    1 < (lex sql).significant.countP (·.kind = .semicolon)

/-- The request that is put to the ladder. -/
def writeIntent (mode : WriteIntentMode) (sql : Text) (kind : WriteStatementKind)
    (ladderRequestId : Text) (confirm : Option Text) (stored : Bool) : WriteIntentRequest :=
  { WriteIntentRequest.new mode sql with
    dryRun := true
    allowlistId := some (cliAllowlistId kind)
    requestId := some (String.ofList ladderRequestId)
    confirmationToken := confirm.map fun token ↦ ⟨String.ofList token⟩
    auditIntent := if stored then some ⟨"audit", true⟩ else none }

/-- What follows the ladder's decision. -/
def afterLadder (hmac : Hmac) (stored : Bool) (profile sql : Text) (kind : WriteStatementKind)
    (ladderRequestId : Text) (confirmed : Bool) : WriteIntentDecision → WriteM WriteOutcome
  | .refused refusal => .ask (.appendAudit (.other "write_refused")) fun _ ↦
      .done (.ladderRefused refusal)
  | .dryRunPlanned plan =>
      if stored then
        (recordIssued hmac profile sql kind ladderRequestId).bind fun recorded ↦
          .done (.planned plan recorded)
      else .done (.planned plan (.error "the local store is unavailable"))
  | .executionAuthorized grant =>
      runWrite grant sql (if confirmed then some grant.plan.receipt.requestId.toList else none)

/-- The ladder, under the id of the dry run or a new one. -/
def climbLadder (hmac : Hmac) (stored : Bool) (profile sql : Text) (kind : WriteStatementKind)
    (mode : WriteIntentMode) (policy : WriteIntentPolicy) (confirm : Option Text) (id : Text) :
    WriteM WriteOutcome :=
  afterLadder hmac stored profile sql kind id confirm.isSome
    (evaluateWriteIntent (writeIntent mode sql kind id confirm stored) policy)

/-- Which way a write goes. -/
def writeMode (settings : WriteSettings) (dryRun : Bool) (confirm : Option Text) :
    Option WriteIntentMode :=
  if confirm.isSome then some .prepareExecution
  else if dryRun then some .planDryRun
  else if settings.enabled && settings.requireConfirm then none
  else some .prepareExecution

/-- A write of a known statement kind, in some mode. -/
def writeStatement (hmac : Hmac) (settings : WriteSettings) (profile sql : Text)
    (kind : WriteStatementKind) (mode : WriteIntentMode) (confirm : Option Text) :
    WriteM WriteOutcome :=
  match writePolicyForProfile settings kind with
  | .error message => .done (.refused message)
  | .ok policy => .ask .openStore fun stored ↦
      match confirm with
      | some token =>
          (verify hmac stored settings.tokenTtlSeconds profile sql kind token).bind fun
          | .ok id => climbLadder hmac stored profile sql kind mode
              { policy with requireExactConfirmation := true } confirm id
          | .error reason => .ask (.appendAudit (.other "write_refused")) fun _ ↦
              .done (.refused ("confirmation token refused: " ++ reason))
      | none => .ask .idSource fun source ↦
          climbLadder hmac stored profile sql kind mode policy none source.id

/-- `query_write_outcome`. -/
def queryWrite (hmac : Hmac) (command : WriteCommand) : WriteM WriteOutcome :=
  match command.profile, command.sql with
  | none, _ => .done (.usageError "Missing --profile for `query write`. Pass --profile <profile> or set FRANKEN_SNOWFLAKE_DEFAULT_PROFILE.")
  | some _, none => .done (.usageError "Missing --sql for `query write`.")
  | some profile, some sql =>
      match ambiguousSqlReason sql with
      | some reason => .done (.refused reason)
      | none =>
          if hasMultipleStatements sql then
            .done (.refused "Multiple SQL statements are refused by default; submit exactly one mutating statement.")
          else if command.dryRun && command.confirm.isSome then
            .done (.usageError "Choose either --dry-run (to preview) or --confirm <token> (to execute a previewed write), not both.")
          else
            let kind := classifyWriteStatement sql
            if kind = .unknown then
              .done (.usageError "`query write` expects a mutating statement (INSERT/UPDATE/DELETE/MERGE/COPY INTO/...). For reads use `query run`.")
            else
              match writeMode command.settings command.dryRun command.confirm with
              | none => .done (.refused "This profile sets WRITE_REQUIRE_CONFIRM=true: run `query write --dry-run` first to get a confirmation token, then re-run with --confirm <token>.")
              | some mode => writeStatement hmac command.settings profile sql kind mode command.confirm

end FrankenSnowflake.ConfirmedWrite
