import FrankenSnowflake.Core.Redact

/-!
# The write-intent ladder

The only path from read-only planning to a mutating statement.  A request
carries the *redacted* preview of its SQL; `evaluateWriteIntent` classifies that
preview, walks the rungs in the source's order and, when every rung passes,
mints a `WriteAuthorization`.  The transport later asks the authorization
whether it `covers` the text about to be submitted.
-/

namespace FrankenSnowflake.WriteIntent

open SqlLexer Redact

inductive WriteIntentMode where
  | planDryRun
  | prepareExecution
deriving DecidableEq, Repr

/-- Fixed rungs of the ladder. -/
inductive WriteIntentStage where
  | readOnlyDefault
  | dryRunPlan
  | safetyClassified
  | statementAllowlisted
  | idempotencyBound
  | confirmationMatched
  | executionReceipt
  | appendOnlyAudit
deriving DecidableEq, Repr

/-- Typed classification of mutating statements. -/
inductive WriteStatementKind where
  | insert | merge | update | delete
  | copyIntoTable | copyIntoStage
  | create | alter | drop | truncate | grant | revoke
  | call | put | remove | use | execute | get
  | alterSession | transaction | sessionVariable
  | copyIntoExternal
  | unknown
deriving DecidableEq, Repr

/-- Coarse mutation safety class. -/
inductive WriteSafetyClass where
  | dml
  | ddl
  | procedure
  | externalFile
  | sessionState
  | unknown
deriving DecidableEq, Repr

namespace WriteStatementKind

/-- Every kind, in the source's order. -/
def all : List WriteStatementKind :=
  [.insert, .merge, .update, .delete, .copyIntoTable, .copyIntoStage, .create, .alter, .drop,
    .truncate, .grant, .revoke, .call, .put, .remove, .use, .execute, .get, .alterSession,
    .transaction, .sessionVariable, .copyIntoExternal, .unknown]

theorem mem_all (kind : WriteStatementKind) : kind ∈ all := by cases kind <;> decide

def safetyClass : WriteStatementKind → WriteSafetyClass
  | insert | merge | update | delete | copyIntoTable => .dml
  | create | alter | drop | truncate | grant | revoke => .ddl
  | call | execute => .procedure
  | put | get | remove | copyIntoStage | copyIntoExternal => .externalFile
  | use | alterSession | transaction | sessionVariable => .sessionState
  | unknown => .unknown

/-- Kinds the SQL API does not run as a single statement. -/
def sqlApiUnsupported : WriteStatementKind → Bool
  | put | get | use | alterSession | transaction | sessionVariable => true
  | _ => false

/-- Stable lowercase token used in confirmation phrases. -/
def asToken : WriteStatementKind → String
  | insert => "insert"
  | merge => "merge"
  | update => "update"
  | delete => "delete"
  | copyIntoTable => "copy_into_table"
  | copyIntoStage => "copy_into_stage"
  | create => "create"
  | alter => "alter"
  | drop => "drop"
  | truncate => "truncate"
  | grant => "grant"
  | revoke => "revoke"
  | call => "call"
  | put => "put"
  | remove => "remove"
  | use => "use"
  | execute => "execute"
  | get => "get"
  | alterSession => "alter_session"
  | transaction => "transaction"
  | sessionVariable => "session_variable"
  | copyIntoExternal => "copy_into_external"
  | unknown => "unknown"

end WriteStatementKind

/-! ## Classification -/

def classifyByVerb (verb : Option String) : WriteStatementKind :=
  match verb with
  | some "insert" => .insert
  | some "merge" => .merge
  | some "update" => .update
  | some "delete" => .delete
  | some "create" => .create
  | some "alter" => .alter
  | some "drop" => .drop
  | some "truncate" => .truncate
  | some "grant" => .grant
  | some "revoke" => .revoke
  | some "call" => .call
  | some "put" => .put
  | some "remove" | some "rm" => .remove
  | some "use" => .use
  | _ => .unknown

/-- The first significant token after `COPY INTO` decides the kind. -/
def copyIntoTargetKind (sql : List Char) : WriteStatementKind :=
  match (lex sql).significant with
  | copy :: into :: tail =>
      if copy.word? = some "copy".toList ∧ into.word? = some "into".toList then
        match tail with
        | target :: _ =>
            if target.text.head? = some '@' then .copyIntoStage
            else if target.kind = .stringLiteral ∧ contains target.text "://".toList then
              .copyIntoExternal
            else .copyIntoTable
        | [] => .copyIntoTable
      else .copyIntoTable
  | _ => .copyIntoTable

/-- Classify a SQL text into a write statement kind, by its first two words. -/
def classifyWriteStatement (sql : List Char) : WriteStatementKind :=
  let words := (lex sql).words.map String.ofList
  match words.head?, words.tail.head? with
  | some "alter", some "session" => .alterSession
  | some "execute", _ => .execute
  | some "get", _ => .get
  | some "begin", _ | some "commit", _ | some "rollback", _ => .transaction
  | some "start", some "transaction" => .transaction
  | some "set", _ | some "unset", _ => .sessionVariable
  | some "copy", _ => copyIntoTargetKind sql
  | first, _ => classifyByVerb first

/-! ## Policy, request and decision -/

/-- A configured allowlist row. -/
structure StatementAllowlistEntry where
  id : String
  statementKind : WriteStatementKind
deriving DecidableEq, Repr

/-- Policy gates of the ladder. -/
structure WriteIntentPolicy where
  enabled : Bool := false
  allowDdl : Bool := false
  requireDryRun : Bool := true
  requireExactConfirmation : Bool := true
  requireIdempotencyRequestId : Bool := true
  requireAppendOnlyAudit : Bool := true
  statementAllowlist : List StatementAllowlistEntry := []
  allowProcedures : Bool := false
  allowExternalUnload : Bool := false
  allowedKinds : Option (List WriteStatementKind) := none
deriving DecidableEq, Repr

/-- The exact token a confirmed execution must present. -/
structure ConfirmationToken where
  value : String
deriving DecidableEq, Repr

/-- The deterministic confirmation phrase of a dry-run plan. -/
def ConfirmationToken.forRequest (requestId : String) (kind : WriteStatementKind) :
    ConfirmationToken :=
  ⟨"confirm:" ++ kind.asToken ++ ":" ++ requestId⟩

structure AppendOnlyAuditIntent where
  streamId : String
  appendOnly : Bool
deriving DecidableEq, Repr

/-- Caller facts presented to the ladder. -/
structure WriteIntentRequest where
  mode : WriteIntentMode
  redactedSqlPreview : List Char
  dryRun : Bool := false
  allowlistId : Option String := none
  requestId : Option String := none
  confirmationToken : Option ConfirmationToken := none
  auditIntent : Option AppendOnlyAuditIntent := none
deriving DecidableEq, Repr

/-- `WriteIntentRequest::new`: the constructor redacts the preview. -/
def WriteIntentRequest.new (mode : WriteIntentMode) (sqlPreview : List Char) :
    WriteIntentRequest :=
  { mode, redactedSqlPreview := redact sqlPreview }

structure WriteIntentReceipt where
  schemaVersion : Nat
  requestId : String
  statementKind : WriteStatementKind
  dryRun : Bool
  executionEnabled : Bool
deriving DecidableEq, Repr

structure WriteIntentPlan where
  schemaVersion : Nat
  redactedSqlPreview : List Char
  statementKind : WriteStatementKind
  safetyClass : WriteSafetyClass
  allowlistEntry : StatementAllowlistEntry
  receipt : WriteIntentReceipt
  requiredConfirmationToken : ConfirmationToken
  nextRequiredStages : List WriteIntentStage
  executionEnabled : Bool
deriving DecidableEq, Repr

inductive WriteIntentRefusalCode where
  | mutationsDisabled
  | missingDryRun
  | ddlRefused
  | statementNotAllowlisted
  | missingIdempotencyRequestId
  | missingConfirmationToken
  | confirmationTokenMismatch
  | missingAppendOnlyAudit
  | statementUnsupported
  | proceduresRefused
  | externalUnloadRefused
  | executionUnavailable
deriving DecidableEq, Repr

structure WriteIntentRefusal where
  code : WriteIntentRefusalCode
  stage : WriteIntentStage
  message : String
deriving DecidableEq, Repr

/-- Proof that the ladder authorized one statement for execution. -/
structure WriteAuthorization where
  plan : WriteIntentPlan
deriving DecidableEq, Repr

/-- Whether the authorization covers `sql`: the statement whose redacted preview
the ladder evaluated. -/
def WriteAuthorization.covers (grant : WriteAuthorization) (sql : List Char) : Bool :=
  redact sql == grant.plan.redactedSqlPreview

inductive WriteIntentDecision where
  | refused (refusal : WriteIntentRefusal)
  | dryRunPlanned (plan : WriteIntentPlan)
  | executionAuthorized (grant : WriteAuthorization)
deriving DecidableEq, Repr

def writeIntentSchemaVersion : Nat := 1

def matchingAllowlistEntry (request : WriteIntentRequest) (policy : WriteIntentPolicy)
    (kind : WriteStatementKind) : Option StatementAllowlistEntry :=
  request.allowlistId.bind fun id ↦
    policy.statementAllowlist.find? fun entry ↦ entry.id = id && entry.statementKind = kind

/-! ## The ladder -/

/-- The gates a policy puts on a statement kind, in the source's order: the
refusal of the first one that fails. -/
def kindRefusal (policy : WriteIntentPolicy) (kind : WriteStatementKind) :
    Option WriteIntentRefusal :=
  if kind.sqlApiUnsupported then
    some ⟨.statementUnsupported, .safetyClassified,
      "the Snowflake SQL API does not run this statement as a single statement (PUT/GET file transfer, USE, ALTER SESSION, transactions, SET)"⟩
  else if kind.safetyClass = .ddl ∧ !policy.allowDdl then
    some ⟨.ddlRefused, .safetyClassified, "DDL is disabled by the write-intent ladder"⟩
  else if kind.safetyClass = .procedure ∧ !policy.allowProcedures then
    some ⟨.proceduresRefused, .safetyClassified,
      "procedures and EXECUTE IMMEDIATE/TASK can run DDL and GRANT; they need their own opt-in"⟩
  else if kind = .copyIntoExternal ∧ !policy.allowExternalUnload then
    some ⟨.externalUnloadRefused, .safetyClassified,
      "COPY INTO an external URL moves data outside Snowflake; it needs its own opt-in"⟩
  else if policy.allowedKinds.any fun kinds ↦ kind ∉ kinds then
    some ⟨.statementNotAllowlisted, .statementAllowlisted,
      "statement kind is not in the profile's allowed write kinds"⟩
  else none

/-- The confirmation and audit rungs of an execution preflight. -/
def preflightRefusal (request : WriteIntentRequest) (policy : WriteIntentPolicy)
    (required : ConfirmationToken) : Option WriteIntentRefusal :=
  if policy.requireExactConfirmation ∧ request.confirmationToken ≠ some required then
    match request.confirmationToken with
    | some _ => some ⟨.confirmationTokenMismatch, .confirmationMatched,
        "confirmation token did not match the dry-run plan"⟩
    | none => some ⟨.missingConfirmationToken, .confirmationMatched,
        "future execution preflight requires the exact confirmation token"⟩
  else if policy.requireAppendOnlyAudit ∧ !request.auditIntent.any (·.appendOnly) then
    some ⟨.missingAppendOnlyAudit, .appendOnlyAudit,
      "execution preflight requires an append-only audit intent"⟩
  else none

/-- The dry-run plan of an allowlisted statement. -/
def dryRunPlan (request : WriteIntentRequest) (safetyClass : WriteSafetyClass)
    (entry : StatementAllowlistEntry) (requestId : String) : WriteIntentPlan :=
  { schemaVersion := writeIntentSchemaVersion
    redactedSqlPreview := request.redactedSqlPreview
    statementKind := entry.statementKind
    safetyClass
    allowlistEntry := entry
    receipt :=
      { schemaVersion := writeIntentSchemaVersion
        requestId
        statementKind := entry.statementKind
        dryRun := true
        executionEnabled := false }
    requiredConfirmationToken := .forRequest requestId entry.statementKind
    nextRequiredStages := [.confirmationMatched, .executionReceipt, .appendOnlyAudit]
    executionEnabled := false }

/-- The plan stamped as authorized for execution. -/
def WriteIntentPlan.authorize (plan : WriteIntentPlan) : WriteIntentPlan :=
  { plan with
    receipt := { plan.receipt with dryRun := false, executionEnabled := true }
    nextRequiredStages := [.executionReceipt]
    executionEnabled := true }

/-- Evaluate a request against the ladder. -/
def evaluateWriteIntent (request : WriteIntentRequest) (policy : WriteIntentPolicy) :
    WriteIntentDecision :=
  if !policy.enabled then
    .refused ⟨.mutationsDisabled, .readOnlyDefault,
      "mutating operations are disabled by default"⟩
  else if policy.requireDryRun && !request.dryRun then
    .refused ⟨.missingDryRun, .dryRunPlan, "write-intent requests must begin with --dry-run"⟩
  else
    let kind := classifyWriteStatement request.redactedSqlPreview
    match kindRefusal policy kind with
    | some refusal => .refused refusal
    | none =>
    match matchingAllowlistEntry request policy kind with
    | none => .refused ⟨.statementNotAllowlisted, .statementAllowlisted,
        "statement did not match an explicit write allowlist entry"⟩
    | some entry =>
    match request.requestId with
    | none => .refused ⟨.missingIdempotencyRequestId, .idempotencyBound,
        "write-intent requests require an idempotency request id"⟩
    | some requestId =>
    let plan := dryRunPlan request kind.safetyClass entry requestId
    if request.mode = .planDryRun then .dryRunPlanned plan
    else
      match preflightRefusal request policy plan.requiredConfirmationToken with
      | some refusal => .refused refusal
      | none => .executionAuthorized ⟨plan.authorize⟩

/-! ## What an authorization passed

The ladder only ever looks at the preview, so an authorization says which gates
the *preview's* kind passed. -/

/-- The request was built with `WriteIntentRequest::new` from `sql`: the
constructor fixes the preview, callers fill in the other fields. -/
def WriteIntentRequest.BuiltFrom (request : WriteIntentRequest) (sql : List Char) : Prop :=
  request.redactedSqlPreview = (WriteIntentRequest.new request.mode sql).redactedSqlPreview

variable {policy : WriteIntentPolicy} {request : WriteIntentRequest} {grant : WriteAuthorization}

theorem matchingAllowlistEntry_kind {kind : WriteStatementKind} {entry : StatementAllowlistEntry}
    (h : matchingAllowlistEntry request policy kind = some entry) : entry.statementKind = kind := by
  unfold matchingAllowlistEntry at h
  obtain ⟨id, -, hfind⟩ := Option.bind_eq_some_iff.mp h
  have hmatch := List.find?_some hfind
  simp only [Bool.and_eq_true, decide_eq_true_eq] at hmatch
  exact hmatch.2

/-- An authorized preview passed the gates on its kind, and the plan carries that
kind and that preview. -/
theorem evaluateWriteIntent_authorized
    (h : evaluateWriteIntent request policy = .executionAuthorized grant) :
    kindRefusal policy (classifyWriteStatement request.redactedSqlPreview) = none ∧
      grant.plan.statementKind = classifyWriteStatement request.redactedSqlPreview ∧
      grant.plan.redactedSqlPreview = request.redactedSqlPreview := by
  simp only [evaluateWriteIntent] at h
  split at h
  next => cases h
  split at h
  next => cases h
  cases hkind : kindRefusal policy (classifyWriteStatement request.redactedSqlPreview) with
  | some refusal => simp [hkind] at h
  | none =>
  cases hentry : matchingAllowlistEntry request policy
      (classifyWriteStatement request.redactedSqlPreview) with
  | none => simp [hkind, hentry] at h
  | some entry =>
  cases hid : request.requestId with
  | none => simp [hkind, hentry, hid] at h
  | some requestId =>
  simp only [hkind, hentry, hid] at h
  split at h
  next => cases h
  split at h
  next => cases h
  next =>
    obtain rfl := WriteIntentDecision.executionAuthorized.inj h
    exact ⟨rfl, matchingAllowlistEntry_kind hentry, rfl⟩

/-- Only an execution is authorized, under the id of its request. -/
theorem evaluateWriteIntent_requestId {requestId : String} (hid : request.requestId = some requestId)
    (h : evaluateWriteIntent request policy = .executionAuthorized grant) :
    grant.plan.receipt.requestId = requestId := by
  simp only [evaluateWriteIntent, hid] at h
  split at h
  next => cases h
  split at h
  next => cases h
  split at h
  next => cases h
  split at h
  next => cases h
  split at h
  next => cases h
  split at h
  next => cases h
  next =>
    obtain rfl := WriteIntentDecision.executionAuthorized.inj h
    rfl

/-- Only a dry run is planned. -/
theorem evaluateWriteIntent_planned {plan : WriteIntentPlan}
    (h : evaluateWriteIntent request policy = .dryRunPlanned plan) : request.mode = .planDryRun := by
  simp only [evaluateWriteIntent] at h
  split at h
  next => cases h
  split at h
  next => cases h
  split at h
  next => cases h
  split at h
  next => cases h
  split at h
  next => cases h
  split at h
  next hmode => exact hmode
  split at h
  next => cases h
  next => cases h

/-- A request that passes every rung is authorized. -/
theorem evaluateWriteIntent_of_passed {kind : WriteStatementKind}
    {entry : StatementAllowlistEntry} {requestId : String}
    (hkind : classifyWriteStatement request.redactedSqlPreview = kind)
    (henabled : policy.enabled = true) (hdryRun : request.dryRun = true)
    (hmode : request.mode = .prepareExecution) (hgates : kindRefusal policy kind = none)
    (hentry : matchingAllowlistEntry request policy kind = some entry)
    (hid : request.requestId = some requestId)
    (hpreflight : preflightRefusal request policy (.forRequest requestId entry.statementKind) =
      none) :
    evaluateWriteIntent request policy =
      .executionAuthorized ⟨(dryRunPlan request kind.safetyClass entry requestId).authorize⟩ := by
  have hrequired : (dryRunPlan request kind.safetyClass entry requestId).requiredConfirmationToken =
      .forRequest requestId entry.statementKind := rfl
  simp [evaluateWriteIntent, henabled, hdryRun, hkind, hgates, hentry, hid, hmode, hrequired,
    hpreflight]

/-! ## The ladder decides on the preview -/

/-- A policy with every opt-in, and one allowlist row for `kind`. -/
def permissivePolicy (kind : WriteStatementKind) : WriteIntentPolicy :=
  { enabled := true
    allowDdl := true
    allowProcedures := true
    allowExternalUnload := true
    statementAllowlist := [⟨"row", kind⟩] }

/-- A request for `sql` that presents everything an execution of `kind` needs. -/
def completeRequest (sql : List Char) (kind : WriteStatementKind) : WriteIntentRequest :=
  { WriteIntentRequest.new .prepareExecution sql with
    dryRun := true
    allowlistId := some "row"
    requestId := some "id"
    confirmationToken := some (.forRequest "id" kind)
    auditIntent := some ⟨"audit", true⟩ }

theorem kindRefusal_permissivePolicy {kind : WriteStatementKind}
    (h : kind.sqlApiUnsupported = false) (kind' : WriteStatementKind) :
    kindRefusal (permissivePolicy kind') kind = none := by
  simp [kindRefusal, permissivePolicy, h]

/-- Whatever the SQL API runs, some policy and request authorize. -/
theorem exists_authorization {sql : List Char}
    (h : (classifyWriteStatement (redact sql)).sqlApiUnsupported = false) :
    ∃ (policy : WriteIntentPolicy) (request : WriteIntentRequest) (grant : WriteAuthorization),
      request.BuiltFrom sql ∧ evaluateWriteIntent request policy = .executionAuthorized grant := by
  obtain ⟨kind, hkind⟩ : ∃ kind, classifyWriteStatement (redact sql) = kind := ⟨_, rfl⟩
  rw [hkind] at h
  have hentry : matchingAllowlistEntry (completeRequest sql kind) (permissivePolicy kind) kind =
      some ⟨"row", kind⟩ := by
    simp [matchingAllowlistEntry, completeRequest, permissivePolicy]
  have hpreflight : preflightRefusal (completeRequest sql kind) (permissivePolicy kind)
      (.forRequest "id" kind) = none := by
    simp [preflightRefusal, completeRequest]
  exact ⟨permissivePolicy kind, completeRequest sql kind, _, rfl,
    evaluateWriteIntent_of_passed hkind rfl rfl rfl (kindRefusal_permissivePolicy h kind) hentry rfl
      hpreflight⟩

end FrankenSnowflake.WriteIntent
