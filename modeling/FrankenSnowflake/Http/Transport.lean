import FrankenSnowflake.Foundation.Program
import FrankenSnowflake.Foundation.Utf8
import FrankenSnowflake.Http.RetryAfter

/-!
# One transport call

A call is planned once and sent until it is answered, refused or cancelled.
What it does in between (checkpoints, budget, sends, sleeps) is a program of
requests to the runtime.
-/

namespace FrankenSnowflake.Http

open Foundation

/-! ## Routes -/

inductive TransportRouteKind where
  | submit
  | poll
  | partition
  | cancel
deriving DecidableEq, Repr

inductive Method where
  | get
  | post
deriving DecidableEq, Repr

namespace TransportRouteKind

/-- The text for jitter seeds and messages. -/
def asStr : TransportRouteKind → String
  | submit => "submit"
  | poll => "poll"
  | partition => "partition"
  | cancel => "cancel"

def method : TransportRouteKind → Method
  | submit | cancel => .post
  | poll | partition => .get

end TransportRouteKind

inductive TransportRoute where
  | submit
  | submitWithQuery (query : List (Text × Text))
  | submitRetry (requestId : Text)
  | poll (handle : Text)
  | partition (handle : Text) (index : Nat)
  | cancel (handle : Text)
deriving DecidableEq, Repr

def sqlApiStatementsPath : Text := "/api/v2/statements".toList

def isQueryUnreserved (byte : UInt8) : Bool :=
  (Char.ofNat byte.toNat).isAlphanum || byte = 0x2d || byte = 0x2e || byte = 0x5f || byte = 0x7e

/-- A digit of a percent escape. -/
def hexDigit (nibble : Nat) : Char :=
  Char.ofNat (if nibble < 10 then '0'.toNat + nibble else 'A'.toNat + (nibble - 10))

def percentEncodeQueryComponent (value : Text) : Text :=
  (Utf8.encode value).flatMap fun byte ↦
    if isQueryUnreserved byte then [Char.ofNat byte.toNat]
    else ['%', hexDigit (byte.toNat / 16), hexDigit (byte.toNat % 16)]

def percentEncodePathSegment : Text → Text := percentEncodeQueryComponent

/-- `key=value`, encoded. -/
def renderPair (pair : Text × Text) : Text :=
  percentEncodeQueryComponent pair.1 ++ '=' :: percentEncodeQueryComponent pair.2

def renderSubmitQuery : List (Text × Text) → Text
  | [] => sqlApiStatementsPath
  | pair :: query =>
      sqlApiStatementsPath ++ '?' :: renderPair pair ++ query.flatMap fun pair ↦ '&' :: renderPair pair

def submitQueryHasRetryContract (query : List (Text × Text)) : Bool :=
  (query.any fun pair ↦ pair.1 = "requestId".toList && pair.2 ≠ []) &&
    query.any fun pair ↦ pair.1 = "retry".toList && pair.2 = "true".toList

namespace TransportRoute

def kind : TransportRoute → TransportRouteKind
  | submit | submitWithQuery _ | submitRetry _ => .submit
  | poll _ => .poll
  | partition .. => .partition
  | cancel _ => .cancel

/-- Whether a submit may be sent again. -/
def hasRetryContract : TransportRoute → Bool
  | submitRetry _ => true
  | submitWithQuery query => submitQueryHasRetryContract query
  | submit | poll _ | partition .. | cancel _ => false

def pathAndQuery : TransportRoute → Text
  | submit => sqlApiStatementsPath
  | submitWithQuery query => renderSubmitQuery query
  | submitRetry requestId => sqlApiStatementsPath ++ "?requestId=".toList ++
      percentEncodeQueryComponent requestId ++ "&retry=true".toList
  | poll handle => sqlApiStatementsPath ++ '/' :: percentEncodePathSegment handle
  | partition handle index => sqlApiStatementsPath ++ '/' :: percentEncodePathSegment handle ++
      "?partition=".toList ++ Nat.toDigits 10 index
  | cancel handle => sqlApiStatementsPath ++ '/' :: percentEncodePathSegment handle ++
      "/cancel".toList

end TransportRoute

def routeAllowsAutomaticRetry (route : TransportRoute) : Bool :=
  route.hasRetryContract || match route with
    | .poll _ | .partition _ _ | .cancel _ => true
    | .submit | .submitWithQuery _ | .submitRetry _ => false

/-! ## Errors -/

inductive TransportErrorCode where
  | bodyLimitExceeded
  | headerRejected
  | nonIdempotentSubmitRetryRefused
  | retryBudgetExhausted
  | networkError
  | responseRefused
deriving DecidableEq, Repr

structure TransportError where
  code : TransportErrorCode
  message : String
deriving DecidableEq, Repr

/-! ## Wire requests -/

structure Header where
  name : Text
  value : Text
deriving DecidableEq, Repr

def isHeaderName (name : Text) : Bool :=
  name ≠ [] && name.all fun c ↦ c.isAlphanum || c = '-'

def isHeaderValue (value : Text) : Bool := value.all fun c ↦ c = '\t' || (' ' ≤ c && c ≤ '~')

def Header.new (name value : Text) : Except TransportError Header :=
  if isHeaderName name && isHeaderValue value then .ok ⟨name, value⟩
  else .error ⟨.headerRejected, "header contains invalid characters"⟩

inductive SnowflakeAuthTokenType where
  | programmaticAccessToken
  | keypairJwt
  | oAuth
deriving DecidableEq, Repr

def SnowflakeAuthTokenType.asHeaderValue : SnowflakeAuthTokenType → String
  | programmaticAccessToken => "PROGRAMMATIC_ACCESS_TOKEN"
  | keypairJwt => "KEYPAIR_JWT"
  | oAuth => "OAUTH"

structure AuthorizationDescriptor where
  tokenType : SnowflakeAuthTokenType
  bearerToken : Text
deriving DecidableEq, Repr

def AuthorizationDescriptor.wireHeaders (auth : AuthorizationDescriptor) :
    Except TransportError (List Header) := do
  return [← Header.new "Authorization".toList ("Bearer ".toList ++ auth.bearerToken),
    ← Header.new "X-Snowflake-Authorization-Token-Type".toList auth.tokenType.asHeaderValue.toList]

structure WireRequest where
  method : Method
  url : Text
  route : TransportRoute
  headers : List Header
  body : List UInt8
deriving DecidableEq, Repr

structure RetryPolicy where
  maxAttempts : UInt32
  baseDelayMs : UInt64
  maxDelayMs : UInt64
  totalBudgetMs : UInt64
  respectRetryAfter : Bool
  deterministicJitter : Bool
deriving DecidableEq, Repr

/-- What a call needs of the transport's configuration; durations are in
nanoseconds. -/
structure TransportConfig where
  baseUrl : Text
  userAgent : Text
  maxSubmitRequestBytes : Nat
  retry : RetryPolicy
  attemptTimeout : Option Nat
  cancelAttemptTimeout : Option Nat
deriving DecidableEq, Repr

/-- A planned request; `budget` is the one of its route. -/
structure Budget where
  deadline : Option Nat
  pollQuota : Nat
  costQuota : Option Nat
deriving DecidableEq, Repr

structure PlannedTransportRequest where
  route : TransportRoute
  auth : AuthorizationDescriptor
  body : List UInt8
  retryResubmit : Bool
  requestId : Option Text
  budget : Budget
deriving DecidableEq, Repr

/-- The limit of a request body. -/
def TransportConfig.maxRequestBytes (config : TransportConfig) : TransportRouteKind → Nat
  | .submit => config.maxSubmitRequestBytes
  | .poll | .partition | .cancel => u64Max

def TransportConfig.enforce (config : TransportConfig) (route : TransportRouteKind) (bodyLen : Nat) :
    Except TransportError Unit :=
  if config.maxRequestBytes route < bodyLen then
    .error ⟨.bodyLimitExceeded,
      s!"request body has {bodyLen} bytes, limit is {config.maxRequestBytes route}"⟩
  else .ok ()

/-- The headers of a request: authorization, then those of the method and the kind. -/
def wireHeaders (config : TransportConfig) (method : Method) (routeKind : TransportRouteKind)
    (auth : AuthorizationDescriptor) : Except TransportError (List Header) := do
  let authHeaders ← auth.wireHeaders
  let accept ← Header.new "Accept".toList "application/json".toList
  let userAgent ← Header.new "User-Agent".toList config.userAgent
  let encoding ← if routeKind = .partition then
      (Header.new "Accept-Encoding".toList "gzip, identity".toList).map ([·])
    else pure []
  let contentType ← if method = .post then
      (Header.new "Content-Type".toList "application/json".toList).map ([·])
    else pure []
  return authHeaders ++ [accept, userAgent] ++ encoding ++ contentType

def wireRequest (config : TransportConfig) (method : Method) (route : TransportRoute)
    (body : List UInt8) (auth : AuthorizationDescriptor) (retryResubmit : Bool) :
    Except TransportError WireRequest := do
  config.enforce route.kind body.length
  if route.kind = .submit ∧ retryResubmit ∧ ¬ route.hasRetryContract then
    .error ⟨.nonIdempotentSubmitRetryRefused, "submit retry requires requestId plus retry=true"⟩
  else
    let headers ← wireHeaders config method route.kind auth
    return ⟨method, config.baseUrl ++ route.pathAndQuery, route, headers, body⟩

/-! ## Retries -/

/-- The jitter of an attempt, from a hash of the request. -/
def deterministicJitterMs (requestId : Option Text) (route : TransportRouteKind) (attempt : Nat) :
    Nat :=
  let attemptBytes := (List.range 4).map fun i ↦ UInt8.ofNat (attempt / 256 ^ i)
  let bytes := Utf8.encode (requestId.getD "no-request-id".toList) ++
    Utf8.encode route.asStr.toList ++ attemptBytes
  let hash := bytes.foldl (fun (hash : UInt64) byte ↦ (hash ^^^ byte.toUInt64) * 0x100000001b3)
    0xcbf29ce484222325
  hash.toNat % 31

namespace RetryPolicy

variable (policy : RetryPolicy)

/-- The exponential delay of an attempt, by saturating arithmetic. -/
def exponential (attempt : Nat) : Nat :=
  min (min (policy.baseDelayMs.toNat * min (2 ^ (attempt - 1)) u64Max) u64Max)
    policy.maxDelayMs.toNat

def delayFor (requestId : Option Text) (route : TransportRouteKind) (attempt : Nat)
    (retryAfterMs : Option Nat) (spentMs : Nat) : Option Nat :=
  if attempt = 0 ∨ policy.maxAttempts.toNat ≤ attempt ∨ policy.totalBudgetMs.toNat ≤ spentMs then none
  else
    let fromHeader := retryAfterMs.filter fun _ ↦ policy.respectRetryAfter
    let delay := fromHeader.getD (policy.exponential attempt)
    let delay := if fromHeader.isNone && policy.deterministicJitter then
        min (delay + deterministicJitterMs requestId route attempt) u64Max
      else delay
    let remaining := policy.totalBudgetMs.toNat - spentMs
    if remaining < delay then none else some delay

structure RetryDecision where
  delay : Nat
  spentAfterMs : Nat

def nextRetry (requestId : Option Text) (route : TransportRouteKind) (attempt : Nat)
    (retryAfterMs : Option Nat) (spentMs : Nat) : Option RetryDecision := do
  let delay ← policy.delayFor requestId route attempt retryAfterMs spentMs
  return ⟨delay, min (spentMs + delay) u64Max⟩

end RetryPolicy

/-! ## Budgets -/

/-- The sooner of two optional bounds. -/
def sooner : Option Nat → Option Nat → Option Nat
  | some left, some right => some (min left right)
  | left, none => left
  | none, right => right

/-- The runtime's budget within two budgets. -/
def Budget.meet (a b : Budget) : Budget :=
  ⟨sooner a.deadline b.deadline, min a.pollQuota b.pollQuota, sooner a.costQuota b.costQuota⟩

def RetryPolicy.attemptBudget (policy : RetryPolicy) (ambient routeBudget : Budget) (attempt : Nat) :
    Budget :=
  (ambient.meet routeBudget).meet ⟨none, max (policy.maxAttempts.toNat - (attempt - 1)) 1, none⟩

def budgetTimeoutAt (budget : Budget) (now : Nat) : Option Nat := budget.deadline.map (· - now)

inductive CancelReason where
  | parentCancelled
  | deadline
  | pollQuota
  | costBudget
  | recorded (message : Text)
deriving DecidableEq, Repr

def budgetExhaustionReasonAt (budget : Budget) (now : Nat) : Option CancelReason :=
  if budgetTimeoutAt budget now = some 0 then some .deadline
  else if budget.pollQuota = 0 then some .pollQuota
  else if budget.costQuota = some 0 then some .costBudget
  else none

def TransportConfig.attemptTimeoutFor (config : TransportConfig) : TransportRouteKind → Option Nat
  | .cancel => sooner config.attemptTimeout config.cancelAttemptTimeout
  | .submit | .poll | .partition => config.attemptTimeout

/-! ## Execution -/

inductive StatusClass where
  | completed
  | running
  | statementTimeout
  | queryFailure
  | rateLimited
  | serverErrorRetryable
  | unauthorized
  | unexpected
deriving DecidableEq, Repr

def classifyStatus (status : Nat) : StatusClass :=
  if status = 200 then .completed
  else if status = 202 then .running
  else if status = 401 then .unauthorized
  else if status = 408 then .statementTimeout
  else if status = 422 then .queryFailure
  else if status = 429 then .rateLimited
  else if 500 ≤ status ∧ status ≤ 599 then .serverErrorRetryable
  else .unexpected

def isRetryableStatus (status : Nat) : Bool :=
  classifyStatus status = .rateLimited || classifyStatus status = .serverErrorRetryable

structure Response where
  status : Nat
  headers : List (Text × Text)
  body : List UInt8
deriving DecidableEq, Repr

/-- An error of the HTTP client. -/
inductive ClientError where
  | cancelled
  | deadlineExceeded
  | other (message : String)
deriving DecidableEq, Repr

/-- A request to the runtime: a checkpoint, the reason of a cancellation, the
ambient budget and the time, an exchange, the wall clock, or a sleep of some
milliseconds. -/
inductive Action where
  | checkpoint
  | cancelReason
  | budget
  | send (wire : WireRequest) (timeout : Option Nat)
  | clock
  | sleep (delay : Nat)
deriving DecidableEq

/-- The runtime's answer; a checkpoint or a sleep passes or is cancelled. -/
abbrev Action.Reply : Action → Type
  | checkpoint | sleep _ => Bool
  | cancelReason => Option CancelReason
  | budget => Budget × Nat
  | send .. => Except ClientError Response
  | clock => Option Nat

inductive TransportOutcome (α : Type) where
  | ok (a : α)
  | err (e : TransportError)
  | cancelled (reason : CancelReason)

/-- A part of a transport call. -/
abbrev HttpM (α : Type) : Type := Program Action Action.Reply α

/-- The end of a cancelled call, with the reason that the runtime has recorded
or another one. -/
def cancelReasonOr {α : Type} (fallback : CancelReason) : HttpM (TransportOutcome α) :=
  .ask .cancelReason fun recorded ↦ .done (.cancelled (recorded.getD fallback))

/-- Wait, and go on with the next attempt. -/
def waitRetryDelay {α : Type} (delay : Nat) (k : Unit → HttpM (TransportOutcome α)) :
    HttpM (TransportOutcome α) :=
  .ask .checkpoint fun passed ↦
    if passed then
      .ask (.sleep delay) fun slept ↦
        if slept then
          .ask .checkpoint fun passed ↦ if passed then k () else cancelReasonOr .parentCancelled
        else cancelReasonOr .deadline
    else cancelReasonOr .parentCancelled

/-- What a call is made of: its configuration, plan, kind and wire request, and
how an answer is read. -/
structure Call (α : Type) where
  config : TransportConfig
  planned : PlannedTransportRequest
  routeKind : TransportRouteKind
  wire : WireRequest
  fromResponse : Response → Except TransportError α

namespace Call

variable {α : Type} (call : Call α)

def nextRetry (attempt : Nat) (retryAfterMs : Option Nat) (spentMs : Nat) :
    Option RetryPolicy.RetryDecision :=
  call.config.retry.nextRetry call.planned.requestId call.routeKind attempt retryAfterMs spentMs

theorem lt_of_nextRetry {attempt spentMs : Nat} {retryAfterMs : Option Nat}
    {retry : RetryPolicy.RetryDecision}
    (h : call.nextRetry attempt retryAfterMs spentMs = some retry) :
    attempt < call.config.retry.maxAttempts.toNat := by
  by_contra hlt
  have hnone : call.config.retry.delayFor call.planned.requestId call.routeKind attempt retryAfterMs
      spentMs = none := if_pos (Or.inr (Or.inl (not_lt.mp hlt)))
  rw [nextRetry, RetryPolicy.nextRetry, hnone] at h
  cases h

/-- The loop over the attempts, from one of them on.  The number of an attempt
stays below `max_attempts`, so it never saturates. -/
def attempts (attempt retrySpentMs : Nat) : HttpM (TransportOutcome α) :=
  .ask .checkpoint fun passed ↦
    if passed then
      .ask .budget fun (ambient, budgetNow) ↦
        let attemptBudget := call.config.retry.attemptBudget ambient call.planned.budget attempt
        match budgetExhaustionReasonAt attemptBudget budgetNow with
        | some reason => .done (.cancelled reason)
        | none =>
            .ask (.send call.wire (sooner (budgetTimeoutAt attemptBudget budgetNow)
              (call.config.attemptTimeoutFor call.routeKind))) fun
            | .ok response => .ask .clock fun now ↦
                if isRetryableStatus response.status then
                  if routeAllowsAutomaticRetry call.wire.route then
                    match hretry : call.nextRetry attempt (retryAfterMs now response.headers)
                        retrySpentMs with
                    | some retry => waitRetryDelay retry.delay fun _ ↦
                        attempts (attempt + 1) retry.spentAfterMs
                    | none => .done (.err ⟨.retryBudgetExhausted,
                        s!"{call.routeKind.asStr} exhausted retry budget after {attempt} attempts"⟩)
                  else
                    .done (.err ⟨.nonIdempotentSubmitRetryRefused,
                      s!"{call.routeKind.asStr} returned retryable HTTP status {response.status}, but automatic retry requires requestId plus retry=true"⟩)
                else
                  match call.fromResponse response with
                  | .ok value => .done (.ok value)
                  | .error e => .done (.err e)
            | .error .cancelled => cancelReasonOr .parentCancelled
            | .error .deadlineExceeded => cancelReasonOr .deadline
            | .error (.other message) =>
                if routeAllowsAutomaticRetry call.wire.route then
                  match hretry : call.nextRetry attempt none retrySpentMs with
                  | some retry => waitRetryDelay retry.delay fun _ ↦
                      attempts (attempt + 1) retry.spentAfterMs
                  | none => .done (.err ⟨.networkError, s!"Asupersync HTTP client error: {message}"⟩)
                else .done (.err ⟨.networkError, s!"Asupersync HTTP client error: {message}"⟩)
    else cancelReasonOr .parentCancelled
termination_by call.config.retry.maxAttempts.toNat - attempt
decreasing_by
  all_goals
    have hlt := call.lt_of_nextRetry hretry
    omega

end Call

/-- One transport call. -/
def execute {α : Type} (config : TransportConfig) (planned : PlannedTransportRequest)
    (routeKind : TransportRouteKind) (fromResponse : Response → Except TransportError α) :
    HttpM (TransportOutcome α) :=
  match wireRequest config routeKind.method planned.route planned.body planned.auth
      planned.retryResubmit with
  | .error e => .done (.err e)
  | .ok wire => Call.attempts ⟨config, planned, routeKind, wire, fromResponse⟩ 1 0

end FrankenSnowflake.Http
