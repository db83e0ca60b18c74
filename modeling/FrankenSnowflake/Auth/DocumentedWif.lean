import FrankenSnowflake.Auth.WorkloadIdentity

/-!
# Tokens of a workload identity provider

The token of the provider is sent as it is.  It is cached with the times that
its claims name, and acquired again before it expires, on demand, or after the
server has refused it.  An acquisition writes the times before it checks that
the token can stand in a header.
-/

namespace FrankenSnowflake.Auth

open Foundation Foundation.Signed

/-! ## Headers -/

inductive WifProvider where
  | aws
  | azure
  | gcp
  | oidc
deriving DecidableEq, Repr

def WifProvider.asWirePrefix : WifProvider → String
  | aws => "AWS"
  | azure => "AZURE"
  | gcp => "GCP"
  | oidc => "OIDC"

def WORKLOAD_IDENTITY_FEDERATION_TOKEN_TYPE : String := "WORKLOAD_IDENTITY_FEDERATION"

/-- `b.is_ascii_control() || b.is_ascii_whitespace()`. -/
def isControlOrWhitespace (b : UInt8) : Bool := b < 0x20 || b = 0x7f || b = 0x20

def formatWifBearerToken (provider : WifProvider) (rawToken : Text) : Except AuthError Text :=
  let trimmed := Unicode.trim rawToken
  if trimmed = [] then .error .emptySecretValue
  else if (Utf8.encode trimmed).any isControlOrWhitespace then
    .error (.oidcAssertionMalformed
      "workload identity token contains whitespace or control characters".toList
      "ensure the provider attestation token is a single token string")
  else .ok ("WIF.".toList ++ provider.asWirePrefix.toList ++ '.' :: trimmed)

def buildWifAuthHeaders (provider : WifProvider) (rawToken : Text) :
    Except AuthError AuthHeaders := do
  return .bearer (← formatWifBearerToken provider rawToken) WORKLOAD_IDENTITY_FEDERATION_TOKEN_TYPE

theorem formatWifBearerToken_trim (provider : WifProvider) (rawToken : Text) :
    formatWifBearerToken provider (Unicode.trim rawToken) =
      formatWifBearerToken provider rawToken := by
  rw [formatWifBearerToken, formatWifBearerToken, Unicode.trim_trim]

/-! ## The authenticator -/

structure DocumentedWifAuth where
  provider : WifProvider
  assertionSource : OidcTokenSource
  refreshBeforeExpirySeconds : UInt64
  credentialHandle : Option Text
  cachedCredential : Option SecretValue
  cachedIssuedAtUnixSeconds : Option Int
  cachedExpiresAtUnixSeconds : Option Int
deriving DecidableEq

/-- Whether a token is taken for a JSON web token. -/
def isJwt (raw : Text) : Bool := (raw.splitOn '.').length = 3

section

variable (codec : Codec)

/-- The issue time and the expiry of a token that is acquired at a time. -/
def tokenTimes (raw : Text) (nowUnixSeconds : Int) :
    Except AuthError (Option Int × Option Int) :=
  if isJwt raw then do
    let claims ← parseAndValidateOidcAssertion codec raw nowUnixSeconds
    return (claims.iat.or (some nowUnixSeconds), some claims.exp)
  else .ok (some nowUnixSeconds, none)

namespace DocumentedWifAuth

variable (auth : DocumentedWifAuth) (env : Environment) (nowUnixSeconds : Int)

def withTimes (times : Option Int × Option Int) : DocumentedWifAuth :=
  { auth with cachedIssuedAtUnixSeconds := times.1, cachedExpiresAtUnixSeconds := times.2 }

def times : Option Int × Option Int :=
  (auth.cachedIssuedAtUnixSeconds, auth.cachedExpiresAtUnixSeconds)

def shouldRefresh : Bool :=
  match auth.cachedCredential, auth.cachedExpiresAtUnixSeconds with
  | none, _ => true
  | some _, some exp => satSub exp nowUnixSeconds ≤ ofU64 auth.refreshBeforeExpirySeconds
  | some _, none => false

def forceReacquireWithResolverAt : Except AuthError Unit × DocumentedWifAuth :=
  match auth.assertionSource.resolve env with
  | .error error => (.error error, auth)
  | .ok resolved =>
      let raw := Unicode.trim resolved.value
      match tokenTimes codec raw nowUnixSeconds with
      | .error error => (.error error, auth)
      | .ok times =>
          match formatWifBearerToken auth.provider raw with
          | .error error => (.error error, auth.withTimes times)
          | .ok _ => (.ok (), { auth.withTimes times with cachedCredential := some resolved })

/-- The headers of the cached credential. -/
def cachedHeaders : Except AuthError AuthHeaders :=
  match auth.cachedCredential with
  | none => .error .emptySecretValue
  | some secret => buildWifAuthHeaders auth.provider secret.value

def headersWithResolverAt : Except AuthError AuthHeaders × DocumentedWifAuth :=
  if auth.shouldRefresh nowUnixSeconds then
    match auth.forceReacquireWithResolverAt codec env nowUnixSeconds with
    | (.error error, auth) => (.error error, auth)
    | (.ok (), auth) => (auth.cachedHeaders, auth)
  else (auth.cachedHeaders, auth)

def providerDisplay : Text := auth.provider.asWirePrefix.toList

def onUnauthorizedMidPoll : ReauthDecision × DocumentedWifAuth :=
  let cleared := { auth with cachedCredential := none }
  match cleared.forceReacquireWithResolverAt codec env nowUnixSeconds with
  | (.ok (), auth) =>
      (.resignJwt ("workload identity (".toList ++ auth.providerDisplay ++
        ") returned 401 mid-poll; re-acquired provider token before retrying".toList), auth)
  | (.error error, auth) =>
      (.reauthRequired .workloadIdentityFederation auth.credentialHandle
        ("workload identity (".toList ++ auth.providerDisplay ++
          ") returned 401 and provider token re-acquisition failed: ".toList ++ error.display),
        auth)

end DocumentedWifAuth

end

/-! ## Calls -/

inductive WifEntry where
  | headersWithResolverAt
  | forceReacquireWithResolverAt
  | onUnauthorizedMidPoll
deriving DecidableEq, Repr

/-- A call at a time, with what it finds outside the program. -/
structure WifCall where
  entry : WifEntry
  now : Int
  env : Environment

inductive WifAnswer where
  | headers (result : Except AuthError AuthHeaders)
  | reacquired (result : Except AuthError Unit)
  | decision (decision : ReauthDecision)
deriving DecidableEq

/-- Whether a call has failed. -/
def WifAnswer.failed : WifAnswer → Bool
  | headers (.ok _) | reacquired (.ok _) => false
  | headers (.error _) | reacquired (.error _) => true
  | decision (.resignJwt _) | decision .notRequired => false
  | decision (.reauthRequired ..) => true

namespace WifCall

variable (codec : Codec) (auth : DocumentedWifAuth) (call : WifCall)

def step : WifAnswer × DocumentedWifAuth :=
  match call.entry with
  | .headersWithResolverAt =>
      (auth.headersWithResolverAt codec call.env call.now).map .headers id
  | .forceReacquireWithResolverAt =>
      (auth.forceReacquireWithResolverAt codec call.env call.now).map .reacquired id
  | .onUnauthorizedMidPoll =>
      (auth.onUnauthorizedMidPoll codec call.env call.now).map .decision id

/-- The token that the call acquires. -/
def acquisition : Option SecretValue :=
  if call.entry = .headersWithResolverAt ∧ ¬ auth.shouldRefresh call.now then none
  else
    match auth.assertionSource.resolve call.env with
    | .error _ => none
    | .ok resolved =>
        let raw := Unicode.trim resolved.value
        match tokenTimes codec raw call.now, formatWifBearerToken auth.provider raw with
        | .ok _, .ok _ => some resolved
        | .ok _, .error _ | .error _, _ => none

end WifCall

/-- An authenticator with its last acquisition: a token and a time. -/
structure ObservedWif where
  auth : DocumentedWifAuth
  last : Option (SecretValue × Int)
deriving DecidableEq

namespace ObservedWif

variable (codec : Codec)

def step (s : ObservedWif) (call : WifCall) : WifAnswer × ObservedWif :=
  ((call.step codec s.auth).1,
    { auth := (call.step codec s.auth).2
      last := ((call.acquisition codec s.auth).map (·, call.now)).or s.last })

/-- The times of a cached token are those that it had when it was acquired. -/
def Consistent (s : ObservedWif) : Prop :=
  ∀ token, s.auth.cachedCredential = some token →
    ∃ time, s.last = some (token, time) ∧
      tokenTimes codec (Unicode.trim token.value) time = .ok s.auth.times

/-- What is to hold of a call: the times are those of the cached token, a
failure leaves the token with its times or none, and no header carries an
expired token. -/
structure Good (s : ObservedWif) (call : WifCall) : Prop where
  consistent : (s.step codec call).2.Consistent codec
  failed : (s.step codec call).1.failed → (s.step codec call).2.auth.cachedCredential = none ∨
    ((s.step codec call).2.auth.cachedCredential = s.auth.cachedCredential ∧
      (s.step codec call).2.auth.times = s.auth.times)
  headers : ∀ headers, (s.step codec call).1 = .headers (.ok headers) →
    ∃ token, (s.step codec call).2.auth.cachedCredential = some token ∧
      buildWifAuthHeaders s.auth.provider token.value = .ok headers ∧
      (isJwt (Unicode.trim token.value) →
        ∃ claims, readOidcAssertion codec (Unicode.trim token.value) = .ok claims ∧
          call.now < claims.exp)

/-- Whether a call acquires a token over a cached one. -/
def Replaces (s : ObservedWif) (call : WifCall) : Prop :=
  s.auth.cachedCredential ≠ none ∧ call.entry ≠ .onUnauthorizedMidPoll ∧
    (call.entry = .headersWithResolverAt → s.auth.shouldRefresh call.now)

/-- A token that passes the check of assertions but cannot stand in a header is
not acquired over a cached one, unless it has the times of that one. -/
def KeepsTimes (s : ObservedWif) (call : WifCall) : Prop :=
  s.Replaces call → ∀ resolved times error,
    s.auth.assertionSource.resolve call.env = .ok resolved →
    tokenTimes codec (Unicode.trim resolved.value) call.now = .ok times →
    formatWifBearerToken s.auth.provider (Unicode.trim resolved.value) = .error error →
    times = s.auth.times

/-- The runs of an authenticator that has acquired no token yet. -/
abbrev Runs (allowed : ObservedWif → WifCall → Prop) (auth₀ : DocumentedWifAuth) :
    List (WifCall × WifAnswer) → ObservedWif → Prop :=
  Mealy.Runs (step codec) allowed ⟨auth₀, none⟩

end ObservedWif

/-! ## One acquisition -/

namespace DocumentedWifAuth

/-- An acquisition fails and leaves everything, fails after it has written the
times, or caches a token with its times. -/
theorem forceReacquire_cases (codec : Codec) (auth : DocumentedWifAuth) (env : Environment)
    (now : Int) :
    (∃ error, auth.forceReacquireWithResolverAt codec env now = (.error error, auth) ∧
      ∀ resolved times, auth.assertionSource.resolve env = .ok resolved →
        tokenTimes codec (Unicode.trim resolved.value) now ≠ .ok times) ∨
    ∃ resolved times, auth.assertionSource.resolve env = .ok resolved ∧
      tokenTimes codec (Unicode.trim resolved.value) now = .ok times ∧
      ((∃ error, formatWifBearerToken auth.provider (Unicode.trim resolved.value) = .error error ∧
        auth.forceReacquireWithResolverAt codec env now = (.error error, auth.withTimes times)) ∨
      ∃ text, formatWifBearerToken auth.provider (Unicode.trim resolved.value) = .ok text ∧
        auth.forceReacquireWithResolverAt codec env now =
          (.ok (), { auth.withTimes times with cachedCredential := some resolved })) := by
  unfold forceReacquireWithResolverAt
  cases hresolve : auth.assertionSource.resolve env with
  | error error => exact .inl ⟨error, rfl, nofun⟩
  | ok resolved =>
      cases htimes : tokenTimes codec (Unicode.trim resolved.value) now with
      | error error =>
          refine .inl ⟨error, by simp only [htimes], ?_⟩
          intro resolved' times hresolved
          cases hresolved
          rw [htimes]
          exact nofun
      | ok times =>
          refine .inr ⟨resolved, times, rfl, htimes, ?_⟩
          cases hformat : formatWifBearerToken auth.provider (Unicode.trim resolved.value) with
          | error error => exact .inl ⟨error, rfl, by simp only [htimes, hformat]⟩
          | ok text => exact .inr ⟨text, rfl, by simp only [htimes, hformat]⟩

end DocumentedWifAuth

/-! ## One call -/

namespace WifCall

variable {codec : Codec} {auth : DocumentedWifAuth} {call : WifCall}

/-- The state that an acquisition of the call starts from. -/
def cleared (auth : DocumentedWifAuth) (call : WifCall) : DocumentedWifAuth :=
  if call.entry = .onUnauthorizedMidPoll then { auth with cachedCredential := none } else auth

/-- Whether the call acquires a token. -/
def Asks (auth : DocumentedWifAuth) (call : WifCall) : Prop :=
  ¬ (call.entry = .headersWithResolverAt ∧ ¬ auth.shouldRefresh call.now)

theorem cleared_source : (call.cleared auth).assertionSource = auth.assertionSource := by
  unfold cleared
  split_ifs <;> rfl

theorem cleared_provider (auth : DocumentedWifAuth) (call : WifCall) :
    (call.cleared auth).provider = auth.provider := by
  unfold cleared
  split_ifs <;> rfl

/-- A call that acquires no token hands out the headers of the cached one. -/
theorem step_of_not_asks (codec : Codec) (h : ¬ call.Asks auth) :
    call.step codec auth = (.headers auth.cachedHeaders, auth) ∧
      call.acquisition codec auth = none := by
  obtain ⟨hentry, hrefresh⟩ := not_not.mp h
  constructor
  · simp only [step, hentry, DocumentedWifAuth.headersWithResolverAt, hrefresh]
    rfl
  · exact if_pos ⟨hentry, hrefresh⟩

/-- A call whose acquisition fails has failed. -/
theorem step_of_error {error : AuthError} {auth' : DocumentedWifAuth} (h : call.Asks auth)
    (hforce : (call.cleared auth).forceReacquireWithResolverAt codec call.env call.now =
      (.error error, auth')) :
    (call.step codec auth).1.failed ∧ (call.step codec auth).2 = auth' := by
  unfold Asks at h
  unfold cleared at hforce
  unfold step
  cases hentry : call.entry with
  | headersWithResolverAt =>
      have hrefresh : auth.shouldRefresh call.now := by simpa [hentry] using h
      rw [hentry, if_neg (by decide)] at hforce
      simp only [DocumentedWifAuth.headersWithResolverAt, hrefresh, hforce]
      exact ⟨rfl, rfl⟩
  | forceReacquireWithResolverAt =>
      rw [hentry, if_neg (by decide)] at hforce
      simp only [hforce]
      exact ⟨rfl, rfl⟩
  | onUnauthorizedMidPoll =>
      rw [hentry, if_pos rfl] at hforce
      simp only [DocumentedWifAuth.onUnauthorizedMidPoll, hforce]
      exact ⟨rfl, rfl⟩

/-- A call whose acquisition succeeds hands out the headers of the new token, if
any. -/
theorem step_of_ok {auth' : DocumentedWifAuth} (h : call.Asks auth)
    (hforce : (call.cleared auth).forceReacquireWithResolverAt codec call.env call.now =
      (.ok (), auth')) :
    (call.step codec auth).2 = auth' ∧
      ((call.step codec auth).1 = .headers auth'.cachedHeaders ∨
        ((call.step codec auth).1.failed = false ∧
          ∀ result, (call.step codec auth).1 ≠ .headers result)) := by
  unfold Asks at h
  unfold cleared at hforce
  unfold step
  cases hentry : call.entry with
  | headersWithResolverAt =>
      have hrefresh : auth.shouldRefresh call.now := by simpa [hentry] using h
      rw [hentry, if_neg (by decide)] at hforce
      simp only [DocumentedWifAuth.headersWithResolverAt, hrefresh, hforce]
      exact ⟨rfl, .inl rfl⟩
  | forceReacquireWithResolverAt =>
      rw [hentry, if_neg (by decide)] at hforce
      simp only [hforce]
      exact ⟨rfl, .inr ⟨rfl, nofun⟩⟩
  | onUnauthorizedMidPoll =>
      rw [hentry, if_pos rfl] at hforce
      simp only [DocumentedWifAuth.onUnauthorizedMidPoll, hforce]
      exact ⟨rfl, .inr ⟨rfl, nofun⟩⟩

/-- The acquired token of a call that asks for one. -/
theorem acquisition_of_asks (h : call.Asks auth) {resolved : SecretValue}
    {times : Option Int × Option Int} (hresolve : auth.assertionSource.resolve call.env = .ok resolved)
    (htimes : tokenTimes codec (Unicode.trim resolved.value) call.now = .ok times) :
    call.acquisition codec auth =
      match formatWifBearerToken auth.provider (Unicode.trim resolved.value) with
      | .ok _ => some resolved
      | .error _ => none := by
  rw [acquisition, if_neg h]
  simp only [hresolve, htimes]
  cases formatWifBearerToken auth.provider (Unicode.trim resolved.value) <;> rfl

theorem acquisition_eq_none {codec : Codec} {auth : DocumentedWifAuth} {call : WifCall}
    (h : ∀ resolved times, auth.assertionSource.resolve call.env = .ok resolved →
      tokenTimes codec (Unicode.trim resolved.value) call.now ≠ .ok times) :
    call.acquisition codec auth = none := by
  unfold acquisition
  split_ifs
  · rfl
  · cases hresolve : auth.assertionSource.resolve call.env with
    | error error => rfl
    | ok resolved =>
        cases htimes : tokenTimes codec (Unicode.trim resolved.value) call.now with
        | error error => simp only [htimes]
        | ok times => exact absurd htimes (h resolved times hresolve)

/-- Without the refresh of a call that has a credential, its expiry lies past the
refresh window. -/
theorem lt_of_not_asks {token : SecretValue} {exp : Int}
    (hwindow : auth.refreshBeforeExpirySeconds.toNat < 2 ^ 63) (h : ¬ call.Asks auth)
    (hcached : auth.cachedCredential = some token) (hexp : auth.cachedExpiresAtUnixSeconds = some exp) :
    call.now < exp := by
  obtain ⟨-, hrefresh⟩ := not_not.mp h
  simp only [DocumentedWifAuth.shouldRefresh, hcached, hexp, decide_eq_true_eq, Int.not_le]
    at hrefresh
  have hlife := lt_of_nonneg_lt_satSub (ofU64_nonneg_iff.mpr hwindow) hrefresh
  have hnonneg := ofU64_nonneg_iff.mpr hwindow
  omega

end WifCall

/-- The times of a JSON web token are those of its claims, which it outlives when
it is acquired. -/
theorem tokenTimes_of_isJwt {codec : Codec} {raw : Text} {now : Int}
    {times : Option Int × Option Int} (hjwt : isJwt raw) (h : tokenTimes codec raw now = .ok times) :
    ∃ claims, readOidcAssertion codec raw = .ok claims ∧ times.2 = some claims.exp ∧
      now < claims.exp := by
  rw [tokenTimes, if_pos hjwt] at h
  obtain ⟨claims, hclaims, h⟩ := bind_eq_ok_iff.mp h
  obtain ⟨hread, hlt⟩ := (parseAndValidateOidcAssertion_eq_ok codec).mp hclaims
  cases h
  exact ⟨claims, hread, rfl, hlt⟩

theorem DocumentedWifAuth.exists_of_cachedHeaders {auth : DocumentedWifAuth}
    {headers : AuthHeaders} (h : auth.cachedHeaders = .ok headers) :
    ∃ token, auth.cachedCredential = some token ∧
      buildWifAuthHeaders auth.provider token.value = .ok headers := by
  unfold cachedHeaders at h
  split at h
  next => cases h
  next token hcached => exact ⟨token, hcached, h⟩

namespace ObservedWif

variable {codec : Codec} {s : ObservedWif} {call : WifCall}

theorem good_of_not_asks (hconsistent : s.Consistent codec)
    (hwindow : s.auth.refreshBeforeExpirySeconds.toNat < 2 ^ 63) (h : ¬ call.Asks s.auth) :
    s.Good codec call := by
  obtain ⟨hstep, hacquisition⟩ := WifCall.step_of_not_asks codec h
  have hnext : (s.step codec call).2 = s := by
    rw [step, hstep, hacquisition]
    rfl
  have hanswer : (s.step codec call).1 = .headers s.auth.cachedHeaders := by rw [step, hstep]
  refine ⟨by rwa [hnext], fun _ ↦ .inr (by rw [hnext]; exact ⟨rfl, rfl⟩), ?_⟩
  intro headers hheaders
  rw [hanswer] at hheaders
  obtain ⟨token, hcached, hbuild⟩ :=
    DocumentedWifAuth.exists_of_cachedHeaders (WifAnswer.headers.inj hheaders)
  refine ⟨token, by rwa [hnext], hbuild, ?_⟩
  intro hjwt
  obtain ⟨time, -, htimes⟩ := hconsistent token hcached
  obtain ⟨claims, hread, hexp, -⟩ := tokenTimes_of_isJwt hjwt htimes
  exact ⟨claims, hread, WifCall.lt_of_not_asks hwindow h hcached hexp⟩

/-- What is left after a call whose acquisition fails and writes no times. -/
theorem consistent_cleared (hconsistent : s.Consistent codec) :
    Consistent codec ⟨call.cleared s.auth, s.last⟩ := by
  intro token hcached
  unfold WifCall.cleared at hcached ⊢
  split_ifs at hcached ⊢
  exact hconsistent token hcached

theorem good_of_error {error : AuthError} (hconsistent : s.Consistent codec)
    (h : call.Asks s.auth)
    (hforce : (call.cleared s.auth).forceReacquireWithResolverAt codec call.env call.now =
      (.error error, call.cleared s.auth))
    (hacquisition : call.acquisition codec s.auth = none) : s.Good codec call := by
  obtain ⟨hfailed, hstate⟩ := WifCall.step_of_error h hforce
  have hnext : (s.step codec call).2 = ⟨call.cleared s.auth, s.last⟩ := by
    rw [step, hstate, hacquisition]
    rfl
  refine ⟨by rw [hnext]; exact consistent_cleared hconsistent, ?_, ?_⟩
  · intro _
    rw [hnext]
    unfold WifCall.cleared
    split_ifs
    · exact .inl rfl
    · exact .inr ⟨rfl, rfl⟩
  · intro headers hheaders
    rw [show (call.step codec s.auth).1 = .headers (.ok headers) from hheaders] at hfailed
    cases hfailed

theorem good_of_ok {resolved : SecretValue} {times : Option Int × Option Int}
    {text : Text} (h : call.Asks s.auth)
    (htimes : tokenTimes codec (Unicode.trim resolved.value) call.now = .ok times)
    (hformat : formatWifBearerToken s.auth.provider (Unicode.trim resolved.value) = .ok text)
    (hforce : (call.cleared s.auth).forceReacquireWithResolverAt codec call.env call.now =
      (.ok (), { (call.cleared s.auth).withTimes times with cachedCredential := some resolved }))
    (hacquisition : call.acquisition codec s.auth = some resolved) : s.Good codec call := by
  obtain ⟨hstate, hanswer⟩ := WifCall.step_of_ok h hforce
  have hnext : (s.step codec call).2 =
      ⟨{ (call.cleared s.auth).withTimes times with cachedCredential := some resolved },
        some (resolved, call.now)⟩ := by
    rw [step, hstate, hacquisition]
    rfl
  have hcached : (s.step codec call).2.auth.cachedCredential = some resolved := by rw [hnext]
  have hbuild : buildWifAuthHeaders s.auth.provider resolved.value =
      .ok (.bearer text WORKLOAD_IDENTITY_FEDERATION_TOKEN_TYPE) := by
    rw [buildWifAuthHeaders, ← formatWifBearerToken_trim, hformat]
    rfl
  have hheaders : DocumentedWifAuth.cachedHeaders
      { (call.cleared s.auth).withTimes times with cachedCredential := some resolved } =
      .ok (.bearer text WORKLOAD_IDENTITY_FEDERATION_TOKEN_TYPE) := by
    rw [← hbuild, ← WifCall.cleared_provider s.auth call]
    rfl
  rw [hheaders] at hanswer
  refine ⟨?_, ?_, ?_⟩
  · intro token htoken
    rw [hcached] at htoken
    cases htoken
    rw [hnext]
    exact ⟨call.now, rfl, htimes⟩
  · intro hfailed
    rw [show (s.step codec call).1 = (call.step codec s.auth).1 from rfl] at hfailed
    rcases hanswer with hanswer | ⟨hanswer, -⟩
    · rw [hanswer] at hfailed
      cases hfailed
    · rw [hanswer] at hfailed
      cases hfailed
  · intro headers hresult
    refine ⟨resolved, hcached, ?_, ?_⟩
    · rcases hanswer with hanswer | ⟨-, hanswer⟩
      · exact hbuild.trans (WifAnswer.headers.inj (hanswer.symm.trans hresult))
      · exact absurd hresult (hanswer _)
    · intro hjwt
      obtain ⟨claims, hread, -, hlt⟩ := tokenTimes_of_isJwt hjwt htimes
      exact ⟨claims, hread, hlt⟩

/-- A failure after the times were written is a good one just in case they are
those of the cached token, or there is none. -/
theorem good_iff_of_written {resolved : SecretValue} {times : Option Int × Option Int}
    {error error' : AuthError} (hconsistent : s.Consistent codec) (h : call.Asks s.auth)
    (hresolve : s.auth.assertionSource.resolve call.env = .ok resolved)
    (htimes : tokenTimes codec (Unicode.trim resolved.value) call.now = .ok times)
    (hformat : formatWifBearerToken s.auth.provider (Unicode.trim resolved.value) = .error error')
    (hforce : (call.cleared s.auth).forceReacquireWithResolverAt codec call.env call.now =
      (.error error, (call.cleared s.auth).withTimes times))
    (hacquisition : call.acquisition codec s.auth = none) :
    s.Good codec call ↔ s.KeepsTimes codec call := by
  obtain ⟨hfailed, hstate⟩ := WifCall.step_of_error h hforce
  have hnext : (s.step codec call).2 = ⟨(call.cleared s.auth).withTimes times, s.last⟩ := by
    rw [step, hstate, hacquisition]
    rfl
  constructor
  · intro hgood hreplaces resolved' times' error'' hresolve' htimes' _
    rw [hresolve] at hresolve'
    cases hresolve'
    rw [htimes] at htimes'
    cases htimes'
    have hcleared : call.cleared s.auth = s.auth := if_neg hreplaces.2.1
    rw [hcleared] at hnext
    rcases hgood.failed hfailed with hnone | ⟨-, hsame⟩
    · rw [hnext] at hnone
      exact absurd hnone hreplaces.1
    · rw [hnext] at hsame
      exact hsame
  · intro hkeeps
    by_cases hreplaces : s.Replaces call
    · have hcleared : call.cleared s.auth = s.auth := if_neg hreplaces.2.1
      have hsame : s.auth.withTimes times = s.auth := by
        rw [hkeeps hreplaces resolved times error' hresolve htimes hformat]
        rfl
      rw [hcleared, hsame] at hforce
      rw [← hcleared] at hforce
      exact good_of_error hconsistent h hforce hacquisition
    · have hnone : (call.cleared s.auth).cachedCredential = none := by
        unfold WifCall.cleared
        split_ifs with hentry
        · rfl
        · by_contra hcached
          have hrefresh : call.entry = .headersWithResolverAt → s.auth.shouldRefresh call.now :=
            fun hheaders ↦ not_not.mp fun hrefresh ↦ h ⟨hheaders, hrefresh⟩
          exact hreplaces ⟨hcached, hentry, hrefresh⟩
      refine ⟨?_, fun _ ↦ .inl (by rw [hnext]; exact hnone), ?_⟩
      · intro token htoken
        rw [hnext] at htoken
        exact absurd (htoken.symm.trans hnone) nofun
      · intro headers hheaders
        rw [show (call.step codec s.auth).1 = .headers (.ok headers) from hheaders] at hfailed
        cases hfailed

/-- A call from a consistent state is a good one just in case it keeps the times
of what it does not replace. -/
theorem good_iff (hconsistent : s.Consistent codec)
    (hwindow : s.auth.refreshBeforeExpirySeconds.toNat < 2 ^ 63) :
    s.Good codec call ↔ s.KeepsTimes codec call := by
  by_cases h : call.Asks s.auth
  · rcases DocumentedWifAuth.forceReacquire_cases codec (call.cleared s.auth) call.env
      call.now with
      ⟨error, hforce, hnone⟩ | ⟨resolved, times, hresolve, htimes, hforce⟩
    · rw [WifCall.cleared_source] at hnone
      constructor
      · intro _ _ resolved times _ hresolve htimes _
        exact absurd htimes (hnone resolved times hresolve)
      · intro _
        exact good_of_error hconsistent h hforce (WifCall.acquisition_eq_none hnone)
    · rw [WifCall.cleared_source] at hresolve
      rw [WifCall.cleared_provider] at hforce
      have hacquisition := WifCall.acquisition_of_asks h hresolve htimes
      rcases hforce with ⟨error, hformat, hforce⟩ | ⟨text, hformat, hforce⟩
      · rw [hformat] at hacquisition
        exact good_iff_of_written hconsistent h hresolve htimes hformat hforce hacquisition
      · rw [hformat] at hacquisition
        constructor
        · intro _ _ resolved' _ error hresolve' _ herror
          rw [hresolve] at hresolve'
          cases hresolve'
          rw [hformat] at herror
          cases herror
        · intro _
          exact good_of_ok h htimes hformat hforce hacquisition
  · constructor
    · intro _ hreplaces
      exact absurd (fun hasks ↦ hasks.2 (hreplaces.2.2 hasks.1)) h
    · intro _
      exact good_of_not_asks hconsistent hwindow h

theorem window_step : (s.step codec call).2.auth.refreshBeforeExpirySeconds =
    s.auth.refreshBeforeExpirySeconds := by
  have hcleared : (call.cleared s.auth).refreshBeforeExpirySeconds =
      s.auth.refreshBeforeExpirySeconds := by
    unfold WifCall.cleared
    split_ifs <;> rfl
  by_cases h : call.Asks s.auth
  · rcases DocumentedWifAuth.forceReacquire_cases codec (call.cleared s.auth) call.env
      call.now with
      ⟨_, hforce, -⟩ | ⟨_, _, -, -, ⟨_, -, hforce⟩ | ⟨_, -, hforce⟩⟩
    · rw [step, (WifCall.step_of_error h hforce).2]
      exact hcleared
    · rw [step, (WifCall.step_of_error h hforce).2]
      exact hcleared
    · rw [step, (WifCall.step_of_ok h hforce).1]
      exact hcleared
  · rw [step, (WifCall.step_of_not_asks codec h).1]

/-- What a run whose calls all keep the times holds on to. -/
theorem Runs.invariant {auth₀ : DocumentedWifAuth} {trace : List (WifCall × WifAnswer)}
    (hfresh : auth₀.cachedCredential = none)
    (hwindow : auth₀.refreshBeforeExpirySeconds.toNat < 2 ^ 63)
    (h : Runs codec (KeepsTimes codec) auth₀ trace s) :
    s.Consistent codec ∧ s.auth.refreshBeforeExpirySeconds.toNat < 2 ^ 63 := by
  refine Mealy.Runs.invariant (I := fun _ s ↦
    s.Consistent codec ∧ s.auth.refreshBeforeExpirySeconds.toNat < 2 ^ 63) ?_ ?_ h
  · refine ⟨?_, hwindow⟩
    intro token hcached
    rw [hfresh] at hcached
    cases hcached
  · intro trace s call ⟨hconsistent, hwindow⟩ hkeeps
    exact ⟨((good_iff hconsistent hwindow).mpr hkeeps).consistent, by rwa [window_step]⟩

end ObservedWif

section Example

def exampleWif : DocumentedWifAuth where
  provider := .oidc
  assertionSource := .envVar "OIDC_TOKEN".toList
  refreshBeforeExpirySeconds := 60
  credentialHandle := none
  cachedCredential := none
  cachedIssuedAtUnixSeconds := none
  cachedExpiresAtUnixSeconds := none

/-- A token that expires at the second 1000. -/
def exampleJwt : SecretValue where
  value := "eyJhbGciOiJSUzI1NiJ9.".toList ++ exampleClaimsSegment ++ ".c2ln".toList
  trim_ne_nil := by decide +kernel

def exampleHeadersAt (now : Int) (resolved : SecretValue) : WifCall where
  entry := .headersWithResolverAt
  now := now
  env := { exampleEnv with readEnvSecret := fun _ ↦ .ok resolved }

/-- The state after the token was acquired at the second 0. -/
def exampleCached : ObservedWif :=
  ⟨{ exampleWif.withTimes (some 0, some 1000) with cachedCredential := some exampleJwt },
    some (exampleJwt, 0)⟩

end Example

end FrankenSnowflake.Auth
