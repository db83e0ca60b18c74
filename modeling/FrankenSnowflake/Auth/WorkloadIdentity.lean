import FrankenSnowflake.Auth.Assertion
import FrankenSnowflake.Auth.KeyPairSession

/-!
# Sessions of exchanged tokens

A checked assertion is exchanged for a session token at the token endpoint,
whose answer says how long the token is good for.
-/

namespace FrankenSnowflake.Auth

open Foundation Foundation.Signed

/-! ## The token request -/

def RFC7523_JWT_BEARER_GRANT_TYPE : Text := "urn:ietf:params:oauth:grant-type:jwt-bearer".toList

def DEFAULT_OIDC_SCOPE : Text := "session:role-any".toList

def isUnreserved (byte : UInt8) : Bool :=
  (Char.ofNat byte.toNat).isAlphanum || byte = 0x2d || byte = 0x5f || byte = 0x2e || byte = 0x7e

def upperHexDigit (nibble : Nat) : Char :=
  Char.ofNat (if nibble < 10 then '0'.toNat + nibble else 'A'.toNat + (nibble - 10))

def urlEncode (input : Text) : Text :=
  (Utf8.encode input).flatMap fun byte ↦
    if isUnreserved byte then [Char.ofNat byte.toNat]
    else ['%', upperHexDigit (byte.toNat / 16), upperHexDigit (byte.toNat % 16)]

def formatRfc7523FormBody (assertion : Text) (scope clientId : Option Text) : Text :=
  let clientId := clientId.filter fun clientId ↦ Unicode.trim clientId ≠ []
  ['&'].intercalate ([
    "grant_type=".toList ++ urlEncode RFC7523_JWT_BEARER_GRANT_TYPE,
    "assertion=".toList ++ urlEncode assertion,
    "scope=".toList ++ urlEncode (scope.getD DEFAULT_OIDC_SCOPE)] ++
    (clientId.map fun clientId ↦ "client_id=".toList ++ urlEncode clientId).toList)

/-- A POST to an URL with a form body: the status and the body of the answer. -/
abbrev PostForm : Type := Text → Text → Except AuthError (UInt16 × List UInt8)

/-! ## Session tokens -/

structure SnowflakeSessionToken where
  sessionToken : SecretValue
  tokenType : Text
  issuedAtUnixSeconds : Int
  expiresAtUnixSeconds : Int
  scope : Option Text

namespace SnowflakeSessionToken

def new (token tokenType : Text) (issuedAtUnixSeconds expiresAtUnixSeconds : Int)
    (scope : Option Text) : Except AuthError SnowflakeSessionToken := do
  return ⟨← SecretValue.new token, tokenType, issuedAtUnixSeconds, expiresAtUnixSeconds, scope⟩

def needsRefresh (token : SnowflakeSessionToken) (nowUnixSeconds : Int)
    (refreshWindowSeconds : UInt64) : Bool :=
  satSub token.expiresAtUnixSeconds nowUnixSeconds ≤ ofU64 refreshWindowSeconds

end SnowflakeSessionToken

section Response

variable (codec : Codec)

/-- The message of a refusal. -/
def tokenErrorMessage (body : List UInt8) : Text :=
  match codec.fromSlice body with
  | .error _ => Utf8.fromUtf8Lossy body
  | .ok val =>
      let member := val.get? "error_description".toList <|> val.get? "error".toList <|>
        val.get? "message".toList
      (member.bind JsonValue.asStr?).getD "unknown error".toList

/-- How long the token of an answer is good for. -/
def expiresIn (parsed : JsonValue) : UInt64 :=
  ((parsed.get? "expires_in".toList).bind JsonValue.asU64?).getD 3600

def parseRfc7523TokenResponse (statusCode : UInt16) (body : List UInt8) (nowUnixSeconds : Int) :
    Except AuthError SnowflakeSessionToken :=
  if statusCode ≠ 200 then
    .error (.oidcTokenExchangeFailed statusCode
      ("Snowflake token endpoint answered status ".toList ++ decimal statusCode.toNat ++
        ": ".toList ++ tokenErrorMessage codec body))
  else do
    let parsed ← (codec.fromSlice body).mapError fun err ↦
      .oidcTokenExchangeFailed statusCode
        ("failed to parse token endpoint JSON response: ".toList ++ err)
    match (parsed.get? "access_token".toList).bind JsonValue.asStr? with
    | none =>
        .error (.oidcTokenExchangeFailed statusCode
          "missing `access_token` in response body".toList)
    | some accessToken =>
        let tokenType :=
          ((parsed.get? "token_type".toList).bind JsonValue.asStr?).getD "Bearer".toList
        let scope := (parsed.get? "scope".toList).bind JsonValue.asStr?
        SnowflakeSessionToken.new accessToken tokenType nowUnixSeconds
          (satAdd nowUnixSeconds (ofU64 (expiresIn parsed))) scope

end Response

/-! ## The session -/

structure WorkloadIdentityAuth where
  account : Text
  user : Text
  assertionSource : OidcTokenSource
  endpointUrl : Text
  scope : Text
  clientId : Option Text
  refreshBeforeExpirySeconds : UInt64
  cachedSession : Option SnowflakeSessionToken

namespace WorkloadIdentityAuth

variable (codec : Codec) (auth : WorkloadIdentityAuth) (postForm : PostForm) (env : Environment)
  (nowUnixSeconds : Int)

/-- The token of an exchange. -/
def exchange : Except AuthError SnowflakeSessionToken := do
  let rawAssertion ← auth.assertionSource.resolve env
  let _ ← parseAndValidateOidcAssertion codec rawAssertion.value nowUnixSeconds
  let formBody := formatRfc7523FormBody rawAssertion.value (some auth.scope) auth.clientId
  let (status, body) ← postForm auth.endpointUrl formBody
  parseRfc7523TokenResponse codec status body nowUnixSeconds

def exchangeTokenAt : Except AuthError SnowflakeSessionToken × WorkloadIdentityAuth :=
  match auth.exchange codec postForm env nowUnixSeconds with
  | .error error => (.error error, auth)
  | .ok sessionToken => (.ok sessionToken, { auth with cachedSession := some sessionToken })

def tokenForPollAt : Except AuthError SnowflakeSessionToken × WorkloadIdentityAuth :=
  match auth.cachedSession with
  | none => auth.exchangeTokenAt codec postForm env nowUnixSeconds
  | some token =>
      if token.needsRefresh nowUnixSeconds auth.refreshBeforeExpirySeconds then
        auth.exchangeTokenAt codec postForm env nowUnixSeconds
      else (.ok token, auth)

end WorkloadIdentityAuth

/-! ## Runs -/

/-- A call on a session, at a time, with what it finds outside the program. -/
structure ExchangeCall where
  exchange : Bool
  now : Int
  postForm : PostForm
  env : Environment

namespace ExchangeCall

variable (codec : Codec) (auth : WorkloadIdentityAuth) (call : ExchangeCall)

def step : Except AuthError SnowflakeSessionToken × WorkloadIdentityAuth :=
  if call.exchange then auth.exchangeTokenAt codec call.postForm call.env call.now
  else auth.tokenForPollAt codec call.postForm call.env call.now

/-- Whether the call asks for an exchange. -/
def Renews : Prop :=
  call.exchange ∨
    auth.cachedSession.all fun token ↦ token.needsRefresh call.now auth.refreshBeforeExpirySeconds

/-- A token that is handed out has not expired, and is good for longer than the
refresh window if it was not renewed. -/
def Served : Prop :=
  ∀ token, (call.step codec auth).1 = .ok token →
    call.now < token.expiresAtUnixSeconds ∧
      (¬ call.Renews auth →
        auth.refreshBeforeExpirySeconds.toNat < token.expiresAtUnixSeconds - call.now)

/-- The times that answers promise are at least one and less than `bound`. -/
def ExpiresWithin (bound : Nat) : Prop :=
  ∀ url form body parsed seconds, call.postForm url form = .ok (200, body) →
    codec.fromSlice body = .ok parsed →
    (parsed.get? "expires_in".toList).bind JsonValue.asU64? = some seconds →
    1 ≤ seconds.toNat ∧ seconds.toNat < bound

variable {codec auth call}

theorem expiresIn_bounds {parsed : JsonValue} {bound : Nat} (hbound : 3600 < bound)
    (h : ∀ seconds, (parsed.get? "expires_in".toList).bind JsonValue.asU64? = some seconds →
      1 ≤ seconds.toNat ∧ seconds.toNat < bound) :
    1 ≤ (expiresIn parsed).toNat ∧ (expiresIn parsed).toNat < bound := by
  unfold expiresIn
  cases hseconds : (parsed.get? "expires_in".toList).bind JsonValue.asU64? with
  | none => exact ⟨by decide, hbound⟩
  | some seconds => exact h seconds hseconds

/-- When the token of an exchange expires. -/
theorem expiresAt_of_exchange {token : SnowflakeSessionToken} {bound : Nat} (hbound : 3600 < bound)
    (hwithin : call.ExpiresWithin codec bound)
    (h : auth.exchange codec call.postForm call.env call.now = .ok token) :
    ∃ seconds : UInt64, 1 ≤ seconds.toNat ∧ seconds.toNat < bound ∧
      token.expiresAtUnixSeconds = satAdd call.now (ofU64 seconds) := by
  obtain ⟨rawAssertion, -, h⟩ := bind_eq_ok_iff.mp h
  obtain ⟨claims, -, h⟩ := bind_eq_ok_iff.mp h
  obtain ⟨⟨status, body⟩, hpost, h⟩ := bind_eq_ok_iff.mp h
  simp only [parseRfc7523TokenResponse] at h
  split_ifs at h with hstatus
  rw [not_not] at hstatus
  subst hstatus
  obtain ⟨parsed, hparsed, h⟩ := bind_eq_ok_iff.mp h
  have hparsed' : codec.fromSlice body = .ok parsed := by
    cases hslice : codec.fromSlice body with
    | error err => simp [hslice, Except.mapError] at hparsed
    | ok parsed' => simpa [hslice, Except.mapError] using hparsed
  split at h
  next => cases h
  next accessToken _ =>
    obtain ⟨secret, -, h⟩ := bind_eq_ok_iff.mp h
    cases h
    obtain ⟨hpos, hlt⟩ := expiresIn_bounds hbound (hwithin _ _ _ _ · hpost hparsed')
    exact ⟨expiresIn parsed, hpos, hlt, rfl⟩

theorem step_of_renews (h : call.Renews auth) :
    call.step codec auth = auth.exchangeTokenAt codec call.postForm call.env call.now := by
  unfold step
  split_ifs with hexchange
  · rfl
  · have hrefresh := h.resolve_left hexchange
    unfold WorkloadIdentityAuth.tokenForPollAt
    split
    next => rfl
    next token hcached =>
      rw [hcached, Option.all_some] at hrefresh
      exact if_pos hrefresh

theorem step_of_not_renews (h : ¬ call.Renews auth) : ∃ token, auth.cachedSession = some token ∧
    ¬ token.needsRefresh call.now auth.refreshBeforeExpirySeconds ∧
    call.step codec auth = (.ok token, auth) := by
  obtain ⟨hexchange, hrefresh⟩ := not_or.mp h
  cases hcached : auth.cachedSession with
  | none => exact absurd (by rw [hcached]; rfl) hrefresh
  | some token =>
      rw [hcached, Option.all_some] at hrefresh
      refine ⟨token, rfl, hrefresh, ?_⟩
      simp only [step, hexchange, WorkloadIdentityAuth.tokenForPollAt, hcached, hrefresh]
      rfl

/-- A call fails and leaves the session, keeps the token of an exchange, or
hands out the one of the session. -/
theorem step_cases (codec : Codec) (auth : WorkloadIdentityAuth) (call : ExchangeCall) :
    (∃ error, call.step codec auth = (.error error, auth)) ∨
    (call.Renews auth ∧ ∃ token,
      auth.exchange codec call.postForm call.env call.now = .ok token ∧
      call.step codec auth = (.ok token, { auth with cachedSession := some token })) ∨
    (¬ call.Renews auth ∧ ∃ token, auth.cachedSession = some token ∧
      ¬ token.needsRefresh call.now auth.refreshBeforeExpirySeconds ∧
      call.step codec auth = (.ok token, auth)) := by
  by_cases hrenews : call.Renews auth
  · rw [step_of_renews hrenews, WorkloadIdentityAuth.exchangeTokenAt]
    cases hexchange : auth.exchange codec call.postForm call.env call.now with
    | error error => exact .inl ⟨error, rfl⟩
    | ok token => exact .inr (.inl ⟨hrenews, token, rfl, rfl⟩)
  · exact .inr (.inr ⟨hrenews, step_of_not_renews hrenews⟩)

theorem served (hnow : 0 ≤ call.now ∧ call.now ≤ 2 ^ 62)
    (hwithin : call.ExpiresWithin codec (2 ^ 63))
    (hwindow : auth.refreshBeforeExpirySeconds.toNat < 2 ^ 63) : call.Served codec auth := by
  intro token h
  rcases call.step_cases codec auth with ⟨error, hstep⟩ |
    ⟨hrenews, token', hexchange, hstep⟩ | ⟨hrenews, token', -, hrefresh, hstep⟩
  · rw [hstep] at h
    cases h
  · rw [hstep] at h
    cases h
    obtain ⟨seconds, hpos, hlt, hexpires⟩ := expiresAt_of_exchange (by omega) hwithin hexchange
    have hlater : call.now < token.expiresAtUnixSeconds := by
      rw [hexpires, ofU64_of_lt hlt]
      exact lt_satAdd (by unfold minI64; omega) (by unfold maxI64; omega) (by omega)
    exact ⟨hlater, fun h ↦ absurd hrenews h⟩
  · rw [hstep] at h
    cases h
    rw [SnowflakeSessionToken.needsRefresh, decide_eq_true_eq, Int.not_le, ofU64_of_lt hwindow]
      at hrefresh
    have hlife := lt_of_nonneg_lt_satSub (Int.natCast_nonneg _) hrefresh
    exact ⟨by omega, fun _ ↦ hlife⟩

/-- The calls at times that a clock shows, with answers that promise a time of
at least one and less than `bound`. -/
def AtClock (codec : Codec) (bound : Nat) (_auth : WorkloadIdentityAuth) (call : ExchangeCall) :
    Prop := (0 ≤ call.now ∧ call.now ≤ 2 ^ 62) ∧ call.ExpiresWithin codec bound

/-- The runs of a session. -/
abbrev Runs (codec : Codec) (bound : Nat) : WorkloadIdentityAuth →
    List (ExchangeCall × Except AuthError SnowflakeSessionToken) → WorkloadIdentityAuth → Prop :=
  Mealy.Runs (fun auth call ↦ call.step codec auth) (AtClock codec bound)

theorem Runs.window {bound : Nat} {auth₀ : WorkloadIdentityAuth}
    {trace : List (ExchangeCall × Except AuthError SnowflakeSessionToken)}
    (h : Runs codec bound auth₀ trace auth) :
    auth.refreshBeforeExpirySeconds = auth₀.refreshBeforeExpirySeconds := by
  refine Mealy.Runs.invariant (I := fun _ auth ↦
    auth.refreshBeforeExpirySeconds = auth₀.refreshBeforeExpirySeconds) rfl ?_ h
  intro trace auth call ih _
  rcases call.step_cases codec auth with ⟨_, hstep⟩ | ⟨_, _, _, hstep⟩ |
    ⟨_, _, _, _, hstep⟩
  all_goals
    rw [hstep]
    exact ih

/-- Along every run of a clock that does not go back, all tokens are served. -/
def NoExpiredToken (codec : Codec) (bound : Nat) (auth₀ : WorkloadIdentityAuth) : Prop :=
  ∀ trace auth call, Runs codec bound auth₀ trace auth → AtClock codec bound auth call →
    (trace.map (fun e ↦ e.1.now) ++ [call.now]).Pairwise (· ≤ ·) → call.Served codec auth

theorem noExpiredToken {auth₀ : WorkloadIdentityAuth}
    (hwindow : auth₀.refreshBeforeExpirySeconds.toNat < 2 ^ 63) :
    NoExpiredToken codec (2 ^ 63) auth₀ := by
  intro trace auth call h hclock _
  exact served hclock.1 hclock.2 (Runs.window h ▸ hwindow)

end ExchangeCall

/-! ## No expired token -/

/-- No session hands out an expired token or keeps one into its refresh window,
where the window is no negative number to a signed clock; nor do the answers of
the token endpoint make it so. -/
theorem no_expired_token_of_signed_window (session₀ : KeyPairJwtRefreshSession) (codec : Codec)
    (auth₀ : WorkloadIdentityAuth) :
    (session₀.requestedValiditySeconds ≠ 0 →
      (KeyPairCall.NoExpiredToken session₀ ↔
        session₀.refreshBeforeExpirySeconds.toNat < 2 ^ 63)) ∧
    (auth₀.refreshBeforeExpirySeconds.toNat < 2 ^ 63 →
      ExchangeCall.NoExpiredToken codec (2 ^ 63) auth₀) := by
  constructor
  · intro hvalidity
    constructor
    · exact not_imp_not.mp (KeyPairCall.not_noExpiredToken hvalidity)
    · exact KeyPairCall.noExpiredToken hvalidity
  · exact ExchangeCall.noExpiredToken

section Example

def exampleSigner : KeyPairJwtSigner where
  subject := "ACCT.USER".toList
  issuerPrefix := "ACCT.USER.SHA256:key".toList
  publicKeyFingerprint := "SHA256:key".toList

/-- A session whose tokens are good for one second. -/
def exampleKeyPairSession (window : UInt64) : KeyPairJwtRefreshSession :=
  (exampleSigner.refreshSession 1).withRefreshBeforeExpirySeconds window

/-- The token that is signed at the second 0. -/
def exampleSigned : SignedKeyPairJwt where
  token := "t".toList
  claims := ⟨exampleSigner.issuerPrefix, exampleSigner.subject, 0, 1⟩
  publicKeyFingerprint := exampleSigner.publicKeyFingerprint
  issuedAtUnixSeconds := 0
  expiresAtUnixSeconds := 1

def exampleAuth (window : UInt64) : WorkloadIdentityAuth where
  account := "acct".toList
  user := "user".toList
  assertionSource := .envVar "OIDC_TOKEN".toList
  endpointUrl := "https://acct.snowflakecomputing.com/oauth/token-request".toList
  scope := DEFAULT_OIDC_SCOPE
  clientId := none
  refreshBeforeExpirySeconds := window
  cachedSession := none

def exampleClaimsSegment : Text := "eyJleHAiOjEwMDB9".toList

/-- The payload of a token that expires at the second 1000. -/
def exampleClaims : List UInt8 := Utf8.encode "\x7b\"exp\":1000\x7d".toList

def exampleAnswer (seconds : UInt64) : List UInt8 :=
  Utf8.encode ("\x7b\"access_token\":\"t\",\"expires_in\":".toList ++
    decimal seconds.toNat ++ ['\x7d'])

def exampleAnswerValue (seconds : UInt64) : JsonValue :=
  .object [("access_token".toList, .string "t".toList),
    ("expires_in".toList, .number (.posInt seconds))]

def exampleFromSlice (seconds : UInt64) (bytes : List UInt8) : Except Text JsonValue :=
  if bytes = exampleClaims then .ok (.object [("exp".toList, .number (.posInt 1000))])
  else if bytes = exampleAnswer seconds then .ok (exampleAnswerValue seconds)
  else .error "expected value at line 1 column 1".toList

/-- Decoders that know one segment, and a reader that knows two texts. -/
def exampleCodec (seconds : UInt64) : Codec where
  urlSafeNoPad segment :=
    if segment = exampleClaimsSegment then .ok exampleClaims else .error "Invalid padding".toList
  urlSafe _ := .error "Invalid padding".toList
  standard _ := .error "Invalid padding".toList
  fromSlice := exampleFromSlice seconds

theorem exampleCodec_fromSlice (seconds : UInt64) :
    (exampleCodec seconds).fromSlice = exampleFromSlice seconds := rfl

def exampleEnv : Environment where
  readEnvSecret _ := SecretValue.new ("eyJhbGciOiJSUzI1NiJ9.".toList ++ exampleClaimsSegment ++
    ".c2ln".toList)
  readToString _ := .error "No such file or directory (os error 2)".toList
  readProviderSecret handle := .error (.unsupportedSecretProvider handle)

def exampleExchange (seconds : UInt64) : ExchangeCall where
  exchange := true
  now := 0
  postForm _ _ := .ok (200, exampleAnswer seconds)
  env := exampleEnv

theorem atClock_exampleExchange {seconds : UInt64} (auth : WorkloadIdentityAuth) {bound : Nat}
    (hanswer : exampleAnswer seconds ≠ exampleClaims) (hpos : 1 ≤ seconds.toNat)
    (hlt : seconds.toNat < bound) :
    ExchangeCall.AtClock (exampleCodec seconds) bound auth (exampleExchange seconds) := by
  refine ⟨⟨le_rfl, Int.le_of_lt (by decide : (0 : Int) < 2 ^ 62)⟩, ?_⟩
  intro url form body parsed seconds' hpost hparsed hseconds
  cases hpost
  have hslice : (exampleCodec seconds).fromSlice (exampleAnswer seconds) =
      .ok (exampleAnswerValue seconds) := by
    rw [exampleCodec_fromSlice, exampleFromSlice, if_neg hanswer, if_pos rfl]
  rw [hslice] at hparsed
  cases hparsed
  have hexpires : ((exampleAnswerValue seconds).get? "expires_in".toList).bind JsonValue.asU64? =
      some seconds := by
    have hkey : "access_token".toList ≠ "expires_in".toList := by decide +kernel
    rw [exampleAnswerValue, JsonValue.get?_cons_of_ne hkey, JsonValue.get?_cons_self]
    rfl
  rw [hexpires] at hseconds
  cases hseconds
  exact ⟨hpos, hlt⟩

/-- With a window of `2 ^ 64 - 1` seconds a token is handed out at the end of
its validity; with a promise of `2 ^ 64 - 1` seconds one is handed out that has
expired the second before. -/
theorem expired_token_of_wrapped_seconds :
    ¬ KeyPairCall.NoExpiredToken (exampleKeyPairSession 0xffffffffffffffff) ∧
      ¬ ExchangeCall.NoExpiredToken (exampleCodec 0xffffffffffffffff) (2 ^ 64) (exampleAuth 60) := by
  constructor
  · intro h
    let poll (now : Int) : KeyPairCall := ⟨false, now, fun _ ↦ .ok "t".toList⟩
    let session₁ := { exampleKeyPairSession 0xffffffffffffffff with current := some exampleSigned }
    have hsign : (poll 0).step (exampleKeyPairSession 0xffffffffffffffff) =
        (.ok exampleSigned, session₁) := rfl
    have hpoll : (poll 1).step session₁ = (.ok exampleSigned, session₁) := rfl
    have hserved := h _ _ (poll 1) (Mealy.Runs.nil.snoc_eq ⟨le_rfl, by decide⟩ hsign)
      ⟨by decide, by decide⟩ (by simp [poll])
    exact absurd (hserved exampleSigned (by rw [hpoll])).1 (by decide)
  · intro h
    have hserved := h [] _ (exampleExchange 0xffffffffffffffff) .nil
      (atClock_exampleExchange _ (by decide +kernel) (by decide) (by decide)) (by simp)
    have hexchange : ∃ token, ((exampleExchange 0xffffffffffffffff).step
        (exampleCodec 0xffffffffffffffff) (exampleAuth 60)).1 = .ok token ∧
        token.expiresAtUnixSeconds = -1 := exists_ok_of_map (by decide +kernel)
    obtain ⟨token, htoken, hexpires⟩ := hexchange
    exact absurd (hserved token htoken).1 (by rw [hexpires]; decide)

/-- Where the window is a minute and the answer promises an hour, all tokens are
served. -/
theorem no_expired_token_of_minute : KeyPairCall.NoExpiredToken (exampleKeyPairSession 60) ∧
    ExchangeCall.NoExpiredToken (exampleCodec 3600) (2 ^ 63) (exampleAuth 60) ∧
    ExchangeCall.AtClock (exampleCodec 3600) (2 ^ 63) (exampleAuth 60) (exampleExchange 3600) :=
  have hwindow := no_expired_token_of_signed_window (exampleKeyPairSession 60) (exampleCodec 3600)
    (exampleAuth 60)
  ⟨(hwindow.1 (by decide)).mpr (by decide), hwindow.2 (by decide),
    atClock_exampleExchange _ (by decide +kernel) (by decide) (by decide)⟩

end Example

end FrankenSnowflake.Auth
