import FrankenSnowflake.Auth.Secret
import FrankenSnowflake.Foundation.Fallible
import FrankenSnowflake.Foundation.Mealy
import FrankenSnowflake.Foundation.Signed

/-!
# Sessions of key-pair tokens

A session signs a token when it has none or when the one it has runs out within
the refresh window, and hands out the one it has otherwise.
-/

namespace FrankenSnowflake.Auth

open Foundation Foundation.Signed

def MAX_JWT_VALIDITY_SECONDS : UInt64 := 3600

def DEFAULT_REFRESH_BEFORE_EXPIRY_SECONDS : UInt64 := 60

structure SnowflakeJwtClaims where
  iss : Text
  sub : Text
  iat : Int
  exp : Int
deriving DecidableEq, Repr

structure SignedKeyPairJwt where
  token : Text
  claims : SnowflakeJwtClaims
  publicKeyFingerprint : Text
  issuedAtUnixSeconds : Int
  expiresAtUnixSeconds : Int
deriving DecidableEq, Repr

structure KeyPairJwtSigner where
  subject : Text
  issuerPrefix : Text
  publicKeyFingerprint : Text
deriving DecidableEq, Repr

/-- What signing the claims with the private key returns. -/
abbrev Encode : Type := SnowflakeJwtClaims → Except Text Text

namespace KeyPairJwtSigner

variable (signer : KeyPairJwtSigner)

def claimsAt (issuedAtUnixSeconds : Int) (requestedValiditySeconds : UInt64) :
    Except AuthError SnowflakeJwtClaims :=
  if requestedValiditySeconds = 0 then .error .invalidValiditySeconds
  else
    let validitySeconds := min requestedValiditySeconds MAX_JWT_VALIDITY_SECONDS
    .ok { iss := signer.issuerPrefix
          sub := signer.subject
          iat := issuedAtUnixSeconds
          exp := satAdd issuedAtUnixSeconds (ofU64 validitySeconds) }

def signAt (encode : Encode) (issuedAtUnixSeconds : Int) (requestedValiditySeconds : UInt64) :
    Except AuthError SignedKeyPairJwt := do
  let claims ← signer.claimsAt issuedAtUnixSeconds requestedValiditySeconds
  let token ← (encode claims).mapError .jwtSigning
  return { token := token
           claims := claims
           publicKeyFingerprint := signer.publicKeyFingerprint
           issuedAtUnixSeconds := issuedAtUnixSeconds
           expiresAtUnixSeconds := claims.exp }

end KeyPairJwtSigner

structure KeyPairJwtRefreshSession where
  signer : KeyPairJwtSigner
  requestedValiditySeconds : UInt64
  refreshBeforeExpirySeconds : UInt64
  current : Option SignedKeyPairJwt
deriving DecidableEq, Repr

def KeyPairJwtSigner.refreshSession (signer : KeyPairJwtSigner)
    (requestedValiditySeconds : UInt64) : KeyPairJwtRefreshSession :=
  ⟨signer, requestedValiditySeconds, DEFAULT_REFRESH_BEFORE_EXPIRY_SECONDS, none⟩

namespace KeyPairJwtRefreshSession

def withRefreshBeforeExpirySeconds (session : KeyPairJwtRefreshSession) (seconds : UInt64) :
    KeyPairJwtRefreshSession :=
  { session with refreshBeforeExpirySeconds := seconds }

variable (session : KeyPairJwtRefreshSession)

def shouldRefresh (nowUnixSeconds : Int) : Bool :=
  session.current.all fun signed ↦
    satSub signed.expiresAtUnixSeconds nowUnixSeconds ≤ ofU64 session.refreshBeforeExpirySeconds

def forceResignAt (encode : Encode) (nowUnixSeconds : Int) :
    Except AuthError SignedKeyPairJwt × KeyPairJwtRefreshSession :=
  match session.signer.signAt encode nowUnixSeconds session.requestedValiditySeconds with
  | .error error => (.error error, session)
  | .ok signed => (.ok signed, { session with current := some signed })

def tokenForPollAt (encode : Encode) (nowUnixSeconds : Int) :
    Except AuthError SignedKeyPairJwt × KeyPairJwtRefreshSession :=
  if session.shouldRefresh nowUnixSeconds then
    match session.signer.signAt encode nowUnixSeconds session.requestedValiditySeconds with
    | .error error => (.error error, session)
    | .ok signed => (.ok signed, { session with current := some signed })
  else
    match session.current with
    | none =>
        (.error (.jwtSigning "refresh session did not retain a signed token".toList), session)
    | some signed => (.ok signed, session)

end KeyPairJwtRefreshSession

/-! ## Runs -/

/-- A call on a session, at a time. -/
structure KeyPairCall where
  force : Bool
  now : Int
  encode : Encode

namespace KeyPairCall

variable (session : KeyPairJwtRefreshSession) (call : KeyPairCall)

def step : Except AuthError SignedKeyPairJwt × KeyPairJwtRefreshSession :=
  if call.force then session.forceResignAt call.encode call.now
  else session.tokenForPollAt call.encode call.now

/-- Whether the call asks for a signature. -/
def Renews : Prop := call.force ∨ session.shouldRefresh call.now

/-- A token that is handed out has not expired, and is good for longer than the
refresh window if it was not renewed. -/
def Served : Prop :=
  ∀ signed, (call.step session).1 = .ok signed →
    call.now < signed.expiresAtUnixSeconds ∧
      (¬ call.Renews session →
        session.refreshBeforeExpirySeconds.toNat < signed.expiresAtUnixSeconds - call.now)

/-- A call fails and leaves the session, keeps the token that it signed, or hands
out the one of the session. -/
theorem step_cases : (∃ error, call.step session = (.error error, session)) ∨
    (call.Renews session ∧ ∃ signed,
      session.signer.signAt call.encode call.now session.requestedValiditySeconds = .ok signed ∧
      call.step session = (.ok signed, { session with current := some signed })) ∨
    (¬ call.Renews session ∧ ∃ signed, session.current = some signed ∧
      call.step session = (.ok signed, session)) := by
  unfold step
  split_ifs with hforce
  · unfold KeyPairJwtRefreshSession.forceResignAt
    split
    next error _ => exact .inl ⟨error, rfl⟩
    next signed hsign => exact .inr (.inl ⟨.inl hforce, signed, hsign, rfl⟩)
  · unfold KeyPairJwtRefreshSession.tokenForPollAt
    split_ifs with hrefresh
    · split
      next error _ => exact .inl ⟨error, rfl⟩
      next signed hsign => exact .inr (.inl ⟨.inr hrefresh, signed, hsign, rfl⟩)
    · split
      next => exact .inl ⟨_, rfl⟩
      next signed hcurrent =>
        have hrenews : ¬ call.Renews session := not_or.mpr ⟨hforce, hrefresh⟩
        exact .inr (.inr ⟨hrenews, signed, hcurrent, rfl⟩)

/-- No call changes how long tokens are asked for. -/
theorem step_config : (call.step session).2.requestedValiditySeconds =
      session.requestedValiditySeconds ∧
    (call.step session).2.refreshBeforeExpirySeconds = session.refreshBeforeExpirySeconds := by
  rcases call.step_cases session with ⟨_, h⟩ | ⟨_, _, _, h⟩ | ⟨_, _, _, h⟩
  all_goals
    rw [h]
    exact ⟨rfl, rfl⟩

end KeyPairCall

/-- A signed token expires at the end of its validity, of at most an hour. -/
theorem KeyPairJwtSigner.expiresAt_of_signAt {signer : KeyPairJwtSigner} {encode : Encode}
    {now : Int} {validity : UInt64} {signed : SignedKeyPairJwt}
    (h : signer.signAt encode now validity = .ok signed) :
    signed.expiresAtUnixSeconds =
      satAdd now (ofU64 (min validity MAX_JWT_VALIDITY_SECONDS)) := by
  obtain ⟨claims, hclaims, h⟩ := bind_eq_ok_iff.mp h
  obtain ⟨token, -, h⟩ := bind_eq_ok_iff.mp h
  cases h
  unfold claimsAt at hclaims
  split_ifs at hclaims
  cases hclaims
  rfl

/-- The seconds that a token is valid for. -/
theorem validity_bounds {validity : UInt64} (h : validity ≠ 0) :
    0 < ofU64 (min validity MAX_JWT_VALIDITY_SECONDS) ∧
      ofU64 (min validity MAX_JWT_VALIDITY_SECONDS) ≤ 3600 := by
  have hpos : 0 < validity.toNat := by
    rcases Nat.eq_zero_or_pos validity.toNat with hzero | hpos
    · exact absurd (UInt64.toNat_inj.mp hzero) h
    · exact hpos
  have hmin : (min validity MAX_JWT_VALIDITY_SECONDS).toNat = min validity.toNat 3600 := by
    rw [UInt64.toNat_min]
    rfl
  rw [ofU64_of_lt (by omega), hmin]
  omega

namespace KeyPairCall

variable {session : KeyPairJwtRefreshSession} {call : KeyPairCall}

/-- The token of a session that is not renewed outlives the refresh window. -/
theorem lt_of_not_renews {signed : SignedKeyPairJwt}
    (hwindow : session.refreshBeforeExpirySeconds.toNat < 2 ^ 63) (h : ¬ call.Renews session)
    (hcurrent : session.current = some signed) :
    session.refreshBeforeExpirySeconds.toNat < signed.expiresAtUnixSeconds - call.now := by
  have hrefresh : ¬ session.shouldRefresh call.now := fun hrefresh ↦ h (.inr hrefresh)
  rw [KeyPairJwtRefreshSession.shouldRefresh, hcurrent, Option.all_some, decide_eq_true_eq,
    Int.not_le, ofU64_of_lt hwindow] at hrefresh
  exact lt_of_nonneg_lt_satSub (Int.natCast_nonneg _) hrefresh

theorem served (hnow : 0 ≤ call.now ∧ call.now ≤ 2 ^ 62)
    (hvalidity : session.requestedValiditySeconds ≠ 0)
    (hwindow : session.refreshBeforeExpirySeconds.toNat < 2 ^ 63) : call.Served session := by
  intro signed h
  rcases call.step_cases session with ⟨error, hstep⟩ | ⟨hrenews, signed', hsign, hstep⟩ |
    ⟨hrenews, signed', hcurrent, hstep⟩
  · rw [hstep] at h
    cases h
  · rw [hstep] at h
    cases h
    have hlater : call.now < signed.expiresAtUnixSeconds := by
      rw [KeyPairJwtSigner.expiresAt_of_signAt hsign]
      exact lt_satAdd (by unfold minI64; omega) (by unfold maxI64; omega)
        (validity_bounds hvalidity).1
    exact ⟨hlater, fun h ↦ absurd hrenews h⟩
  · rw [hstep] at h
    cases h
    have hlife := lt_of_not_renews hwindow hrenews hcurrent
    exact ⟨by omega, fun _ ↦ hlife⟩

/-- The calls at times that a clock shows. -/
def AtClock (_session : KeyPairJwtRefreshSession) (call : KeyPairCall) : Prop :=
  0 ≤ call.now ∧ call.now ≤ 2 ^ 62

/-- The runs of a session. -/
abbrev Runs : KeyPairJwtRefreshSession →
    List (KeyPairCall × Except AuthError SignedKeyPairJwt) → KeyPairJwtRefreshSession → Prop :=
  Mealy.Runs (fun session call ↦ call.step session) AtClock

theorem Runs.config {session₀ : KeyPairJwtRefreshSession}
    {trace : List (KeyPairCall × Except AuthError SignedKeyPairJwt)}
    (h : Runs session₀ trace session) :
    session.requestedValiditySeconds = session₀.requestedValiditySeconds ∧
      session.refreshBeforeExpirySeconds = session₀.refreshBeforeExpirySeconds := by
  refine Mealy.Runs.invariant (I := fun _ session ↦
    session.requestedValiditySeconds = session₀.requestedValiditySeconds ∧
      session.refreshBeforeExpirySeconds = session₀.refreshBeforeExpirySeconds) ⟨rfl, rfl⟩ ?_ h
  intro trace session call ih _
  obtain ⟨hvalidity, hwindow⟩ := call.step_config session
  exact ⟨hvalidity.trans ih.1, hwindow.trans ih.2⟩

/-- Along every run of a clock that does not go back, all tokens are served. -/
def NoExpiredToken (session₀ : KeyPairJwtRefreshSession) : Prop :=
  ∀ trace session call, Runs session₀ trace session → AtClock session call →
    (trace.map (fun e ↦ e.1.now) ++ [call.now]).Pairwise (· ≤ ·) → call.Served session

theorem noExpiredToken {session₀ : KeyPairJwtRefreshSession}
    (hvalidity : session₀.requestedValiditySeconds ≠ 0)
    (hwindow : session₀.refreshBeforeExpirySeconds.toNat < 2 ^ 63) : NoExpiredToken session₀ := by
  intro trace session call h hclock _
  obtain ⟨hvalidity', hwindow'⟩ := Runs.config h
  exact served hclock (hvalidity' ▸ hvalidity) (hwindow' ▸ hwindow)

/-- A window from `2 ^ 63` on is read as a negative one: a token that was just
signed is handed out again, with an hour left at most. -/
theorem not_noExpiredToken {session₀ : KeyPairJwtRefreshSession}
    (hvalidity : session₀.requestedValiditySeconds ≠ 0)
    (hwindow : ¬ session₀.refreshBeforeExpirySeconds.toNat < 2 ^ 63) :
    ¬ NoExpiredToken session₀ := by
  intro h
  obtain ⟨hpos, hle⟩ := validity_bounds hvalidity
  obtain ⟨signed, hsign⟩ : ∃ signed,
      session₀.signer.signAt (fun _ ↦ .ok []) 0 session₀.requestedValiditySeconds = .ok signed := by
    rw [KeyPairJwtSigner.signAt, KeyPairJwtSigner.claimsAt, if_neg hvalidity]
    exact ⟨_, rfl⟩
  have hexpires := KeyPairJwtSigner.expiresAt_of_signAt hsign
  rw [satAdd, Int.zero_add, clamp_of_inRange ⟨by unfold minI64; omega, by unfold maxI64; omega⟩]
    at hexpires
  have hforce : step session₀ ⟨true, 0, fun _ ↦ .ok []⟩ =
      (.ok signed, { session₀ with current := some signed }) := by
    rw [step, if_pos rfl, KeyPairJwtRefreshSession.forceResignAt, hsign]
  have hserved := h _ _ ⟨false, 0, fun _ ↦ .ok []⟩
    (Mealy.Runs.nil.snoc_eq ⟨le_rfl, by decide⟩ hforce) ⟨le_rfl, by decide⟩ (by simp)
  have hrefresh : ({ session₀ with current := some signed } :
      KeyPairJwtRefreshSession).shouldRefresh 0 = false := by
    have hnonneg := mt ofU64_nonneg_iff.mp hwindow
    rw [KeyPairJwtRefreshSession.shouldRefresh, Option.all_some, decide_eq_false_iff_not, satSub,
      Int.sub_zero, hexpires,
      clamp_of_inRange ⟨by unfold minI64; omega, by unfold maxI64; omega⟩]
    show ¬ _ ≤ ofU64 session₀.refreshBeforeExpirySeconds
    omega
  have hpoll : (step { session₀ with current := some signed } ⟨false, 0, fun _ ↦ .ok []⟩).1 =
      .ok signed := by
    simp [step, KeyPairJwtRefreshSession.tokenForPollAt, hrefresh]
  have hlife := (hserved signed hpoll).2 (by simp [Renews, hrefresh])
  simp only [hexpires] at hlife
  omega

end KeyPairCall

end FrankenSnowflake.Auth
