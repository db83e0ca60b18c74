import FrankenSnowflake.Auth.Secret
import FrankenSnowflake.Foundation.Fallible
import FrankenSnowflake.Foundation.JsonValue
import FrankenSnowflake.Foundation.Utf8

/-!
# Assertions of workload identity

An assertion is a JSON web token whose middle segment holds its claims.  It is
checked before a request is sent: it has to name its expiry, and to outlive the
time of the check.
-/

namespace FrankenSnowflake.Auth

open Foundation

/-- The decoders of base64 texts and the reader of JSON texts, with the texts
of their errors. -/
structure Codec where
  urlSafeNoPad : Text → Except Text (List UInt8)
  urlSafe : Text → Except Text (List UInt8)
  standard : Text → Except Text (List UInt8)
  fromSlice : List UInt8 → Except Text JsonValue

structure OidcAssertionClaims where
  exp : Int
  iat : Option Int
  iss : Option Text
  sub : Option Text
  aud : Option Text
deriving DecidableEq, Repr

section Assertion

variable (codec : Codec)

def decodeJwtSegment (segment : Text) : Except Text (List UInt8) :=
  match codec.urlSafeNoPad segment with
  | .ok bytes => .ok bytes
  | .error _ =>
      match codec.urlSafe segment with
      | .ok bytes => .ok bytes
      | .error _ =>
          let length := (Utf8.encode segment).length
          let padded :=
            if length % 4 = 2 then segment ++ ['=', '=']
            else if length % 4 = 3 then segment ++ ['=']
            else segment
          match codec.urlSafe padded with
          | .ok bytes => .ok bytes
          | .error _ => codec.standard padded

/-- The audience, or the first one of a list. -/
def audience (v : JsonValue) : Option Text :=
  match v with
  | .string s => some s
  | .array items => items.head?.bind JsonValue.asStr?
  | .null | .bool _ | .number _ | .object _ => none

def assertionClaims (payload : JsonValue) : Except AuthError OidcAssertionClaims :=
  match (payload.get? "exp".toList).bind JsonValue.asI64? with
  | none =>
      .error (.oidcAssertionMalformed
        "missing required `exp` (expiration) timestamp claim in OIDC assertion".toList
        "ensure cloud STS / IdP issues a JWT with standard `exp` in Unix seconds")
  | some exp =>
      .ok { exp := exp
            iat := (payload.get? "iat".toList).bind JsonValue.asI64?
            iss := (payload.get? "iss".toList).bind JsonValue.asStr?
            sub := (payload.get? "sub".toList).bind JsonValue.asStr?
            aud := (payload.get? "aud".toList).bind audience }

/-- The claims of a token, before its expiry is compared with a clock. -/
def readOidcAssertion (rawJwt : Text) : Except AuthError OidcAssertionClaims := do
  let trimmed := Unicode.trim rawJwt
  let parts := trimmed.splitOn '.'
  if trimmed = [] then .error .emptySecretValue
  else if parts.length ≠ 3 then
    .error (.oidcAssertionMalformed
      ("expected 3 dot-separated JWT segments, got ".toList ++ decimal parts.length)
      "ensure the credential source yields a standard RFC 7519 JWT assertion")
  else
    let payloadBytes ← (decodeJwtSegment codec (parts.getD 1 [])).mapError fun err ↦
      .oidcAssertionMalformed ("failed to decode JWT payload base64url: ".toList ++ err)
        "ensure OIDC token payload is standard base64url encoded"
    let payload ← (codec.fromSlice payloadBytes).mapError fun err ↦
      .oidcAssertionMalformed ("failed to parse JWT payload JSON: ".toList ++ err)
        "ensure OIDC token payload is valid JSON"
    assertionClaims payload

def parseAndValidateOidcAssertion (rawJwt : Text) (nowUnixSeconds : Int) :
    Except AuthError OidcAssertionClaims := do
  let claims ← readOidcAssertion codec rawJwt
  if claims.exp ≤ nowUnixSeconds then
    .error (.oidcAssertionExpired claims.exp nowUnixSeconds
      "refresh the cloud STS or projected service account token assertion")
  else return claims

/-- An accepted assertion outlives the time of the check. -/
theorem parseAndValidateOidcAssertion_eq_ok {rawJwt : Text} {now : Int}
    {claims : OidcAssertionClaims} :
    parseAndValidateOidcAssertion codec rawJwt now = .ok claims ↔
      readOidcAssertion codec rawJwt = .ok claims ∧ now < claims.exp := by
  unfold parseAndValidateOidcAssertion
  rw [bind_eq_ok_iff]
  constructor
  · rintro ⟨claims', hread, h⟩
    split_ifs at h with hexp
    cases h
    exact ⟨hread, Int.not_le.mp hexp⟩
  · rintro ⟨hread, hexp⟩
    refine ⟨claims, hread, ?_⟩
    rw [if_neg (Int.not_le.mpr hexp)]
    rfl

end Assertion

end FrankenSnowflake.Auth
