import FrankenSnowflake.Foundation.Unicode

/-!
# Credentials and their sources

A secret is a text that is not blank.  It is resolved from a source outside the
program: a variable of the environment, a file or a secret provider.
-/

namespace FrankenSnowflake.Auth

open Foundation

abbrev Text : Type := List Char

/-! ## Errors -/

inductive AuthLane where
  | programmaticAccessToken
  | keyPairJwt
  | oAuthBearer
  | workloadIdentityFederation
deriving DecidableEq, Repr

def AuthLane.display : AuthLane → String
  | programmaticAccessToken => "programmatic_access_token"
  | keyPairJwt => "key_pair_jwt"
  | oAuthBearer => "oauth_bearer"
  | workloadIdentityFederation => "workload_identity_federation"

inductive AuthError where
  | emptyAccount
  | emptyUser
  | emptySecretSource (sourceKind : String)
  | secretSourceLooksSensitive (sourceKind : String)
  | emptySecretValue
  | missingEnvVar (name nextCommand : Text)
  | unsupportedSecretProvider (handle : Text)
  | unsupportedAuthLane (lane : AuthLane)
  | invalidPrivateKey (reason : Text)
  | invalidPublicKey (reason : Text)
  | rsaKeyTooSmall (bits : Nat)
  | jwtSigning (reason : Text)
  | invalidValiditySeconds
  | oidcAssertionExpired (expiresAtUnixSeconds nowUnixSeconds : Int) (remediation : String)
  | oidcAssertionMalformed (reason : Text) (remediation : String)
  | oidcTokenExchangeFailed (statusCode : UInt16) (reason : Text)
  | oidcAssertionIo (path reason : Text)
deriving DecidableEq, Repr

def decimal (n : Int) : Text := (toString n).toList

def AuthError.display : AuthError → Text
  | emptyAccount => "Snowflake account identifier is empty".toList
  | emptyUser => "Snowflake user is empty".toList
  | emptySecretSource sourceKind => sourceKind.toList ++ " secret source is empty".toList
  | secretSourceLooksSensitive sourceKind => sourceKind.toList ++
      " secret source looks like raw credential material; use a non-secret handle instead".toList
  | emptySecretValue => "resolved credential value is empty".toList
  | missingEnvVar name nextCommand =>
      "required credential environment variable ".toList ++ name ++
        " is not set; next command: ".toList ++ nextCommand
  | unsupportedSecretProvider handle => "secret provider handle ".toList ++ handle ++
      " is not supported by this resolver".toList
  | unsupportedAuthLane lane =>
      "auth lane ".toList ++ lane.display.toList ++ " is not implemented yet".toList
  | invalidPrivateKey reason => "invalid RSA private key material: ".toList ++ reason
  | invalidPublicKey reason => "invalid RSA public key material: ".toList ++ reason
  | rsaKeyTooSmall bits => "RSA key is ".toList ++ decimal bits ++
      " bits; Snowflake key-pair auth requires at least 2048 bits".toList
  | jwtSigning reason => "RS256 JWT signing failed: ".toList ++ reason
  | invalidValiditySeconds => "JWT validity must be greater than zero seconds".toList
  | oidcAssertionExpired expiresAt now remediation =>
      "FSNOW-2004: OIDC assertion token expired at ".toList ++ decimal expiresAt ++
        " (current time ".toList ++ decimal now ++ "); ".toList ++ remediation.toList
  | oidcAssertionMalformed reason remediation =>
      "FSNOW-2003: OIDC assertion is malformed: ".toList ++ reason ++ "; ".toList ++
        remediation.toList
  | oidcTokenExchangeFailed statusCode reason =>
      "FSNOW-2003: OIDC token exchange failed (HTTP ".toList ++ decimal statusCode.toNat ++
        "): ".toList ++ reason
  | oidcAssertionIo path reason => "FSNOW-2003: failed to read OIDC token file `".toList ++ path ++
      "`: ".toList ++ reason

/-! ## Secrets -/

structure SecretValue where
  value : Text
  trim_ne_nil : Unicode.trim value ≠ []
deriving DecidableEq

def SecretValue.new (value : Text) : Except AuthError SecretValue :=
  if h : Unicode.trim value = [] then .error .emptySecretValue else .ok ⟨value, h⟩

/-- What a source finds outside the program; a failed read of a file has the
text of its error. -/
structure Environment where
  readEnvSecret : Text → Except AuthError SecretValue
  readToString : Text → Except Text Text
  readProviderSecret : Text → Except AuthError SecretValue

inductive OidcTokenSource where
  | envVar (name : Text)
  | file (path : Text)
  | secretProvider (handle : Text)
deriving DecidableEq, Repr

def OidcTokenSource.resolve (env : Environment) : OidcTokenSource → Except AuthError SecretValue
  | envVar name => env.readEnvSecret name
  | file path =>
      match env.readToString path with
      | .error reason => .error (.oidcAssertionIo path reason)
      | .ok content =>
          let trimmed := Unicode.trim content
          if trimmed = [] then
            .error (.oidcAssertionMalformed ("token file `".toList ++ path ++ "` is empty".toList)
              "ensure projected service account token or file contains a non-empty OIDC JWT")
          else SecretValue.new trimmed
  | secretProvider handle => env.readProviderSecret handle

/-! ## Headers -/

structure AuthHeaders where
  authorization : Text
  tokenType : String
deriving DecidableEq, Repr

def AuthHeaders.bearer (token : Text) (tokenType : String) : AuthHeaders :=
  ⟨"Bearer ".toList ++ token, tokenType⟩

inductive ReauthDecision where
  | notRequired
  | reauthRequired (lane : AuthLane) (credentialHandle : Option Text) (reason : Text)
  | resignJwt (reason : Text)
deriving DecidableEq, Repr

end FrankenSnowflake.Auth
