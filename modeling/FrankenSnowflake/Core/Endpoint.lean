import Mathlib.Data.List.Infix
import FrankenSnowflake.Foundation.Ascii
import FrankenSnowflake.Foundation.Fallible
import FrankenSnowflake.Foundation.Unicode

/-!
# The endpoint of an account

`endpoint_url` builds a base URL from the account that the operator gives, and
`validate_endpoint` refuses every URL that is not `https` on a Snowflake host.
Both cut their text at the seventh or the eighth byte to look at its scheme, and
a slice off a character boundary panics.
-/

namespace FrankenSnowflake.Endpoint

open Foundation Foundation.Ascii Foundation.Unicode

abbrev Text : Type := List Char

theorem lawfulBEq_text : LawfulBEq Text := inferInstance

attribute [local instance] lawfulBEq_text

inductive Panic where
  | notCharBoundary
deriving DecidableEq, Repr

def SNOWFLAKE_HOST_SUFFIX : Text := ".snowflakecomputing.com".toList

def SNOWFLAKE_CHINA_HOST_SUFFIX : Text := ".snowflakecomputing.cn".toList

def CHINA_REGION_ID : Text := "cn-northwest-1".toList

def http : Text := "http://".toList

def https : Text := "https://".toList

/-- The Snowflake host suffix that `host` ends with. -/
def snowflakeSuffix (host : Text) : Option Text :=
  [SNOWFLAKE_HOST_SUFFIX, SNOWFLAKE_CHINA_HOST_SUFFIX].find? fun suffix ↦
    suffix.isSuffixOf host ∧ suffix.length < host.length

/-- The same function stands in the signer's crate. -/
def stripPrefixIgnoreAsciiCase (s pre : Text) : Except Panic (Option Text) :=
  if (Utf8.encode s).length < (Utf8.encode pre).length then .ok none
  else
    match splitAtByte (Utf8.encode pre).length s with
    | none => .error .notCharBoundary
    | some (head, rest) => .ok (if lower head = lower pre then some rest else none)

/-- `str::trim_end_matches('/')`. -/
def trimSlashes (s : Text) : Text := s.rdropWhile (· = '/')

/-- `b.is_ascii_alphanumeric() || matches!(b, b'.' | b'-' | b'_')`; no byte of a
character beyond ASCII is one. -/
def isHostChar (c : Char) : Bool := c.isAlphanum || c = '.' || c = '-' || c = '_'

/-- `str::parse::<Ipv4Addr>`: four decimal octets without leading zeros. -/
def isIpv4 (s : Text) : Bool :=
  let octets := s.splitOn '.'
  octets.length = 4 ∧ octets.all fun o ↦
    o ≠ [] ∧ o.length ≤ 3 ∧ o.all Char.isDigit ∧ (o.head? = some '0' → o.length = 1) ∧
      Nat.ofDigitChars 10 o 0 ≤ 255

/-- `lower.parse::<IpAddr>().is_ok() || lower == "localhost"`: an IPv6 literal has
colons, and a bare host has none. -/
def isIpOrLoopback (host : Text) : Bool := isIpv4 host ∨ host = "localhost".toList

def endpointUrl (account : Text) : Except Panic Text := do
  let trimmed := trimSlashes (trim account)
  match ← stripPrefixIgnoreAsciiCase trimmed http with
  | some _ => return trimmed
  | none =>
    let scheme ← stripPrefixIgnoreAsciiCase trimmed https
    let hadScheme := scheme.isSome
    let rest := scheme.elim trimmed trimSlashes
    let bare := rest ≠ [] ∧ rest.all isHostChar
    if ¬ bare then return https ++ rest
    let host := lower rest
    if (snowflakeSuffix host).isSome ∨ hadScheme ∨ isIpOrLoopback host then
      return https ++ host
    else if CHINA_REGION_ID ∈ host.splitOn '.' then
      return https ++ host ++ SNOWFLAKE_CHINA_HOST_SUFFIX
    else return https ++ host ++ SNOWFLAKE_HOST_SUFFIX

/-- `host.contains("..")` as a part of the host. -/
def isCanonicalHost (host : Text) : Bool :=
  host.all isHostChar ∧ '.' ∈ host ∧ host.head? ≠ some '.' ∧ host.getLast? ≠ some '.' ∧
    ¬ ['.', '.'] <:+: host ∧ (snowflakeSuffix host).isSome

/-- The canonical `(base_url, host)`, or the reason why the endpoint is refused. -/
def validateEndpoint (raw : Text) : Except Panic (Except String (Text × Text)) := do
  let raw := trim raw
  if raw = [] then return .error "Snowflake endpoint is empty"
  match ← stripPrefixIgnoreAsciiCase raw https with
  | none => return .error "Snowflake endpoint must use https://"
  | some rest =>
    if '@' ∈ rest ∨ '#' ∈ raw ∨ '?' ∈ raw then
      return .error
        "Snowflake endpoint must not contain credentials, fragments, or query strings"
    let trimmed := trimSlashes rest
    if '/' ∈ trimmed then return .error "Snowflake endpoint must not contain path segments"
    if trimmed = [] then return .error "Snowflake endpoint host is missing"
    let host := lower trimmed
    if ¬ isCanonicalHost host then return .error "Snowflake endpoint host is not canonical"
    return .ok (https ++ host, host)

def validateAccount (account : Text) : Except Panic (Except String Text) := do
  let url ← endpointUrl account
  let endpoint ← validateEndpoint url
  return endpoint.map Prod.fst

end FrankenSnowflake.Endpoint
