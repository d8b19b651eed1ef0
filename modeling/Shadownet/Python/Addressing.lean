import Shadownet.Python.Urllib

/-!
# Addresses of Shadows

`shadownet/addressing.py`.
-/

namespace Shadownet.Python

open Foundation

def shadowAddressError (msg : Text) : Exc := ⟨.shadowAddressError, msg⟩

structure DirectAddress where
  publicKey : Text
  host : Text
  port : Int
  tlsPinSha256 : Option Text
  deriving DecidableEq

inductive ShadowAddress where
  | shadowname (shadowname : Text)
  | direct (address : DirectAddress)
  deriving DecidableEq

def shadowScheme : Text := text "shadow"

/-! ## TLS pins -/

/-- `_FINGERPRINT_PATTERN.match`. -/
def fingerprintRe (s : Text) : Bool :=
  matchesBeforeEnd (fun s => s != [] && s.all fun c => isAlnum c || c == 95 || c == 45) s

/-- The fragment without its `sha256:`. -/
def pinFingerprint (G : Runtime) (fragment : Text) : Text :=
  if (text "sha256:").isPrefixOf (G.lower fragment) then fragment.drop 7 else fragment

def parseTlsPin (G : Runtime) (fragment : Text) : Py Text :=
  let fingerprint := pinFingerprint G fragment
  if ¬ fingerprintRe fingerprint then
    throw (shadowAddressError (text "TLS pin must be base64url, got " ++ G.reprStr fragment))
  else do
    let digest ← reraise [.valueError]
      (fun exc => shadowAddressError (text "TLS pin not decodable: " ++ exc.msg))
      (urlsafeB64decode (fingerprint ++ padding fingerprint))
    if digest.length ≠ 32 then
      throw (shadowAddressError (text "TLS pin must decode to 32 bytes (SHA-256), got " ++
        decimal digest.length))
    else pure fingerprint

/-- `parse_tls_pin(fragment) if fragment else None`. -/
def fragmentPin (G : Runtime) (fragment : Text) : Py (Option Text) :=
  if fragment = [] then pure none
  else do
    let fingerprint ← parseTlsPin G fragment
    pure (some fingerprint)

/-! ## Addresses -/

/-- `_canonical_shadowname`. -/
def canonicalShadowname (G : Runtime) (value : Text) : Py Text :=
  reraise [.invalidIdentifierError] (fun exc => shadowAddressError exc.msg)
    (validateShadowname G value)

/-- `_parse_direct`. -/
def parseDirect (G : Runtime) (parts : ParseResult) : Py DirectAddress :=
  match parts.password with
  | none => throw (shadowAddressError (text "direct URI must have 'key:<pubkey>' in userinfo"))
  | some password => do
    let publicKey ← reraise [.invalidIdentifierError]
      (fun exc => shadowAddressError (text "invalid pubkey in direct URI: " ++ exc.msg))
      (canonicalizeIdentifier G password)
    if ¬ isPublicKeyIdentifier publicKey then
      throw (shadowAddressError (text "direct URI userinfo pubkey " ++ G.reprStr publicKey ++
        text " is not a key"))
    else if parts.hostname G = [] then
      throw (shadowAddressError (text "direct URI must have a host"))
    else do
      let port ← parts.port G
      let pin ← fragmentPin G parts.fragment
      pure { publicKey, host := parts.hostname G, port := port.getD 443, tlsPinSha256 := pin }

/-- `_parse_shadowname_uri`. -/
def parseShadownameUri (G : Runtime) (parts : ParseResult) : Py Text :=
  let username := parts.username.getD []
  let host := parts.hostname G
  if username = [] ∨ host = [] then
    throw (shadowAddressError (text "Shadowname URI requires 'local@provider'"))
  else do
    let port ← parts.port G
    if port ≠ none then
      throw (shadowAddressError
        (text "Shadowname URI MUST NOT carry a port (the provider is the resolver)"))
    else if parts.fragment ≠ [] then
      throw (shadowAddressError (text "Shadowname URI MUST NOT carry a TLS pin fragment"))
    else canonicalShadowname G (username ++ 64 :: host)

/-- `parse_shadow_address` after the URL is split. -/
def shadowAddressOf (G : Runtime) (parts : ParseResult) : Py ShadowAddress :=
  if parts.scheme.map lowerAscii ≠ shadowScheme then
    throw (shadowAddressError (text "scheme must be shadow://, got " ++
      G.reprStr parts.scheme ++ text "://"))
  else if parts.netloc = [] then
    throw (shadowAddressError (text "shadow:// URI requires an authority"))
  else if parts.path ≠ [] ∧ parts.path ≠ [47] then
    throw (shadowAddressError (text "shadow:// URI path must be empty or '/', got " ++
      G.reprStr parts.path))
  else if parts.query ≠ [] then
    throw (shadowAddressError (text "shadow:// addressing URIs MUST NOT carry a query"))
  else
    match parts.username with
    | none => throw (shadowAddressError (text "shadow:// URI is missing userinfo before '@'"))
    | some username =>
      if G.lower username = text "key" then do
        let address ← parseDirect G parts
        pure (.direct address)
      else if parts.password ≠ none then
        throw (shadowAddressError (text "unrecognized userinfo type tag " ++
          G.reprStr username ++ text " (only 'key:' is defined)"))
      else do
        let name ← parseShadownameUri G parts
        pure (.shadowname name)

def parseShadowAddress (G : Runtime) (nfkc : Text → Text) (value : Text) : Py ShadowAddress :=
  let stripped := strip value
  if stripped = [] then throw (shadowAddressError (text "empty input"))
  else if ¬ (text "://") <:+: stripped then do
    let name ← canonicalShadowname G stripped
    pure (.shadowname name)
  else do
    let parts ← urlparse G nfkc stripped
    shadowAddressOf G parts

end Shadownet.Python
