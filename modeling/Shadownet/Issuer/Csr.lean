import Shadownet.Foundation.Base64
import Shadownet.Go.Identifiers
import Shadownet.Go.Json

/-!
# Certificate signing requests

`csr.Verify` and the handler's `parseAndVerifyCSR`: the verification key comes from the
unverified header, the subject from the payload.
-/

namespace Shadownet.Issuer

open Foundation Go

structure CsrRequest where
  kind : Bytes
  org : Bytes
  deriving DecidableEq

structure CsrPayload where
  iss : Bytes
  aud : Bytes
  iat : Int
  exp : Int
  req : CsrRequest
  deriving DecidableEq

/-- The protected header as the handler reads it. -/
structure CsrHeader where
  alg : Bytes
  typ : Bytes
  kid : Bytes
  deriving DecidableEq

/-- `base64.RawURLEncoding.DecodeString`. -/
def decodeSegment (G : Runtime) (seg : Bytes) : GoM Bytes :=
  match rawUrlDecode (seg.map UInt8.toNat) with
  | some b => pure b
  | none => throw (G.base64Error seg)

/-- `json.Unmarshal` into a struct: `null` leaves it, a document that is no object is an
error. -/
def unmarshalStruct {α : Type} (G : Runtime) (data : Bytes) (zero : α)
    (fields : List (Bytes × JsonDoc) → Option α) : GoM α :=
  match parse data with
  | some .null => pure zero
  | some (.obj ms) =>
    match fields ms with
    | some a => pure a
    | none => throw (G.jsonError data)
  | _ => throw (G.jsonError data)

/-- Stores into a `csr.Request`. -/
def storeRequest (old : CsrRequest) : JsonDoc → Option CsrRequest
  | .null => some old
  | .obj ms => do
    let kind ← decodeField ["kind", "org"] "kind" storeString old.kind ms
    let org ← decodeField ["kind", "org"] "org" storeString old.org ms
    pure { kind, org }
  | _ => none

def unmarshalPayload (G : Runtime) (data : Bytes) : GoM CsrPayload :=
  let names := ["iss", "aud", "iat", "exp", "req"]
  unmarshalStruct G data ⟨[], [], 0, 0, ⟨[], []⟩⟩ fun ms => do
    let iss ← decodeField names "iss" storeString [] ms
    let aud ← decodeField names "aud" storeString [] ms
    let iat ← decodeField names "iat" storeInt 0 ms
    let exp ← decodeField names "exp" storeInt 0 ms
    let req ← decodeField names "req" storeRequest ⟨[], []⟩ ms
    pure { iss, aud, iat, exp, req }

def unmarshalHeader (G : Runtime) (data : Bytes) : GoM CsrHeader :=
  let names := ["alg", "typ", "kid"]
  unmarshalStruct G data ⟨[], [], []⟩ fun ms => do
    let alg ← decodeField names "alg" storeString [] ms
    let typ ← decodeField names "typ" storeString [] ms
    let kid ← decodeField names "kid" storeString [] ms
    pure { alg, typ, kid }

/-- An `int64` result, wrapped around. -/
def wrap64 (n : Int) : Int := (n + 2 ^ 63) % 2 ^ 64 - 2 ^ 63

/-- `time.Duration(exp-iat)*time.Second > max`, with `max` in seconds. -/
def lifetimeExceeds (iat exp maxSeconds : Int) : Bool :=
  maxSeconds * 1000000000 < wrap64 (wrap64 (exp - iat) * 1000000000)

def csrInvalid (detail : Bytes) : Bytes := bytes "csr: invalid: " ++ detail

/-- The payload segment of the token. -/
def csrSegment (G : Runtime) (token : Bytes) : GoM CsrPayload :=
  match splitDots token with
  | [_, seg, _] => do
    let payload ← (decodeSegment G seg).mapError fun e => csrInvalid (bytes "payload base64: " ++ e)
    (unmarshalPayload G payload).mapError fun e => csrInvalid (bytes "payload json: " ++ e)
  | _ => throw (csrInvalid (bytes "malformed compact serialization"))

/-- The checks of `csr.Verify` on the claims, up to the clock. -/
def csrCheckClaims (G : Runtime) (audience : Bytes) (now : Time) (p : CsrPayload) : GoM Unit :=
  if audience = [] then throw (csrInvalid (bytes "VerifyOptions.ExpectedAudience required"))
  else if p.aud ≠ audience then
    throw (bytes "csr: aud does not match this issuer: aud=" ++ G.quote p.aud ++ bytes " want=" ++
      G.quote audience)
  else if p.exp ≤ p.iat then throw (csrInvalid (bytes "exp must be greater than iat"))
  else if lifetimeExceeds p.iat p.exp 600 then throw (bytes "csr: lifetime exceeds maximum")
  else if classify G p.iss = .unknown then
    throw (csrInvalid (bytes "iss " ++ G.quote p.iss ++ bytes " is not a recognized identifier"))
  else if p.req.kind = [] then throw (csrInvalid (bytes "req.kind required"))
  else if classify G p.req.org = .unknown then
    throw (csrInvalid (bytes "req.org " ++ G.quote p.req.org ++
      bytes " is not a recognized identifier"))
  else if wrap64 (p.exp + 60) < now.unix then throw (bytes "csr: expired")
  else if wrap64 (now.unix + 60) < p.iat then throw (bytes "csr: iat in the future")
  else pure ()

/-- `csr.Verify` before the signature: header, payload and claims. -/
def csrClaims (G : Runtime) (audience : Bytes) (now : Time) (token : Bytes) : GoM CsrPayload := do
  let hdr ← (G.parseOne token).mapError fun e => csrInvalid (bytes "header: " ++ e)
  let typ := hdr.typ.getD []
  if typ ≠ bytes "shadownet-csr+jwt" then
    throw (csrInvalid (bytes "typ " ++ G.quote typ ++ bytes ", want \"shadownet-csr+jwt\""))
  else if hdr.alg ≠ bytes "EdDSA" then
    throw (csrInvalid (bytes "alg " ++ G.quote hdr.alg ++ bytes ", want EdDSA"))
  else do
    let p ← csrSegment G token
    csrCheckClaims G audience now p
    pure p

/-- `csr.Verify`. -/
def csrVerify (G : Runtime) (V : Verifier) (audience : Bytes) (now : Time)
    (resolveSubjectKey : Bytes → GoM Bytes) (token : Bytes) : GoM CsrPayload := do
  let p ← csrClaims G audience now token
  let pub ← (resolveSubjectKey p.iss).mapError fun e =>
    bytes "csr: resolve subject key for " ++ G.quote p.iss ++ bytes ": " ++ e
  let _ ← (G.verifyJWS V pub token).mapError fun e =>
    bytes "csr: signature did not verify: " ++ e
  pure p

/-- The header of the token, unverified, as `subjectPubFromTokenUnverified` decodes it. -/
def csrHeader (G : Runtime) (token : Bytes) : GoM CsrHeader :=
  match splitDots token with
  | [seg, _, _] => do
    let header ← (decodeSegment G seg).mapError (bytes "issuer: CSR header: " ++ ·)
    (unmarshalHeader G header).mapError (bytes "issuer: CSR header json: " ++ ·)
  | _ => throw (bytes "issuer: malformed CSR JWS")

/-- `Handler.subjectPubFromTokenUnverified`. -/
def subjectPubFromTokenUnverified (G : Runtime) (token : Bytes) : GoM Bytes := do
  let hdr ← csrHeader G token
  if hdr.kid = [] then throw (bytes "issuer: CSR header missing kid")
  else if classify G hdr.kid = .pubKey then decodePubKey G hdr.kid
  else
    throw (bytes "issuer: Shadowname-mode CSR subject key resolution is out of scope for this " ++
      bytes "build (kid="
      ++ G.quote hdr.kid ++ bytes ")")

/-- `Handler.parseAndVerifyCSR` of an issuer named `issuerIdentifier`. -/
def parseAndVerifyCSR (G : Runtime) (V : Verifier) (issuerIdentifier : Bytes) (now : Time)
    (token : Bytes) : GoM CsrPayload := do
  let subjectPub ← subjectPubFromTokenUnverified G token
  csrVerify G V issuerIdentifier now (fun _ => pure subjectPub) token

/-- `Handler.subjectPubFromCSR`. -/
def subjectPubFromCSR (G : Runtime) (p : CsrPayload) : GoM Bytes :=
  if classify G p.iss = .pubKey then decodePubKey G p.iss
  else
    throw (bytes "issuer: Shadowname-mode CSR subject key resolution is out of scope for this " ++
      bytes "build (iss="
      ++ G.quote p.iss ++ bytes ")")

end Shadownet.Issuer
