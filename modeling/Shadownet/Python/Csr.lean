import Shadownet.Python.Credential

/-!
# Certificate signing requests in the Python SDK

`shadownet/csr.py`: the subject mints a request, an issuer verifies it under the key it has
looked up for the subject.
-/

namespace Shadownet.Python

open Foundation

def csrTyp : Text := text "shadownet-csr+jwt"

def csrError (msg : Text) : Exc := ⟨.csrError, msg⟩

/-- `CsrRequest`. -/
structure CsrRequest where
  kind : Text
  org : Text
  deriving DecidableEq

/-- `CsrPayload`. -/
structure CsrPayload where
  iss : Text
  aud : Text
  iat : Int
  exp : Int
  req : CsrRequest
  extra : List (Text × Value)
  deriving DecidableEq

/-! ## Validation -/

/-- `CsrRequest.model_validate`, which forbids other keys; the check of `org` may raise. -/
def CsrRequest.modelValidate (G : Runtime) (d : Dict) : Py (Option CsrRequest) := do
  let org ← identifierField G canonicalizeIssuerOrOrgIdentifier (d.get? (text "org"))
  pure do
    let kind ← constrainedStrField kindPattern (d.get? (text "kind"))
    let org ← org
    if d.members.all fun m => m.1 == text "kind" || m.1 == text "org" then pure ⟨kind, org⟩
    else none

/-- The field `req`. -/
def reqField (G : Runtime) (d : Dict) : Py (Option CsrRequest) :=
  match d.sub? (text "req") with
  | none => pure none
  | some req => CsrRequest.modelValidate G req

/-- `CsrPayload.model_validate`. -/
def CsrPayload.modelValidate (G : Runtime) (d : Dict) : Py CsrPayload := do
  let keys := [text "iss", text "aud", text "iat", text "exp", text "req"]
  let iss ← identifierField G canonicalizeIdentifier (d.get? (text "iss"))
  let aud ← identifierField G canonicalizeIssuerOrOrgIdentifier (d.get? (text "aud"))
  let req ← reqField G d
  let fields : Option CsrPayload := do
    let iss ← iss
    let aud ← aud
    let iat ← natField G (d.get? (text "iat"))
    let exp ← natField G (d.get? (text "exp"))
    let req ← req
    pure ⟨iss, aud, iat, exp, req, d.members.filter fun m => !keys.contains m.1⟩
  match fields with
  | some payload => pure payload
  | none => throw ⟨.validationError, G.validationText (text "CsrPayload") d⟩

/-- `payload.model_dump()`. -/
def CsrPayload.modelDump (p : CsrPayload) : List (Text × Value) :=
  [(text "iss", .str p.iss), (text "aud", .str p.aud), (text "iat", .num (.int p.iat)),
    (text "exp", .num (.int p.exp)),
    (text "req", .obj [(text "kind", .str p.req.kind), (text "org", .str p.req.org)])] ++ p.extra

/-! ## Minting and verification -/

def mintCsr (G : Runtime) (payload : CsrPayload) (subjectKey : KeyPair) : Py Text :=
  if payload.exp - payload.iat > 600 then
    throw (csrError (text "CSR lifetime exceeds 600s (got " ++
      decimal (payload.exp - payload.iat) ++ text "s)"))
  else if payload.exp ≤ payload.iat then
    throw (csrError (text "CSR exp must be greater than iat"))
  else signJwt G payload.modelDump subjectKey [(text "typ", .str csrTyp)]

/-- `verify_csr`, at the instant `current`. -/
def verifyCsr (G : Runtime) (token : Text) (subjectKey : Bytes) (expectedAudience : Text)
    (current leeway : Int) : Py CsrPayload := do
  let header ← reraise [.jwtError]
    (fun exc => csrError (text "invalid JWS header: " ++ exc.msg)) (decodeHeader G token)
  if ¬ isStr (header.get? (text "typ")) csrTyp then
    throw (csrError (text "typ must be " ++ G.reprStr csrTyp ++ text ", got " ++
      G.reprGet header (text "typ")))
  else if ¬ isStr (header.get? (text "alg")) (text "EdDSA") then
    throw (csrError (text "alg must be EdDSA, got " ++ G.reprGet header (text "alg")))
  else do
    let unverified ← reraise [.jwtError]
      (fun exc => csrError (text "unable to decode CSR claims: " ++ exc.msg))
      (decodeUnverifiedClaims G token)
    let payload ← reraise [.validationError]
      (fun exc => csrError (text "CSR payload invalid: " ++ exc.msg))
      (CsrPayload.modelValidate G unverified)
    if payload.aud ≠ expectedAudience then
      throw (csrError (text "CSR aud=" ++ G.reprStr payload.aud ++
        text " does not match issuer (" ++ G.reprStr expectedAudience ++ text ")"))
    else if payload.exp - payload.iat > 600 then
      throw (csrError (text "CSR lifetime exceeds 600s"))
    else if payload.exp < current - leeway then throw (csrError (text "CSR expired"))
    else if payload.iat > current + leeway then throw (csrError (text "CSR iat in the future"))
    else do
      reraise [.jwtError, .cryptoSignatureError]
        (fun exc => csrError (text "signature verification failed: " ++ exc.msg))
        (verifyJwsSignature G token subjectKey)
      pure payload

/-- What a minted request is: the claims under a header with `alg` and `typ`. -/
theorem mintCsr_eq_ok {G : Runtime} {p : CsrPayload} {key : KeyPair} {token : Text} :
    mintCsr G p key = .ok token ↔ p.iat < p.exp ∧ p.exp - p.iat ≤ 600 ∧ ∃ seed,
      key.seed = some seed ∧ G.jwtEncode p.modelDump seed
        [(text "alg", .str (text "EdDSA")), (text "typ", .str csrTyp)] = .ok token := by
  have hheaders : [(text "typ", Json.str csrTyp)].foldl (fun h m => Dict.setMembers h m.1 m.2)
      [(text "alg", .str (text "EdDSA")), (text "typ", .str (text "JWT"))] =
      ([(text "alg", .str (text "EdDSA")), (text "typ", .str csrTyp)] : List (Text × Value)) := by
    decide
  rw [mintCsr, guard_eq_ok, guard_eq_ok, signJwt, hheaders]
  cases key.seed with
  | none => simp
  | some seed =>
    simp only [Option.some.injEq, exists_eq_left']
    constructor
    · rintro ⟨hlife, horder, h⟩
      exact ⟨by omega, by omega, h⟩
    · rintro ⟨horder, hlife, h⟩
      exact ⟨by omega, by omega, h⟩

end Shadownet.Python
