import Shadownet.Foundation.Fallible
import Shadownet.Python.Envelope

/-!
# Credentials and trust

`shadownet/credential.py` and `shadownet/trust.py`. `verify_credential` takes the resolution
of the issuer's key and the check of its authority as callbacks, which may call operations;
everything else it does is a computation on the token (`checkClaims`).
-/

namespace Shadownet.Python

open Foundation

def credentialTyp : Text := text "shadownet-cred+jwt"

def orgAffiliation : Text := text "org_affiliation"

def credentialError (msg : Text) : Exc := ⟨.credentialError, msg⟩

/-- `RevocationPointer`. -/
structure RevocationPointer where
  epoch : Text
  idx : Int
  deriving DecidableEq

/-- `CredentialPayload`. -/
structure CredentialPayload where
  iss : Text
  sub : Text
  kind : Text
  org : Text
  iat : Int
  exp : Int
  rev : RevocationPointer
  extra : List (Text × Value)
  deriving DecidableEq

structure VerifiedCredential where
  payload : CredentialPayload
  issuerKey : Text
  rawJws : Text
  deriving DecidableEq

/-- `^[a-z_]+$`. -/
def kindPattern (s : Text) : Bool :=
  s ≠ [] && s.all fun c => (97 ≤ c.val && c.val ≤ 122) || c == 95

/-- `RevocationPointer.model_validate`, which forbids other keys. -/
def RevocationPointer.modelValidate (G : Runtime) (d : Dict) : Option RevocationPointer := do
  let epoch ← constrainedStrField (· ≠ []) (d.get? (text "epoch"))
  let idx ← natField G (d.get? (text "idx"))
  if d.members.all fun m => m.1 == text "epoch" || m.1 == text "idx" then
    pure ⟨epoch, idx⟩
  else none

/-- `CredentialPayload.model_validate`. -/
def CredentialPayload.modelValidate (G : Runtime) (d : Dict) : Py CredentialPayload := do
  let keys := [text "iss", text "sub", text "kind", text "org", text "iat", text "exp",
    text "rev"]
  let iss ← identifierField G canonicalizeIssuerOrOrgIdentifier (d.get? (text "iss"))
  let sub ← identifierField G canonicalizeIdentifier (d.get? (text "sub"))
  let org ← identifierField G canonicalizeIssuerOrOrgIdentifier (d.get? (text "org"))
  let fields : Option CredentialPayload := do
    let iss ← iss
    let sub ← sub
    let kind ← constrainedStrField kindPattern (d.get? (text "kind"))
    let org ← org
    let iat ← natField G (d.get? (text "iat"))
    let exp ← natField G (d.get? (text "exp"))
    let rev ← (d.sub? (text "rev")).bind (RevocationPointer.modelValidate G)
    pure ⟨iss, sub, kind, org, iat, exp, rev, d.members.filter fun m => !keys.contains m.1⟩
  match fields with
  | some payload => pure payload
  | none => throw ⟨.validationError, G.validationText (text "CredentialPayload") d⟩

/-- `payload.model_dump()`. -/
def CredentialPayload.modelDump (p : CredentialPayload) : List (Text × Value) :=
  [(text "iss", .str p.iss), (text "sub", .str p.sub), (text "kind", .str p.kind),
    (text "org", .str p.org), (text "iat", .num (.int p.iat)), (text "exp", .num (.int p.exp)),
    (text "rev", .obj [(text "epoch", .str p.rev.epoch), (text "idx", .num (.int p.rev.idx))])] ++
    p.extra

def mintCredential (G : Runtime) (payload : CredentialPayload) (issuerKey : KeyPair) : Py Text :=
  if payload.exp - payload.iat > 2592000 then
    throw (credentialError (orgAffiliation ++ text " lifetime exceeds 30 days (exp - iat = " ++
      decimal (payload.exp - payload.iat) ++ text "s)"))
  else if payload.kind ≠ orgAffiliation then
    throw (credentialError (text "unknown credential kind " ++ G.reprStr payload.kind))
  else signJwt G payload.modelDump issuerKey [(text "typ", .str credentialTyp)]

/-- The part of `verify_credential` before the issuer's key is resolved. -/
def checkClaims (G : Runtime) (token : Text) (current leeway : Int) : Py CredentialPayload := do
  let header ← reraise [.jwtError]
    (fun exc => credentialError (text "invalid JWS: " ++ exc.msg)) (decodeHeader G token)
  if ¬ isStr (header.get? (text "typ")) credentialTyp then
    throw (credentialError (text "typ must be " ++ G.reprStr credentialTyp ++ text ", got " ++
      G.reprGet header (text "typ")))
  else if ¬ isStr (header.get? (text "alg")) (text "EdDSA") then
    throw (credentialError (text "alg must be EdDSA, got " ++ G.reprGet header (text "alg")))
  else do
    let unverified ← reraise [.jwtError]
      (fun exc => credentialError (text "unable to decode claims: " ++ exc.msg))
      (decodeUnverifiedClaims G token)
    let payload ← reraise [.validationError]
      (fun exc => credentialError (text "credential payload invalid: " ++ exc.msg))
      (CredentialPayload.modelValidate G unverified)
    if payload.kind ≠ orgAffiliation then
      throw (credentialError (text "unknown credential kind " ++ G.reprStr payload.kind))
    else if payload.exp - payload.iat > 2592000 then
      throw (credentialError (text "credential lifetime exceeds 30 days"))
    else if payload.exp < current - leeway then
      throw (credentialError (text "credential expired"))
    else if payload.iat > current + leeway then
      throw (credentialError (text "credential iat in the future"))
    else pure payload

/-- The signature check of `verify_credential`, under the resolved key. -/
def checkIssuerSignature (G : Runtime) (token issuerKey : Text) : Py Unit := do
  let bytes ← parsePublicKey G issuerKey
  let key ← fromPublicBytes bytes
  reraise [.jwtError, .cryptoSignatureError]
    (fun exc => credentialError (text "signature verification failed: " ++ exc.msg))
    (verifyJwsSignature G token key)

/-- What the claims of a token that passes are. -/
theorem checkClaims_ok {G : Runtime} {token : Text} {current leeway : Int}
    {p : CredentialPayload} (h : checkClaims G token current leeway = .ok p) :
    (∃ d, decodeUnverifiedClaims G token = .ok d ∧
      CredentialPayload.modelValidate G d = .ok p) ∧ p.kind = orgAffiliation ∧
      p.exp - p.iat ≤ 2592000 ∧ current - leeway ≤ p.exp ∧ p.iat ≤ current + leeway := by
  simp only [checkClaims, bind_eq_ok, reraise_eq_ok, guard_eq_ok, pure_eq_ok] at h
  obtain ⟨header, -, -, -, d, hd, q, hq, hkind, hlife, hexp, hiat, rfl⟩ := h
  exact ⟨⟨d, hd, hq⟩, not_not.mp hkind, by omega, by omega, by omega⟩

theorem checkIssuerSignature_ok {G : Runtime} {token issuerKey : Text}
    (h : checkIssuerSignature G token issuerKey = .ok ()) :
    ∃ key, parsePublicKey G issuerKey = .ok key ∧ verifyJwsSignature G token key = .ok () := by
  simp only [checkIssuerSignature, bind_eq_ok, fromPublicBytes, guard_eq_ok, pure_eq_ok,
    reraise_eq_ok] at h
  obtain ⟨bytes, hb, k, ⟨-, rfl⟩, hsig⟩ := h
  exact ⟨_, hb, hsig⟩

section
variable {O : Type} {A : O → Type}

/-- `verify_credential`, with its two callbacks. -/
def verifyCredential (G : Runtime) (token : Text) (current leeway : Int)
    (resolveIssuerKey : Text → Fallible O A Exc Text)
    (checkIssuerAuthorizedForOrg : Text → Text → Fallible O A Exc Unit) :
    Fallible O A Exc VerifiedCredential := do
  let payload ← Fallible.ofExcept (checkClaims G token current leeway)
  let issuerKey ← resolveIssuerKey payload.iss
  Fallible.ofExcept (checkIssuerSignature G token issuerKey)
  checkIssuerAuthorizedForOrg payload.iss payload.org
  pure ⟨payload, issuerKey, token⟩

end

/-! ## Trust -/

/-- `TrustEntry`. -/
structure TrustEntry where
  issuer : Text
  accept : List Text

/-- `TrustStore`, as its entries. -/
abbrev TrustStore := List TrustEntry

/-- `TrustStore.accepts`. -/
def TrustStore.accepts (G : Runtime) (store : TrustStore) (issuer kind : Text) : Bool :=
  match canonicalizeIssuerOrOrgIdentifier G issuer with
  | .error _ => false
  | .ok target => store.any fun entry => entry.issuer == target && entry.accept.contains kind

/-- `AcceptancePolicy`. -/
structure AcceptancePolicy where
  fromContact : List Text
  fromStranger : List Text

def AcceptancePolicy.requiredKinds (p : AcceptancePolicy) (isContact : Bool) : List Text :=
  if isContact then p.fromContact else p.fromStranger

def isCredentialTrusted (G : Runtime) (c : VerifiedCredential) (store : TrustStore) : Bool :=
  store.accepts G c.payload.iss c.payload.kind

def satisfiesPolicy (G : Runtime) (credentials : List VerifiedCredential) (store : TrustStore)
    (requiredKinds : List Text) : Bool :=
  requiredKinds == [] || credentials.any fun c =>
    isCredentialTrusted G c store && requiredKinds.contains c.payload.kind

/-- A credential of a required kind from an issuer the store accepts for that kind. -/
def Counts (G : Runtime) (store : TrustStore) (required : List Text) (c : VerifiedCredential) :
    Prop :=
  store.accepts G c.payload.iss c.payload.kind = true ∧ c.payload.kind ∈ required

theorem satisfiesPolicy_iff {G : Runtime} {credentials : List VerifiedCredential}
    {store : TrustStore} {required : List Text} (hreq : required ≠ []) :
    satisfiesPolicy G credentials store required = true ↔
      ∃ c ∈ credentials, Counts G store required c := by
  simp [satisfiesPolicy, hreq, isCredentialTrusted, Counts]

end Shadownet.Python
