import Shadownet.Foundation.Interleaving
import Shadownet.Go.Http
import Shadownet.Go.Jcs
import Shadownet.Issuer.Csr
import Shadownet.Issuer.Store

/-!
# Issuing a credential

`Handler.serveIssue` and `Handler.handleApprove` as programs over the calls they make: the
clock, the authorizer, the hook, and the three store calls. Everything between two calls is
computed by the functions of the source.
-/

namespace Shadownet.Issuer

open Foundation Go

/-! ## Minting -/

structure CredentialPayload where
  iss : Bytes
  sub : Bytes
  kind : Bytes
  org : Bytes
  iat : Int
  exp : Int
  epoch : Bytes
  idx : Nat
  deriving DecidableEq

/-- `json.Marshal` of a `credential.Payload`. -/
def CredentialPayload.marshal (p : CredentialPayload) : Bytes :=
  marshalObject
    [("iss", marshalString p.iss), ("sub", marshalString p.sub), ("kind", marshalString p.kind),
      ("org", marshalString p.org), ("iat", marshalInt p.iat), ("exp", marshalInt p.exp),
      ("rev", marshalObject [("epoch", marshalString p.epoch), ("idx", marshalInt p.idx)])]

/-- `crypto.SignJWS`. -/
def signJWS (G : Runtime) (priv payload kid typ : Bytes) : GoM Bytes :=
  if priv.length ≠ 64 then
    throw (bytes "crypto: private key length = " ++ bytes (toString priv.length) ++
      bytes ", want 64")
  else if kid = [] then throw (bytes "crypto: SignerOptions.KeyID is required")
  else G.signCompact priv kid typ payload

/-- `validateIdentifier`, with the name of the field in the wrapping. -/
def validateIdentifier (G : Runtime) (field : String) (s : Bytes) : GoM Unit :=
  if classify G s = .unknown then
    throw (bytes "credential: invalid: " ++ bytes field ++ bytes ": credential: invalid: " ++
      G.quote s ++ bytes " is not a domain, shadowname, or multibase pubkey")
  else pure ()

/-- `kidFromIssuer`. -/
def kidFromIssuer (G : Runtime) (iss issuerPubMultibase : Bytes) : Bytes :=
  match classify G iss with
  | .pubKey => iss
  | .domain => bytes "shadownet@" ++ iss
  | _ => issuerPubMultibase

/-- `credential.Mint`. -/
def mint (G : Runtime) (priv pub : Bytes) (p : CredentialPayload) : GoM Bytes :=
  if p.kind ≠ bytes "org_affiliation" then
    throw (bytes "credential: unknown kind: " ++ G.quote p.kind)
  else if p.exp ≤ p.iat then throw (bytes "credential: invalid: exp must be greater than iat")
  else if lifetimeExceeds p.iat p.exp 2592000 then
    throw (bytes "credential: lifetime exceeds 30 days: " ++
      bytes (toString (wrap64 (p.exp - p.iat)))
      ++ bytes "s")
  else do
    validateIdentifier G "iss" p.iss
    validateIdentifier G "sub" p.sub
    validateIdentifier G "org" p.org
    if p.epoch = [] then throw (bytes "credential: invalid: rev.epoch required")
    else do
      let pubMB ← (encodePubKey pub).mapError (bytes "credential: encode issuer pubkey: " ++ ·)
      signJWS G priv p.marshal (kidFromIssuer G p.iss pubMB) (bytes "shadownet-cred+jwt")

/-! ## Idempotency -/

def hexEncode (bs : Bytes) : Bytes :=
  let hex (n : Nat) : UInt8 := UInt8.ofNat (if n < 10 then 48 + n else 87 + n)
  bs.flatMap fun b => [hex (b.toNat / 16), hex (b.toNat % 16)]

/-- `IdempotencyKey` of the request object with the two given members. -/
def idempotencyKey (G : Runtime) (iss aud : Bytes) (req : CsrRequest) : GoM Bytes :=
  if iss = [] ∨ aud = [] then
    throw (bytes "issuer: invalid: iss and aud both required for idempotency")
  else do
    let reqCanon ← (jcsEncode G (.obj [(bytes "kind", .str req.kind),
      (bytes "org", .str req.org)])).mapError
      (bytes "issuer: canonicalize req: " ++ ·)
    pure (hexEncode (G.sha256 (iss ++ 0x1F :: (aud ++ 0x1F :: reqCanon))))

/-! ## The calls -/

/-- What the hook sees of a request. -/
structure CsrView where
  iss : Bytes
  aud : Bytes
  kind : Bytes
  org : Bytes
  issuedAt : Time
  expiry : Time

inductive Outcome where
  | approve
  | pending
  | reject
  | other (n : Int)
  deriving DecidableEq

/-- The fields of a hook's `Decision` that the handler uses. -/
structure Decision where
  outcome : Outcome
  reason : Bytes
  nextURL : Bytes

inductive IssueOp where
  | now
  | authorize (iss org : Bytes)
  | evaluate (view : CsrView) (subjectPub : Bytes)
  | getByIdempotencyKey (key : Bytes)
  | allocateIndex (credentialExp : Time)
  | putCredential (c : CredentialRow)

/-- The answers of the calls. -/
@[reducible] def IssueAns : IssueOp → Type
  | .now => Time
  | .authorize _ _ => GoM Unit
  | .evaluate _ _ => GoM Decision
  | .getByIdempotencyKey _ => Except StoreError CredentialRow
  | .allocateIndex _ => Except StoreError (Nat × Nat)
  | .putCredential _ => Except StoreError Unit

abbrev IssueProg (α : Type) := Prog IssueOp IssueAns α

/-! The calls, at the types of their answers. -/

@[reducible] def clock : IssueProg Time := Prog.op IssueOp.now

@[reducible] def authorize (iss org : Bytes) : IssueProg (GoM Unit) :=
  Prog.op (IssueOp.authorize iss org)

@[reducible] def evaluate (view : CsrView) (subjectPub : Bytes) : IssueProg (GoM Decision) :=
  Prog.op (IssueOp.evaluate view subjectPub)

@[reducible] def getByIdempotencyKey (key : Bytes) :
    IssueProg (Except StoreError CredentialRow) :=
  Prog.op (IssueOp.getByIdempotencyKey key)

@[reducible] def allocateIndex (credentialExp : Time) :
    IssueProg (Except StoreError (Nat × Nat)) :=
  Prog.op (IssueOp.allocateIndex credentialExp)

@[reducible] def putCredential (c : CredentialRow) : IssueProg (Except StoreError Unit) :=
  Prog.op (IssueOp.putCredential c)

/-- The fields of `HandlerConfig` that issuing uses. `maxBody` is the resolved cap. -/
structure HandlerConfig where
  issuerIdentifier : Bytes
  signerPrivate : Bytes
  signerPublic : Bytes
  maxBody : Nat

/-! ## Responses -/

def writeCredential (jws : Bytes) : Response :=
  { status := 200, headers := [(bytes "Content-Type", bytes "application/jose")], body := jws }

/-- A problem document; a marshalled map has its keys in order. -/
def problem (status : Nat) (type title : String) (detail : Bytes) : Response :=
  { status
    headers := [(bytes "Content-Type", bytes "application/problem+json")]
    body := marshalObject
      [("detail", marshalString detail), ("status", marshalInt status),
        ("title", marshalString (bytes title)),
        ("type", marshalString (bytes "urn:shadownet:error:" ++ bytes type))] }

def writeProblem (status : Nat) (code : String) (detail : Bytes) : Response :=
  problem status code code detail

def writeCeremonyPending (next : Bytes) : Response :=
  { status := 409
    headers := [(bytes "Content-Type", bytes "application/json")]
    body := marshalObject [("next", marshalString next)] }

def writeCeremonyFailed (reason : Bytes) : Response := problem 403 "policy" "ceremony_failed" reason

/-! ## The handler -/

/-- `handleApprove` on the answer of the re-read after a failed insert. -/
def afterReread : Except StoreError CredentialRow → IssueProg Response
  | .ok existing => pure (writeCredential existing.jws)
  | .error _ => pure (writeProblem 500 "parse_error" (bytes "store failed"))

/-- `handleApprove` on the answer of the insert. -/
def afterPut (idem : Bytes) (c : CredentialRow) : Except StoreError Unit → IssueProg Response
  | .ok _ => pure (writeCredential c.jws)
  | .error _ => do
    let existing ← getByIdempotencyKey idem
    afterReread existing

/-- The credential `handleApprove` mints for an allocated index. -/
def approvedPayload (cfg : HandlerConfig) (parsed : CsrPayload) (now : Time) (epoch idx : Nat) :
    CredentialPayload :=
  { iss := cfg.issuerIdentifier, sub := parsed.iss, kind := bytes "org_affiliation"
    org := parsed.req.org, iat := now.unix, exp := (now.addSeconds 604800).unix
    epoch := bytes (toString epoch), idx }

/-- The row `handleApprove` stores. -/
def approvedRow (cfg : HandlerConfig) (parsed : CsrPayload) (idem jws : Bytes) (now : Time)
    (epoch idx : Nat) : CredentialRow :=
  { idempotencyKey := idem, jws, iss := cfg.issuerIdentifier, sub := parsed.iss
    org := parsed.req.org, epoch, idx, issuedAt := now.unix
    expiresAt := (now.addSeconds 604800).unix }

/-- `handleApprove` after the allocation. -/
def mintAndStore (G : Runtime) (cfg : HandlerConfig) (parsed : CsrPayload) (idem : Bytes)
    (now : Time) : Except StoreError (Nat × Nat) → IssueProg Response
  | .error _ => pure (writeProblem 500 "parse_error" (bytes "alloc failed"))
  | .ok (epoch, idx) =>
    match mint G cfg.signerPrivate cfg.signerPublic (approvedPayload cfg parsed now epoch idx) with
    | .error _ => pure (writeProblem 500 "parse_error" (bytes "mint failed"))
    | .ok jws => do
      let stored ← putCredential (approvedRow cfg parsed idem jws now epoch idx)
      afterPut idem (approvedRow cfg parsed idem jws now epoch idx) stored

/-- `Handler.handleApprove`. -/
def handleApprove (G : Runtime) (cfg : HandlerConfig) (parsed : CsrPayload) (idem : Bytes) :
    IssueProg Response := do
  let now ← clock
  let allocated ← allocateIndex (now.addSeconds 604800)
  mintAndStore G cfg parsed idem now allocated

/-- `serveIssue` on the hook's answer. -/
def actOnDecision (G : Runtime) (cfg : HandlerConfig) (parsed : CsrPayload) (idem : Bytes) :
    GoM Decision → IssueProg Response
  | .error _ => pure (writeProblem 500 "parse_error" (bytes "hook failed"))
  | .ok d =>
    match d.outcome with
    | .approve => handleApprove G cfg parsed idem
    | .pending => pure (writeCeremonyPending d.nextURL)
    | .reject => pure (writeCeremonyFailed d.reason)
    | .other _ => pure (writeProblem 500 "parse_error" (bytes "unknown hook outcome"))

def csrView (parsed : CsrPayload) : CsrView :=
  { iss := parsed.iss, aud := parsed.aud, kind := parsed.req.kind, org := parsed.req.org
    issuedAt := Time.ofUnix parsed.iat, expiry := Time.ofUnix parsed.exp }

/-- `serveIssue` on the authorizer's answer. -/
def afterAuthorize (G : Runtime) (cfg : HandlerConfig) (parsed : CsrPayload) (idem : Bytes) :
    GoM Unit → IssueProg Response
  | .error e => pure (writeProblem 403 "policy" e)
  | .ok _ =>
    match subjectPubFromCSR G parsed with
    | .error e => pure (writeProblem 400 "parse_error" e)
    | .ok subjectPub => do
      let decision ← evaluate (csrView parsed) subjectPub
      actOnDecision G cfg parsed idem decision

/-- `serveIssue` from the audience check on. -/
def authorizeAndDecide (G : Runtime) (cfg : HandlerConfig) (parsed : CsrPayload) (idem : Bytes) :
    IssueProg Response :=
  if parsed.aud ≠ cfg.issuerIdentifier then
    pure (writeProblem 403 "policy" (bytes "aud=" ++ G.quote parsed.aud ++
      bytes " does not match this issuer"))
  else do
    let authorized ← authorize cfg.issuerIdentifier parsed.req.org
    afterAuthorize G cfg parsed idem authorized

/-- `serveIssue` on the answer of the idempotency lookup. -/
def afterLookup (G : Runtime) (cfg : HandlerConfig) (parsed : CsrPayload) (idem : Bytes) :
    Except StoreError CredentialRow → IssueProg Response
  | .ok existing => pure (writeCredential existing.jws)
  | .error .notFound => authorizeAndDecide G cfg parsed idem
  | .error _ => pure (writeProblem 500 "parse_error" (bytes "store error"))

/-- `serveIssue` for a token, at the clock reading of its verification. -/
def issueToken (G : Runtime) (V : Verifier) (cfg : HandlerConfig) (token : Bytes) (now : Time) :
    IssueProg Response :=
  match parseAndVerifyCSR G V cfg.issuerIdentifier now token with
  | .error e => pure (writeProblem 400 "parse_error" e)
  | .ok parsed =>
    match idempotencyKey G parsed.iss parsed.aud parsed.req with
    | .error e => pure (writeProblem 400 "parse_error" e)
    | .ok idem => do
      let found ← getByIdempotencyKey idem
      afterLookup G cfg parsed idem found

/-- The token of a request body. -/
def requestToken (cfg : HandlerConfig) (body : Bytes) : Bytes := trimSpace (body.take cfg.maxBody)

/-- `Handler.serveIssue`. The body is `none` when reading it fails. -/
def serveIssue (G : Runtime) (V : Verifier) (cfg : HandlerConfig) (body : Option Bytes) :
    IssueProg Response :=
  match body with
  | none => pure (writeProblem 400 "parse_error" (bytes "could not read body"))
  | some data =>
    if requestToken cfg data = [] then
      pure (writeProblem 400 "parse_error" (bytes "empty CSR"))
    else do
      let now ← clock
      issueToken G V cfg (requestToken cfg data) now

end Shadownet.Issuer
