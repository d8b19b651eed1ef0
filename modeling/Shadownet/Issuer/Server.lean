import Shadownet.Go.AgentCard
import Shadownet.Go.Http

/-!
# The issuer server

`NewHandler` of `core/internal/issuer`, and the AgentCard that a keyed Hub serves about itself.
-/

namespace Shadownet.Issuer

open Foundation Go

inductive Mode where
  | domain
  | keyed
  /-- Any other value of the type. -/
  | other
  deriving DecidableEq

structure KeyedAgentCardConfig where
  name : Bytes
  description : Bytes
  version : Bytes
  a2aURL : Bytes
  issueURL : Bytes
  statusListBase : Bytes

/-- `HandlerConfig`, the input of `NewHandler`. Of the interfaces and pointers it has whether
they are set; `Now` has no check. -/
structure HandlerInput where
  mode : Mode
  hasStore : Bool
  hasHook : Bool
  hasAuthz : Bool
  signer : Bytes
  hasLogger : Bool
  maxBodyBytes : Int
  issuerIdentifier : Bytes
  statusCacheSeconds : Int
  keyedAgentCardSubject : KeyedAgentCardConfig

structure Handler where
  cfg : HandlerInput
  maxBody : Int
  signerPubMB : Bytes
  statusMaxAgeSecs : Int

/-- The checks of `NewHandler` that depend on the mode. -/
def checkMode (G : Runtime) (cfg : HandlerInput) : GoM Unit :=
  if cfg.mode = .keyed then
    if cfg.keyedAgentCardSubject.a2aURL = [] ∨ cfg.keyedAgentCardSubject.issueURL = [] ∨
        cfg.keyedAgentCardSubject.statusListBase = [] then
      throw (bytes "issuer: keyed mode requires A2AURL + IssueURL + StatusListBase")
    else if classify G cfg.issuerIdentifier ≠ .pubKey then
      throw (bytes "issuer: keyed mode requires IssuerIdentifier to be a multibase pubkey")
    else pure ()
  else if classify G cfg.issuerIdentifier ≠ .domain then
    throw (bytes "issuer: domain mode requires IssuerIdentifier to be a domain")
  else pure ()

/-- `NewHandler`. -/
def newHandler (G : Runtime) (cfg : HandlerInput) : GoM Handler :=
  if ¬ cfg.hasStore then throw (bytes "issuer: HandlerConfig.Store required")
  else if ¬ cfg.hasHook then throw (bytes "issuer: HandlerConfig.Hook required")
  else if ¬ cfg.hasAuthz then throw (bytes "issuer: HandlerConfig.Authz required")
  else if cfg.signer.length ≠ 64 then
    throw (bytes "issuer: HandlerConfig.Signer is not an Ed25519 private key")
  else if cfg.issuerIdentifier = [] then
    throw (bytes "issuer: HandlerConfig.IssuerIdentifier required")
  else if ¬ cfg.hasLogger then throw (bytes "issuer: HandlerConfig.Logger required")
  else do
    checkMode G cfg
    let signerPubMB ← (encodePubKey (publicKey cfg.signer)).mapError
      (bytes "issuer: encode signer pub: " ++ ·)
    pure
      { cfg
        maxBody := if cfg.maxBodyBytes = 0 then 65536 else cfg.maxBodyBytes
        signerPubMB
        statusMaxAgeSecs := if cfg.statusCacheSeconds = 0 then 300 else cfg.statusCacheSeconds }

namespace Handler

/-- The body `serveAgentCard` builds. -/
def cardBody (h : Handler) : CardBody :=
  let subject := h.cfg.keyedAgentCardSubject
  { name := subject.name, description := subject.description, version := subject.version
    a2aURL := subject.a2aURL, shadowPublicKey := h.signerPubMB
    issueEndpoint := subject.issueURL, statusListBase := subject.statusListBase }

/-- The bytes `serveAgentCard` writes. -/
def agentCard (G : Runtime) (S : Signer) (h : Handler) : GoM Bytes := do
  let body ← buildCard G h.cardBody
  let signed ← signBody G S body h.cfg.signer .direct [] h.signerPubMB
  pure (marshalValue (.obj signed))

/-- `Handler.serveAgentCard`. -/
def serveAgentCard (G : Runtime) (S : Signer) (h : Handler) : Response :=
  match h.agentCard G S with
  | .error _ => httpError "internal error" 500
  | .ok body =>
    { status := 200
      headers := [(bytes "Content-Type", bytes "application/a2a+json"),
        (bytes "Cache-Control", bytes "max-age=3600")]
      body }

end Handler

/-! ## What an accepted configuration has -/

variable {G : Runtime} {cfg : HandlerInput} {h : Handler}

theorem newHandler_eq_ok (hnew : newHandler G cfg = .ok h) :
    cfg.signer.length = 64 ∧ checkMode G cfg = .ok () ∧ h.cfg = cfg ∧
      encodePubKey (publicKey cfg.signer) = .ok h.signerPubMB := by
  simp only [newHandler, guard_eq_ok, bind_eq_ok, mapError_eq_ok, pure_eq_ok, not_not] at hnew
  obtain ⟨-, -, -, hsigner, -, -, ⟨⟩, hmode, enc, henc, rfl⟩ := hnew
  exact ⟨hsigner, hmode, rfl, henc⟩

theorem checkMode_keyed (hmode : cfg.mode = .keyed) (h : checkMode G cfg = .ok ()) :
    cfg.keyedAgentCardSubject.a2aURL ≠ [] ∧ cfg.keyedAgentCardSubject.issueURL ≠ [] ∧
      cfg.keyedAgentCardSubject.statusListBase ≠ [] ∧
      classify G cfg.issuerIdentifier = .pubKey := by
  rw [checkMode, if_pos hmode, guard_eq_ok, guard_eq_ok, not_not] at h
  obtain ⟨hurls, hclass, -⟩ := h
  rw [not_or, not_or] at hurls
  exact ⟨hurls.1, hurls.2.1, hurls.2.2, hclass⟩

end Shadownet.Issuer
