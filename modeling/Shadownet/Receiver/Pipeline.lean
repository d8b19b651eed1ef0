import Shadownet.Receiver.Stores

/-!
# The receiver pipeline

`ReceiverPipeline.receive` of `shadownet/receiver.py` as a program over the operations of the
stores and the network. `AsyncReceiverPipeline.receive` is the same program with an `await`
at each call. It is cut where the source numbers its steps: `authenticate` runs up to the
message hash and the message id, `admitMessage` is the replay cache, and then come credentials and
classification.
-/

namespace Shadownet.Receiver

open Foundation Python

abbrev Rx (α : Type) := Fallible Op Ans Exc α

/-- A call of an operation. -/
def ask (o : Op) : Rx (Ans o) := Fallible.ask o

/-- A computation without calls. -/
def py {α : Type} (x : Py α) : Rx α := Fallible.ofExcept x

/-- A call whose answer may be an exception. -/
def askPy {α : Type} (o : Op) (raised : Ans o → Py α) : Rx α := do
  let a ← ask o
  py (raised a)

inductive Route where
  | inbox
  | strangerReview
  deriving DecidableEq, Repr

/-- `ReceiverConfig`. -/
structure ReceiverConfig where
  subject : Text
  trustStore : TrustStore
  policy : AcceptancePolicy
  sameProviderOrg : Bool
  autoAddLookbackSeconds : Int
  leewaySeconds : Int

structure AcceptedDecision where
  route : Route
  sender : Text
  envelope : EnvelopePayload
  autoAddedContact : Bool

def signatureError (msg : Text) : Exc := ⟨.signatureError, msg⟩

def credsRejectedError (msg : Text) : Exc := ⟨.credsRejectedError, msg⟩

/-! ## Steps 2 to 7 -/

/-- What the envelope says before anything is verified. -/
structure Preparsed where
  envelopeJws : Text
  message : Dict
  sender : Text
  deriving DecidableEq

/-- The part of `receive` up to the check of the recipient. -/
def preparse (G : Runtime) (cfg : ReceiverConfig) (requestBody : Dict) : Py Preparsed := do
  let (envelopeJws, message) ← extractEnvelopeJws G requestBody
  let (header, unverified) ←
    ((do
      let header ← decodeHeader G envelopeJws
      let unverified ← decodeUnverifiedClaims G envelopeJws
      pure (header, unverified)) : Py (Dict × Dict)).mapError fun exc =>
        parseError (text "envelope JWS unparseable: " ++ exc.msg)
  match unverified.get? (text "from"), unverified.get? (text "to") with
  | some (.str senderRaw), some (.str recipientRaw) =>
    if ¬ isStr (header.get? (text "kid")) senderRaw then
      throw (parseError (text "envelope JWS kid does not match 'from' claim"))
    else do
      let (sender, recipient) ←
        ((do
          let sender ← canonicalizeIdentifier G senderRaw
          let recipient ← canonicalizeIdentifier G recipientRaw
          pure (sender, recipient)) : Py (Text × Text)).mapError fun exc =>
            parseError (text "invalid identifier: " ++ exc.msg)
      if recipient ≠ cfg.subject then
        throw ⟨.unknownRecipientError, text "envelope to=" ++ G.reprStr recipient ++
          text " not served at this URL"⟩
      else pure ⟨envelopeJws, message, sender⟩
  | _, _ => throw (parseError (text "envelope missing 'from' or 'to'"))

/-- Step 5: the sender's key, and the provider record when the sender has a provider. -/
def resolveSender (G : Runtime) (sender : Text) : Rx (Bytes × Option ProviderRecord) :=
  if isPublicKeyIdentifier sender then py do
    let bytes ← parsePublicKey G sender
    let key ← fromPublicBytes bytes
    pure (key, none)
  else do
    let record ← Fallible.mapOutcome
      (reraise [.providerResolutionError] fun exc =>
        signatureError (text "could not resolve sender provider: " ++ exc.msg))
      (do
        let (_, senderProvider) ← py (splitShadowname G sender)
        askPy (.providerLookup senderProvider) id)
    let shadowPublicKey ← Fallible.mapOutcome
      (reraise [.agentCardError] fun exc =>
        signatureError (text "sender AgentCard verification failed: " ++ exc.msg))
      (askPy (.fetchAgentCard sender record) id)
    py do
      let bytes ← parsePublicKey G shadowPublicKey
      let key ← fromPublicBytes bytes
      pure (key, some record)

/-- Whether `needle` occurs in `hay`. -/
def occursIn (needle hay : Text) : Bool := hay.tails.any needle.isPrefixOf

/-- Steps 3, 4 and 6: the envelope, at the time `now`. -/
def openEnvelope (G : Runtime) (cfg : ReceiverConfig) (envelopeJws : Text) (senderKey : Bytes)
    (now : Int) : Py EnvelopePayload :=
  reraise [.envelopeError]
    (fun exc =>
      if occursIn (text "signature") (G.lower exc.msg) then signatureError exc.msg
      else parseError exc.msg)
    (verifyEnvelope G envelopeJws senderKey cfg.subject now cfg.leewaySeconds)

/-- Step 7, and the message id that step 8 needs. -/
def checkMessage (G : Runtime) (envelope : EnvelopePayload) (message : Dict) : Py Text := do
  let recomputed ← computeMsgHash G message
  if recomputed ≠ envelope.msgHash then
    throw (parseError (text "msgHash mismatch: envelope claims " ++ G.reprStr envelope.msgHash ++
      text ", computed " ++ G.reprStr recomputed))
  else
    match message.get? (text "messageId") with
    | some (.str (c :: cs)) => pure (c :: cs)
    | _ => throw (parseError (text "message.messageId missing"))

/-- What steps 2 to 7 establish. -/
structure Authenticated where
  message : Dict
  sender : Text
  record : Option ProviderRecord
  envelope : EnvelopePayload
  messageId : Text

def authenticate (G : Runtime) (cfg : ReceiverConfig) (requestBody : Dict) :
    Rx Authenticated := do
  let p ← py (preparse G cfg requestBody)
  let (senderKey, record) ← resolveSender G p.sender
  let now ← ask .now
  let envelope ← py (openEnvelope G cfg p.envelopeJws senderKey now)
  let messageId ← py (checkMessage G envelope p.message)
  pure ⟨p.message, p.sender, record, envelope, messageId⟩

/-! ## Step 8 -/

def admitMessage (G : Runtime) (sender messageId : Text) : Rx Unit := do
  let seen ← ask (.seen sender messageId)
  if seen then
    throw ⟨.replayError, text "(" ++ G.reprStr sender ++ text ", " ++ G.reprStr messageId ++
      text ") replayed"⟩
  else ask (.remember sender messageId 600)

/-! ## Step 9 -/

/-- `_resolve_issuer_key`. -/
def resolveIssuerKey (G : Runtime) (issuer : Text) : Rx Text :=
  if isPublicKeyIdentifier issuer then pure issuer
  else do
    let record ← Fallible.mapOutcome
      (reraise [.providerResolutionError] fun exc => credentialError
        (text "could not resolve issuer " ++ G.reprStr issuer ++ text ": " ++ exc.msg))
      (askPy (.providerLookup issuer) id)
    match record.providerKeys with
    | [] => throw (credentialError (text "issuer " ++ G.reprStr issuer ++
        text " has no provider key"))
    | key :: _ => pure key

/-- `_check_issuer_authorized_for_org`. -/
def checkIssuerAuthorizedForOrg (G : Runtime) (issuer org : Text) : Rx Unit :=
  if issuer = org then pure ()
  else if isPublicKeyIdentifier issuer || isPublicKeyIdentifier org then
    throw (credentialError (text "keyed issuer " ++ G.reprStr issuer ++
      text " not authorized to attest for org " ++ G.reprStr org ++
      text " (only iss == org accepted for keyed issuers per §6.6)"))
  else do
    let sub ← py (isSubdomainOf G issuer org)
    if sub then pure ()
    else do
      let record ← Fallible.mapOutcome
        (reraise [.providerResolutionError] fun exc => credentialError
          (text "could not verify issuer authorization for " ++ G.reprStr org ++ text ": " ++
            exc.msg))
        (askPy (.providerLookup org) id)
      if (record.delegates.map G.lower).contains (G.lower issuer) then pure ()
      else throw (credentialError (text "issuer " ++ G.reprStr issuer ++
        text " is not authorized to attest for org " ++ G.reprStr org))

/-- The second `try` of the loop of `_validate_creds`. -/
def revocationStep (cred : VerifiedCredential) : Rx Unit :=
  Fallible.mapOutcome
    (reraise [.statusListError] fun exc =>
      credsRejectedError (text "credential revoked or unverifiable: " ++ exc.msg))
    (askPy (.revocationCheck cred) id)

/-- One round of the loop of `_validate_creds`. -/
def validateCred (G : Runtime) (cfg : ReceiverConfig) (sender jws : Text) :
    Rx VerifiedCredential := do
  let now ← ask .now
  let cred ← Fallible.mapOutcome
    (reraise [.credentialError] fun exc =>
      credsRejectedError (text "credential rejected: " ++ exc.msg))
    (verifyCredential G jws now cfg.leewaySeconds (resolveIssuerKey G)
      (checkIssuerAuthorizedForOrg G))
  revocationStep cred
  let later ← ask .now
  ask (.cache sender cred (min (cred.payload.exp - 60) (later + 2592000)))
  pure cred

/-- The loop of `_validate_creds`. -/
def validateAll (G : Runtime) (cfg : ReceiverConfig) (sender : Text) :
    List Text → Rx (List VerifiedCredential)
  | [] => pure []
  | jws :: rest => do
    let cred ← validateCred G cfg sender jws
    let creds ← validateAll G cfg sender rest
    pure (cred :: creds)

def validateCreds (G : Runtime) (cfg : ReceiverConfig) (envelope : EnvelopePayload)
    (sender : Text) : Rx (List VerifiedCredential) :=
  if envelope.creds ≠ [] then validateAll G cfg sender envelope.creds
  else ask (.forSender sender)

/-! ## Step 10 -/

/-- The same-provider shortcut of `_classify`. -/
def sameProvider (G : Runtime) (cfg : ReceiverConfig) (record : Option ProviderRecord) :
    Py Bool :=
  match record with
  | none => pure false
  | some r =>
    if cfg.sameProviderOrg && isShadowname cfg.subject then do
      let (_, recipientProvider) ← splitShadowname G cfg.subject
      pure (recipientProvider == r.domain)
    else pure false

/-- `_classify` for a sender that is neither from the same provider nor a contact, nor
auto-added. -/
def classifyStranger (G : Runtime) (cfg : ReceiverConfig) (sender : Text)
    (credentials : List VerifiedCredential) : Py (Route × Bool) :=
  let required := cfg.policy.requiredKinds false
  if required = [] then
    throw ⟨.policyError, text "stranger " ++ G.reprStr sender ++ text " rejected by policy"⟩
  else if ¬ satisfiesPolicy G credentials cfg.trustStore required then
    if credentials ≠ [] then
      throw (credsRejectedError (
        text "no presented credential satisfies stranger policy for " ++ G.reprStr sender))
    else
      throw ⟨.credsRequiredError, text "stranger " ++ G.reprStr sender ++
        text " presented no credentials"⟩
  else pure (.strangerReview, false)

/-- `context_id and has_recent_outbound(...)`. -/
def recentOutbound (cfg : ReceiverConfig) (sender : Text) : Option Text → Rx Bool
  | none => pure false
  | some [] => pure false
  | some (c :: cs) => ask (.hasRecentOutbound (c :: cs) sender cfg.autoAddLookbackSeconds)

/-- `_classify`. -/
def classify (G : Runtime) (cfg : ReceiverConfig) (sender : Text)
    (record : Option ProviderRecord) (credentials : List VerifiedCredential)
    (contextId : Option Text) : Rx (Route × Bool) := do
  let same ← py (sameProvider G cfg record)
  if same then pure (.inbox, false)
  else do
    let contact ← ask (.isContact sender)
    if contact then pure (.inbox, false)
    else do
      let recent ← recentOutbound cfg sender contextId
      if recent then do
        ask (.addContact sender)
        pure (.inbox, true)
      else py (classifyStranger G cfg sender credentials)

/-- `message.get("contextId")`, which must be a string when present. -/
def contextIdOf (message : Dict) : Py (Option Text) :=
  match message.get? (text "contextId") with
  | none => pure none
  | some .null => pure none
  | some (.str s) => pure (some s)
  | some _ => throw (parseError (text "message.contextId must be a string when present"))

/-! ## The pipeline -/

/-- `receive` after step 8. -/
def decideRoute (G : Runtime) (cfg : ReceiverConfig) (a : Authenticated) :
    Rx AcceptedDecision := do
  let credentials ← validateCreds G cfg a.envelope a.sender
  let contextId ← py (contextIdOf a.message)
  let (route, autoAdded) ← classify G cfg a.sender a.record credentials contextId
  pure ⟨route, a.sender, a.envelope, autoAdded⟩

/-- `ReceiverPipeline.receive`. -/
def receive (G : Runtime) (cfg : ReceiverConfig) (requestBody : Dict) : Rx AcceptedDecision := do
  let a ← authenticate G cfg requestBody
  admitMessage G a.sender a.messageId
  decideRoute G cfg a

end Shadownet.Receiver
