import Shadownet.Receiver.Pipeline

/-!
# The asynchronous receiver

`AsyncReceiverPipeline`, `averify_credential` and their helpers, in the order the source has
them: one long coroutine where the synchronous model is cut into steps. An `await` of a
plug-point is a call of the operation. `asyncReceive_eq` says that the two pipelines are the
same program, and `async_agrees` that they serve any sequence of requests alike.
-/

namespace Shadownet.Receiver

open Foundation Python

/-! ## Credentials -/

section
variable {O : Type} {A : O → Type}

/-- `averify_credential`, with its two callbacks. -/
def averifyCredential (G : Runtime) (token : Text) (current leeway : Int)
    (resolveIssuerKey : Text → Fallible O A Exc Text)
    (checkIssuerAuthorizedForOrg : Text → Text → Fallible O A Exc Unit) :
    Fallible O A Exc VerifiedCredential := do
  let header ← Fallible.ofExcept (reraise [.jwtError]
    (fun exc => credentialError (text "invalid JWS: " ++ exc.msg)) (decodeHeader G token))
  if ¬ isStr (header.get? (text "typ")) credentialTyp then
    throw (credentialError (text "typ must be " ++ G.reprStr credentialTyp ++ text ", got " ++
      G.reprGet header (text "typ")))
  else if ¬ isStr (header.get? (text "alg")) (text "EdDSA") then
    throw (credentialError (text "alg must be EdDSA, got " ++ G.reprGet header (text "alg")))
  else do
    let unverified ← Fallible.ofExcept (reraise [.jwtError]
      (fun exc => credentialError (text "unable to decode claims: " ++ exc.msg))
      (decodeUnverifiedClaims G token))
    let payload ← Fallible.ofExcept (reraise [.validationError]
      (fun exc => credentialError (text "credential payload invalid: " ++ exc.msg))
      (CredentialPayload.modelValidate G unverified))
    if payload.kind ≠ orgAffiliation then
      throw (credentialError (text "unknown credential kind " ++ G.reprStr payload.kind))
    else if payload.exp - payload.iat > 2592000 then
      throw (credentialError (text "credential lifetime exceeds 30 days"))
    else if payload.exp < current - leeway then
      throw (credentialError (text "credential expired"))
    else if payload.iat > current + leeway then
      throw (credentialError (text "credential iat in the future"))
    else do
      let issuerKeyMultibase ← resolveIssuerKey payload.iss
      let issuerPkBytes ← Fallible.ofExcept (parsePublicKey G issuerKeyMultibase)
      let issuerKey ← Fallible.ofExcept (fromPublicBytes issuerPkBytes)
      Fallible.ofExcept (reraise [.jwtError, .cryptoSignatureError]
        (fun exc => credentialError (text "signature verification failed: " ++ exc.msg))
        (verifyJwsSignature G token issuerKey))
      checkIssuerAuthorizedForOrg payload.iss payload.org
      pure ⟨payload, issuerKeyMultibase, token⟩

end

/-- `AsyncReceiverPipeline._resolve_issuer_key`. -/
def asyncResolveIssuerKey (G : Runtime) (issuer : Text) : Rx Text :=
  if isPublicKeyIdentifier issuer then pure issuer
  else do
    let record ← Fallible.mapOutcome
      (reraise [.providerResolutionError] fun exc => credentialError
        (text "could not resolve issuer " ++ G.reprStr issuer ++ text ": " ++ exc.msg))
      (askPy (.providerLookup issuer) id)
    if record.providerKeys = [] then
      throw (credentialError (text "issuer " ++ G.reprStr issuer ++ text " has no provider key"))
    else pure (record.providerKeys.headD [])

/-- `AsyncReceiverPipeline._check_issuer_authorized_for_org`. -/
def asyncCheckIssuerAuthorizedForOrg (G : Runtime) (issuer org : Text) : Rx Unit :=
  if issuer = org then pure ()
  else if isPublicKeyIdentifier issuer || isPublicKeyIdentifier org then
    throw (credentialError (text "keyed issuer " ++ G.reprStr issuer ++
      text " not authorized to attest for org " ++ G.reprStr org ++
      text " (only iss == org accepted for keyed issuers per §6.6)"))
  else do
    if ← py (isSubdomainOf G issuer org) then return ()
    let orgRecord ← Fallible.mapOutcome
      (reraise [.providerResolutionError] fun exc => credentialError
        (text "could not verify issuer authorization for " ++ G.reprStr org ++ text ": " ++
          exc.msg))
      (askPy (.providerLookup org) id)
    if (orgRecord.delegates.map G.lower).contains (G.lower issuer) then return ()
    throw (credentialError (text "issuer " ++ G.reprStr issuer ++
      text " is not authorized to attest for org " ++ G.reprStr org))

/-- The loop of `AsyncReceiverPipeline._validate_creds`, with what it has verified so far. -/
def asyncValidateLoop (G : Runtime) (cfg : ReceiverConfig) (sender : Text)
    (verified : List VerifiedCredential) : List Text → Rx (List VerifiedCredential)
  | [] => pure verified
  | jws :: rest => do
    let now ← ask .now
    let cred ← Fallible.mapOutcome
      (reraise [.credentialError] fun exc =>
        credsRejectedError (text "credential rejected: " ++ exc.msg))
      (averifyCredential G jws now cfg.leewaySeconds (asyncResolveIssuerKey G)
        (asyncCheckIssuerAuthorizedForOrg G))
    Fallible.mapOutcome
      (reraise [.statusListError] fun exc =>
        credsRejectedError (text "credential revoked or unverifiable: " ++ exc.msg))
      (askPy (.revocationCheck cred) id)
    let later ← ask .now
    let expiresAt := min (cred.payload.exp - 60) (later + 2592000)
    ask (.cache sender cred expiresAt)
    asyncValidateLoop G cfg sender (verified ++ [cred]) rest

/-- `AsyncReceiverPipeline._validate_creds`. -/
def asyncValidateCreds (G : Runtime) (cfg : ReceiverConfig) (envelope : EnvelopePayload)
    (sender : Text) : Rx (List VerifiedCredential) :=
  if envelope.creds ≠ [] then asyncValidateLoop G cfg sender [] envelope.creds
  else ask (.forSender sender)

/-! ## Classification -/

/-- `AsyncReceiverPipeline._classify`. -/
def asyncClassify (G : Runtime) (cfg : ReceiverConfig) (sender : Text)
    (record : Option ProviderRecord) (credentials : List VerifiedCredential)
    (contextId : Option Text) : Rx (Route × Bool) := do
  if let some r := record then
    if cfg.sameProviderOrg && isShadowname cfg.subject then
      let (_, recipientProvider) ← py (splitShadowname G cfg.subject)
      if recipientProvider == r.domain then return (.inbox, false)
  if ← ask (.isContact sender) then return (.inbox, false)
  if let some (c :: cs) := contextId then
    if ← ask (.hasRecentOutbound (c :: cs) sender cfg.autoAddLookbackSeconds) then
      ask (.addContact sender)
      return (.inbox, true)
  let required := cfg.policy.requiredKinds false
  if required = [] then
    throw ⟨.policyError, text "stranger " ++ G.reprStr sender ++ text " rejected by policy"⟩
  if ¬ satisfiesPolicy G credentials cfg.trustStore required then
    if credentials ≠ [] then
      throw (credsRejectedError (
        text "no presented credential satisfies stranger policy for " ++ G.reprStr sender))
    throw ⟨.credsRequiredError, text "stranger " ++ G.reprStr sender ++
      text " presented no credentials"⟩
  return (.strangerReview, false)

/-! ## The pipeline -/

/-- `AsyncReceiverPipeline.receive`. -/
def asyncReceive (G : Runtime) (cfg : ReceiverConfig) (requestBody : Dict) :
    Rx AcceptedDecision := do
  let (envelopeJws, message) ← py (extractEnvelopeJws G requestBody)
  let (header, unverified) ← py (((do
      let header ← decodeHeader G envelopeJws
      let unverified ← decodeUnverifiedClaims G envelopeJws
      pure (header, unverified)) : Py (Dict × Dict)).mapError fun exc =>
        parseError (text "envelope JWS unparseable: " ++ exc.msg))
  match unverified.get? (text "from"), unverified.get? (text "to") with
  | some (.str senderRaw), some (.str recipientRaw) =>
    if ¬ isStr (header.get? (text "kid")) senderRaw then
      throw (parseError (text "envelope JWS kid does not match 'from' claim"))
    else do
      let (sender, recipient) ← py (((do
          let sender ← canonicalizeIdentifier G senderRaw
          let recipient ← canonicalizeIdentifier G recipientRaw
          pure (sender, recipient)) : Py (Text × Text)).mapError fun exc =>
            parseError (text "invalid identifier: " ++ exc.msg))
      if recipient ≠ cfg.subject then
        throw ⟨.unknownRecipientError, text "envelope to=" ++ G.reprStr recipient ++
          text " not served at this URL"⟩
      else do
        let (senderKey, senderProviderRecord) ←
          (if isPublicKeyIdentifier sender then do
            let bytes ← py (parsePublicKey G sender)
            let key ← py (fromPublicBytes bytes)
            pure (key, none)
          else do
            let record ← Fallible.mapOutcome
              (reraise [.providerResolutionError] fun exc =>
                signatureError (text "could not resolve sender provider: " ++ exc.msg))
              (do
                let (_, senderProvider) ← py (splitShadowname G sender)
                askPy (.providerLookup senderProvider) id)
            let shadowPublicKey ← Fallible.mapOutcome
              (reraise [.agentCardError] fun exc =>
                signatureError (text "sender AgentCard verification failed: " ++ exc.msg))
              (askPy (.fetchAgentCard sender record) id)
            let bytes ← py (parsePublicKey G shadowPublicKey)
            let key ← py (fromPublicBytes bytes)
            pure (key, some record) : Rx (Bytes × Option ProviderRecord))
        let now ← ask .now
        let envelope ← py (reraise [.envelopeError]
          (fun exc =>
            if occursIn (text "signature") (G.lower exc.msg) then signatureError exc.msg
            else parseError exc.msg)
          (verifyEnvelope G envelopeJws senderKey cfg.subject now cfg.leewaySeconds))
        let recomputed ← py (computeMsgHash G message)
        if recomputed ≠ envelope.msgHash then
          throw (parseError (text "msgHash mismatch: envelope claims " ++
            G.reprStr envelope.msgHash ++ text ", computed " ++ G.reprStr recomputed))
        else
          match message.get? (text "messageId") with
          | some (.str (c :: cs)) => do
            let seen ← ask (.seen sender (c :: cs))
            if seen then
              throw ⟨.replayError, text "(" ++ G.reprStr sender ++ text ", " ++
                G.reprStr (c :: cs) ++ text ") replayed"⟩
            else do
              ask (.remember sender (c :: cs) 600)
              let senderCredentials ← asyncValidateCreds G cfg envelope sender
              let contextId ←
                (match message.get? (text "contextId") with
                | none => pure none
                | some .null => pure none
                | some (.str s) => pure (some s)
                | some _ => throw (parseError
                    (text "message.contextId must be a string when present")) :
                  Rx (Option Text))
              let (route, autoAdded) ←
                asyncClassify G cfg sender senderProviderRecord senderCredentials contextId
              pure ⟨route, sender, envelope, autoAdded⟩
          | _ => throw (parseError (text "message.messageId missing"))
  | _, _ => throw (parseError (text "envelope missing 'from' or 'to'"))

/-! ## The two pipelines are one program -/

section
variable {O : Type} {A : O → Type}

theorem averifyCredential_eq (G : Runtime) (token : Text) (current leeway : Int)
    (resolve : Text → Fallible O A Exc Text) (authorize : Text → Text → Fallible O A Exc Unit) :
    averifyCredential G token current leeway resolve authorize =
      verifyCredential G token current leeway resolve authorize := by
  simp only [averifyCredential, verifyCredential, checkClaims, checkIssuerSignature,
    Fallible.ofExcept_bind, bind_assoc]
  refine bind_congr fun header => ?_
  split_ifs with ht ha
  · simp only [Fallible.ofExcept_bind, bind_assoc]
    refine bind_congr fun unverified => ?_
    refine bind_congr fun payload => ?_
    split_ifs <;> rfl
  · rfl
  · rfl
end

theorem asyncResolveIssuerKey_eq (G : Runtime) (issuer : Text) :
    asyncResolveIssuerKey G issuer = resolveIssuerKey G issuer := by
  unfold asyncResolveIssuerKey resolveIssuerKey
  split_ifs with hk
  · rfl
  refine bind_congr fun record => ?_
  cases record.providerKeys with
  | nil => rfl
  | cons k ks => rfl

theorem asyncCheckIssuerAuthorizedForOrg_eq (G : Runtime) (issuer org : Text) :
    asyncCheckIssuerAuthorizedForOrg G issuer org = checkIssuerAuthorizedForOrg G issuer org := by
  unfold asyncCheckIssuerAuthorizedForOrg checkIssuerAuthorizedForOrg
  split_ifs
  · rfl
  · rfl
  rfl

theorem asyncValidateLoop_eq (G : Runtime) (cfg : ReceiverConfig) (sender : Text)
    (verified : List VerifiedCredential) (creds : List Text) :
    asyncValidateLoop G cfg sender verified creds =
      (fun later => verified ++ later) <$> validateAll G cfg sender creds := by
  induction creds generalizing verified with
  | nil => simp [asyncValidateLoop, validateAll]
  | cons jws rest ih =>
    have hr : asyncResolveIssuerKey G = resolveIssuerKey G :=
      funext (asyncResolveIssuerKey_eq G)
    have hc : asyncCheckIssuerAuthorizedForOrg G = checkIssuerAuthorizedForOrg G :=
      funext fun i => funext (asyncCheckIssuerAuthorizedForOrg_eq G i)
    simp only [asyncValidateLoop, validateAll, validateCred, revocationStep, averifyCredential_eq,
      hr, hc, ih, bind_assoc, pure_bind, List.append_assoc, List.singleton_append,
      map_eq_pure_bind]

theorem asyncValidateCreds_eq (G : Runtime) (cfg : ReceiverConfig) (envelope : EnvelopePayload)
    (sender : Text) :
    asyncValidateCreds G cfg envelope sender = validateCreds G cfg envelope sender := by
  unfold asyncValidateCreds validateCreds
  split_ifs with h
  · rw [asyncValidateLoop_eq]
    exact id_map _
  · rfl

theorem asyncClassify_eq (G : Runtime) (cfg : ReceiverConfig) (sender : Text)
    (record : Option ProviderRecord) (credentials : List VerifiedCredential)
    (contextId : Option Text) :
    asyncClassify G cfg sender record credentials contextId =
      classify G cfg sender record credentials contextId := by
  have hstranger : py (classifyStranger G cfg sender credentials) =
      if cfg.policy.requiredKinds false = [] then
        throw ⟨.policyError, text "stranger " ++ G.reprStr sender ++ text " rejected by policy"⟩
      else if ¬ satisfiesPolicy G credentials cfg.trustStore (cfg.policy.requiredKinds false) then
        if credentials ≠ [] then
          throw (credsRejectedError (
            text "no presented credential satisfies stranger policy for " ++ G.reprStr sender))
        else
          throw ⟨.credsRequiredError, text "stranger " ++ G.reprStr sender ++
            text " presented no credentials"⟩
      else pure (.strangerReview, false) := by
    simp only [classifyStranger]
    split_ifs <;> rfl
  have hsame : ∀ r : ProviderRecord, py (sameProvider G cfg (some r)) =
      if cfg.sameProviderOrg && isShadowname cfg.subject then do
        let x ← py (splitShadowname G cfg.subject)
        pure (x.2 == r.domain)
      else pure false := by
    intro r
    unfold sameProvider
    split_ifs
    · exact Fallible.ofExcept_bind _ _
    · rfl
  have hnone : py (sameProvider G cfg none) = pure false := rfl
  unfold asyncClassify classify
  rw [hstranger]
  rcases record with _ | r
  · rcases contextId with _ | _ | ⟨c, cs⟩ <;>
      simp only [hnone, recentOutbound, pure_bind, Fallible.throw_bind, Bool.false_eq_true,
        if_false]
  · rw [hsame]
    by_cases hp : (cfg.sameProviderOrg && isShadowname cfg.subject) = true
    · rcases contextId with _ | _ | ⟨c, cs⟩ <;>
        simp only [hp, recentOutbound, pure_bind, bind_assoc, Fallible.throw_bind,
          Bool.false_eq_true, if_false, if_true]
    · rcases contextId with _ | _ | ⟨c, cs⟩ <;>
        simp only [hp, recentOutbound, pure_bind, Fallible.throw_bind, Bool.false_eq_true, if_false]

/-- `resolveSender`, as the source writes it. -/
theorem resolveSender_eq (G : Runtime) (sender : Text) :
    (if isPublicKeyIdentifier sender then do
      let bytes ← py (parsePublicKey G sender)
      let key ← py (fromPublicBytes bytes)
      pure (key, none)
    else do
      let record ← Fallible.mapOutcome
        (reraise [.providerResolutionError] fun exc =>
          signatureError (text "could not resolve sender provider: " ++ exc.msg))
        (do
          let (_, senderProvider) ← py (splitShadowname G sender)
          askPy (.providerLookup senderProvider) id)
      let shadowPublicKey ← Fallible.mapOutcome
        (reraise [.agentCardError] fun exc =>
          signatureError (text "sender AgentCard verification failed: " ++ exc.msg))
        (askPy (.fetchAgentCard sender record) id)
      let bytes ← py (parsePublicKey G shadowPublicKey)
      let key ← py (fromPublicBytes bytes)
      pure (key, some record) : Rx (Bytes × Option ProviderRecord)) = resolveSender G sender := by
  unfold resolveSender
  simp only [py, Fallible.ofExcept_bind]
  rfl

theorem contextIdOf_eq (message : Dict) :
    (match message.get? (text "contextId") with
      | none => pure none
      | some .null => pure none
      | some (.str s) => pure (some s)
      | some _ => throw (parseError (text "message.contextId must be a string when present")) :
      Rx (Option Text)) = py (contextIdOf message) := by
  unfold contextIdOf
  rcases message.get? (text "contextId") with _ | _ | _ | _ | _ | _ | _ <;> rfl

theorem asyncReceive_eq (G : Runtime) (cfg : ReceiverConfig) (requestBody : Dict) :
    asyncReceive G cfg requestBody = receive G cfg requestBody := by
  unfold asyncReceive receive authenticate preparse
  simp only [resolveSender_eq, asyncValidateCreds_eq, asyncClassify_eq]
  simp only [py, Fallible.ofExcept_bind, bind_assoc]
  refine bind_congr fun extracted => ?_
  refine bind_congr fun decoded => ?_
  rcases decoded.2.get? (text "from") with _ | _ | _ | _ | senderRaw | _ | _
  case some.str =>
    rcases decoded.2.get? (text "to") with _ | _ | _ | _ | recipientRaw | _ | _
    case some.str =>
      simp only [Fallible.ofExcept_guard_bind, Fallible.ofExcept_bind, bind_assoc,
        Fallible.ofExcept_pure, pure_bind, openEnvelope, checkMessage, admitMessage,
        decideRoute, py]
      refine if_congr Iff.rfl rfl ?_
      refine bind_congr fun ids => ?_
      refine if_congr Iff.rfl rfl ?_
      refine bind_congr fun key => ?_
      refine bind_congr fun now => ?_
      refine bind_congr fun envelope => ?_
      refine bind_congr fun recomputed => ?_
      refine if_congr Iff.rfl rfl ?_
      rcases extracted.2.get? (text "messageId") with _ | _ | _ | _ | (_ | ⟨c, cs⟩) | _ | _
      case some.str.cons =>
        simp only [Fallible.ofExcept_pure, pure_bind]
        refine bind_congr fun seen => ?_
        cases seen with
        | true => rfl
        | false =>
          simp only [Bool.false_eq_true, if_false]
          refine bind_congr fun _ => ?_
          refine bind_congr fun credentials => ?_
          exact congrArg (· >>= _) (contextIdOf_eq _)
      all_goals rfl
    all_goals rfl
  all_goals rfl

/-! ## Sequences of requests -/

/-- The plug-points, by the number of calls made before: the readings of the clock, and what
the network answers or raises. -/
structure Plugs where
  clock : Nat → Int
  providerLookup : Nat → Text → Py ProviderRecord
  fetchAgentCard : Nat → Text → ProviderRecord → Py Text
  revocationCheck : Nat → VerifiedCredential → Py Unit

/-- The stores, and the number of calls made so far. -/
structure World where
  stores : Stores
  turn : Nat

namespace Plugs

/-- What the plug-points and the in-memory stores answer. -/
def answer (P : Plugs) (w : World) (o : Op) : Ans o × World :=
  let t := P.clock w.turn
  let s := w.stores
  match o with
  | .now => (t, ⟨{ s with clock := t }, w.turn + 1⟩)
  | .providerLookup domain => (P.providerLookup w.turn domain, ⟨s, w.turn + 1⟩)
  | .fetchAgentCard sender record => (P.fetchAgentCard w.turn sender record, ⟨s, w.turn + 1⟩)
  | .revocationCheck credential => (P.revocationCheck w.turn credential, ⟨s, w.turn + 1⟩)
  | .seen sender messageId =>
    ((s.replay.prune t).contains sender messageId,
      ⟨{ s with clock := t, replay := s.replay.prune t }, w.turn + 1⟩)
  | .remember sender messageId retention =>
    ((), ⟨{ s with clock := t, replay := s.replay.remember t sender messageId retention },
      w.turn + 1⟩)
  | .cache sender credential expiresAt =>
    ((), ⟨s.cache sender credential expiresAt, w.turn + 1⟩)
  | .forSender sender => ((s.live t sender).map Prod.fst, ⟨s.keepLive t sender, w.turn + 1⟩)
  | .isContact name => (decide (name ∈ s.contacts), ⟨s, w.turn + 1⟩)
  | .hasRecentOutbound contextId peer lookback =>
    match s.outbound (contextId, peer) with
    | none => (false, ⟨s, w.turn + 1⟩)
    | some ts => (decide (t - lookback ≤ ts), ⟨{ s with clock := t }, w.turn + 1⟩)
  | .addContact name => ((), ⟨{ s with contacts := insert name s.contacts }, w.turn + 1⟩)

/-- The answers are among those of the stores, with any clock. -/
theorem answer_handle (P : Plugs) (w : World) (o : Op) :
    handle (fun _ _ => True) w.stores o (P.answer w o).1 (P.answer w o).2.stores := by
  cases o with
  | hasRecentOutbound contextId peer lookback =>
    simp only [handle, answer]
    cases w.stores.outbound (contextId, peer) with
    | none => exact ⟨rfl, rfl⟩
    | some ts => exact ⟨_, trivial, rfl, rfl⟩
  | now => exact ⟨trivial, rfl⟩
  | seen => exact ⟨_, trivial, rfl, rfl⟩
  | remember => exact ⟨_, trivial, rfl⟩
  | forSender => exact ⟨_, trivial, rfl, rfl⟩
  | isContact => exact ⟨rfl, rfl⟩
  | _ => rfl

/-- Serves the requests one after the other, with nothing in between. -/
def serveAll (P : Plugs) (pipeline : Dict → Rx AcceptedDecision) :
    List Dict → World → List (Py AcceptedDecision) × World
  | [], w => ([], w)
  | body :: bodies, w =>
    let (decision, w₁) := Fallible.execute P.answer (pipeline body) w
    let (decisions, w₂) := serveAll P pipeline bodies w₁
    (decision :: decisions, w₂)

end Plugs

/-- For any sequence of requests the two pipelines decide or raise the same, and leave the
same stores. -/
theorem async_agrees (G : Runtime) (cfg : ReceiverConfig) (P : Plugs) (bodies : List Dict)
    (w : World) :
    P.serveAll (asyncReceive G cfg) bodies w = P.serveAll (receive G cfg) bodies w := by
  induction bodies generalizing w with
  | nil => rfl
  | cons body bodies ih =>
    simp only [Plugs.serveAll]
    rw [asyncReceive_eq, ih]

end Shadownet.Receiver
