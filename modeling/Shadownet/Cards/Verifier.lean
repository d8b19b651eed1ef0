import Shadownet.Foundation.Prune
import Shadownet.Python.Identifiers
import Shadownet.Python.Jcs
import Shadownet.Python.Json
import Shadownet.Receiver.Stores

/-!
# Verifying AgentCards

`shadownet/agentcard.py`: `verify_agent_card` for the cards a provider signs and
`verify_self_signed_agent_card` for direct-mode cards. The signature covers the canonical form
of the card without `signatures` and without empty values; the fields are read from the card
as it came.

* `verifyAgentCard_eq_ok`, `verifySelfSignedAgentCard_eq_ok`: what acceptance means.
-/

namespace Shadownet.Cards

open Foundation Python
open Receiver (ProviderRecord)

def agentCardError (msg : Text) : Exc := ⟨.agentCardError, msg⟩

def agentCardSignatureError (msg : Text) : Exc := ⟨.agentCardSignatureError, msg⟩

/-- `FetchedAgentCard`; the verifiers leave the cache fields `None`. -/
structure FetchedAgentCard where
  shadowname : Text
  shadowPublicKey : Text
  endpointUrl : Text
  raw : Dict

def extensionUri : Text := text "urn:shadownet:0.2"

def pinnedSelfSignedScheme : Text := text "shadownet:pinned-self-signed"

/-! ## The signed part -/

/-- `_strip_empty`, with `none` for `None`. -/
def stripEmpty (value : Value) : Option Value := value.pruned List.isEmpty

/-- `{k: v for k, v in card.items() if k != "signatures"}`. -/
def unsigned (card : Dict) : Dict := card.filter fun m => m.1 != text "signatures"

def canonicalCardPayload (card : Dict) : Py Bytes :=
  match stripEmpty (.obj (unsigned card).members) with
  | none => throw (agentCardError (text "AgentCard canonical form is empty"))
  | some pruned => canonicalize pruned

/-! ## Signatures -/

def b64urlDecode (value : Text) : Py Bytes := urlsafeB64decode (value ++ padding value)

/-- `header.get(k)`, of whatever the protected header was. -/
def headerGet (header : Value) (k : Text) : Py Value :=
  match header with
  | .obj members => pure ((members.lookup k).getD .null)
  | v => throw ⟨.attributeError, text "'" ++ typeName v ++ text "' object has no attribute 'get'"⟩

/-- A header field that must have one value. -/
def requireHeader (G : Runtime) (header : Value) (k expected message : Text) : Py Unit := do
  let found ← headerGet header k
  if found ≠ .str expected then
    throw (agentCardSignatureError (message ++ text ", got " ++ G.repr found))
  else pure ()

/-- One round of the loop over the expected signers, without its `except`. -/
def verifyUnder (G : Runtime) (signature signingInput : Bytes) (pk : Text) : Py Unit := do
  let raw ← parsePublicKey G pk
  let key ← fromPublicBytes raw
  verifySignature G key signature signingInput

/-- The loop over the expected signers, with the failure of the last one tried. -/
def trySigners (G : Runtime) (signature signingInput : Bytes) (lastFailure : Text) :
    List Text → Py Unit
  | [] =>
    throw (agentCardSignatureError (text "signature did not verify against any expected signer (" ++
      lastFailure ++ text ")"))
  | pk :: rest =>
    match verifyUnder G signature signingInput pk with
    | .ok () => pure ()
    | .error exc => trySigners G signature signingInput exc.msg rest

/-- `_verify_one`. -/
def verifyOne (G : Runtime) (J : JsonRuntime) (signatureObj : List (Text × Value))
    (payloadB64 : Text) (expectedSigners : List Text) (expectedKid : Text) : Py Unit :=
  match signatureObj.lookup (text "protected"), signatureObj.lookup (text "signature") with
  | some (.str protectedB64), some (.str signatureB64) => do
    let header ← reraise [.valueError, .jsonDecodeError]
      (fun exc => agentCardSignatureError (text "invalid protected header: " ++ exc.msg)) do
        let headerBytes ← b64urlDecode protectedB64
        jsonLoads J headerBytes
    requireHeader G header (text "alg") (text "EdDSA") (text "alg must be EdDSA")
    requireHeader G header (text "typ") (text "JOSE") (text "typ must be JOSE")
    requireHeader G header (text "kid") expectedKid (text "kid must be " ++ G.reprStr expectedKid)
    let signatureBytes ← reraise [.valueError]
      (fun exc => agentCardSignatureError (text "signature not valid base64url: " ++ exc.msg))
      (b64urlDecode signatureB64)
    let signingInput ← encodeAscii (protectedB64 ++ 46 :: payloadB64)
    trySigners G signatureBytes signingInput (text "None") expectedSigners
  | _, _ =>
    throw (agentCardSignatureError (text "signature object missing 'protected' or 'signature'"))

/-- `_verify_signatures`, with the error of the last signature that failed. -/
def verifySignatures (G : Runtime) (J : JsonRuntime) (payloadB64 : Text)
    (expectedSigners : List Text) (expectedKid : Text) (lastError : Option Exc) :
    List Value → Py Unit
  | [] =>
    throw (agentCardSignatureError (match lastError with
      | some exc => text "no valid signature on AgentCard (" ++ exc.msg ++ text ")"
      | none => text "no parseable signatures on AgentCard"))
  | .obj sig :: rest =>
    match verifyOne G J sig payloadB64 expectedSigners expectedKid with
    | .ok () => pure ()
    | .error exc =>
      if exc.cls.isA .agentCardSignatureError then
        verifySignatures G J payloadB64 expectedSigners expectedKid (some exc) rest
      else .error exc
  | _ :: rest => verifySignatures G J payloadB64 expectedSigners expectedKid lastError rest

/-! ## Fields -/

def requireStr (G : Runtime) (card : Dict) (key : Text) : Py Text :=
  match card.get? key with
  | some (.str value) => pure value
  | _ => throw (agentCardError (text "AgentCard missing required string field " ++ G.reprStr key))

/-- The condition of the loop of `_validate_extensions`. -/
def declaresShadownet : Value → Bool
  | .obj entry =>
    entry.lookup (text "uri") == some (.str extensionUri) &&
      entry.lookup (text "required") == some (.bool true)
  | _ => false

def validateExtensions (card : Dict) : Py Unit :=
  match card.get? (text "capabilities") with
  | some (.obj capabilities) =>
    match capabilities.lookup (text "extensions") with
    | some (.arr extensions) =>
      if extensions.any declaresShadownet then pure ()
      else
        throw (agentCardError (text "AgentCard must declare " ++ extensionUri ++
          text " extension as required"))
    | _ =>
      throw (agentCardError (text "AgentCard.capabilities.extensions missing or not an array"))
  | _ => throw (agentCardError (text "AgentCard.capabilities missing or not an object"))

def supportedInterfaceUrl (card : Dict) : Py Text :=
  match card.get? (text "supportedInterfaces") with
  | some (.arr (first :: _)) =>
    match first with
    | .obj members =>
      match members.lookup (text "url") with
      | some (.str (c :: url)) => pure (c :: url)
      | _ => throw (agentCardError (text "AgentCard.supportedInterfaces[0].url missing"))
    | _ => throw (agentCardError (text "AgentCard.supportedInterfaces[0] not an object"))
  | _ => throw (agentCardError (text "AgentCard.supportedInterfaces missing or empty"))

def validateDirectSecurityScheme (G : Runtime) (card : Dict) : Py Unit :=
  let error := agentCardError (text "direct-mode AgentCard must declare securitySchemes[" ++
    G.reprStr pinnedSelfSignedScheme ++ text "] per RFC 0001 §5.4")
  match card.get? (text "securitySchemes") with
  | some (.obj schemes) =>
    if (schemes.lookup pinnedSelfSignedScheme).isSome then pure () else throw error
  | _ => throw error

/-- A field that is a `str` with something in it, as `extract_issuer_endpoint` and
`extract_status_list_base` return it. -/
def extractField (card : Dict) (key : Text) : Option Text :=
  match card.get? key with
  | some (.str (c :: value)) => some (c :: value)
  | _ => none

def extractStatusListBase (card : Dict) : Option Text :=
  extractField card (text "shadownet:statusListBase")

def extractIssuerEndpoint (card : Dict) : Option Text :=
  extractField card (text "shadownet:issueEndpoint")

/-! ## The verifiers -/

/-- `card.get("signatures")` when it is a `list` with something in it. -/
def signaturesOf (card : Dict) : Py (List Value) :=
  match card.get? (text "signatures") with
  | some (.arr (sig :: sigs)) => pure (sig :: sigs)
  | _ => throw (agentCardSignatureError (text "AgentCard has no signatures"))

/-- `parse_public_key(shadow_pk)`, for its errors. -/
def checkShadowKey (G : Runtime) (shadowPk : Text) : Py Unit := do
  let _ ← reraise [.invalidIdentifierError]
    (fun exc => agentCardError (text "invalid shadownet:pk: " ++ exc.msg))
    (parsePublicKey G shadowPk)
  pure ()

def checkVersion (G : Runtime) (card : Dict) : Py Unit := do
  let version ← requireStr G card (text "shadownet:v")
  if version ≠ text "0.2" then
    throw (agentCardError (text "unsupported shadownet:v=" ++ G.reprStr version))
  else pure ()

/-- `verify_agent_card`. -/
def verifyAgentCard (G : Runtime) (J : JsonRuntime) (card : Dict) (record : ProviderRecord)
    (shadowname : Text) : Py FetchedAgentCard := do
  let canonicalName ← validateShadowname G shadowname
  let provider := (partitionAt canonicalName).2
  if provider ≠ record.domain then
    throw (agentCardError (text "shadowname provider " ++ G.reprStr provider ++
      text " does not match record domain " ++ G.reprStr record.domain))
  else do
    let signatures ← signaturesOf card
    let payloadBytes ← canonicalCardPayload card
    verifySignatures G J (base64Url payloadBytes) record.providerKeys
      (text "shadownet@" ++ record.domain) none signatures
    let shadowPk ← requireStr G card (text "shadownet:pk")
    checkShadowKey G shadowPk
    checkVersion G card
    validateExtensions card
    let endpointUrl ← supportedInterfaceUrl card
    pure ⟨canonicalName, shadowPk, endpointUrl, card⟩

/-- `verify_self_signed_agent_card`. -/
def verifySelfSignedAgentCard (G : Runtime) (J : JsonRuntime) (card : Dict)
    (expectedPublicKey : Text) : Py FetchedAgentCard := do
  let signatures ← signaturesOf card
  let payloadBytes ← canonicalCardPayload card
  verifySignatures G J (base64Url payloadBytes) [expectedPublicKey] expectedPublicKey none
    signatures
  let shadowPk ← requireStr G card (text "shadownet:pk")
  if shadowPk ≠ expectedPublicKey then
    throw (agentCardError (text "AgentCard shadownet:pk=" ++ G.reprStr shadowPk ++
      text " does not match URI key " ++ G.reprStr expectedPublicKey))
  else do
    checkShadowKey G shadowPk
    checkVersion G card
    validateExtensions card
    validateDirectSecurityScheme G card
    let endpointUrl ← supportedInterfaceUrl card
    pure ⟨expectedPublicKey, shadowPk, endpointUrl, card⟩

/-! ## Acceptance -/

section
variable {G : Runtime} {J : JsonRuntime} {card : Dict}

theorem requireStr_eq_ok {key value : Text} :
    requireStr G card key = .ok value ↔ card.get? key = some (.str value) := by
  unfold requireStr
  split
  · next heq => rw [heq, pure_eq_ok, Option.some.injEq, Json.str.injEq]
  · next hne => exact ⟨fun h => (throw_eq_ok.mp h).elim, fun h => absurd h (hne value)⟩

theorem signaturesOf_eq_ok {sigs : List Value} :
    signaturesOf card = .ok sigs ↔
      card.get? (text "signatures") = some (.arr sigs) ∧ sigs ≠ [] := by
  unfold signaturesOf
  split
  · next sig rest heq =>
    rw [heq, pure_eq_ok, Option.some.injEq, Json.arr.injEq]
    exact ⟨fun h => ⟨h, by rw [← h]; simp⟩, fun h => h.1⟩
  · next hne =>
    refine ⟨fun h => (throw_eq_ok.mp h).elim, fun h => ?_⟩
    obtain ⟨sig, rest, rfl⟩ := List.exists_cons_of_ne_nil h.2
    exact absurd h.1 (hne sig rest)

/-- The first interface is an object whose `url` is this one. -/
def HasUrl (url : Text) (v : Value) : Prop :=
  ∃ members, v = .obj members ∧ members.lookup (text "url") = some (.str url)

theorem supportedInterfaceUrl_eq_ok {url : Text} :
    supportedInterfaceUrl card = .ok url ↔ url ≠ [] ∧ ∃ first rest,
      card.get? (text "supportedInterfaces") = some (.arr (first :: rest)) ∧ HasUrl url first := by
  unfold supportedInterfaceUrl
  split
  · next first rest heq =>
    have hfirst : (∃ first' rest', card.get? (text "supportedInterfaces") =
        some (.arr (first' :: rest')) ∧ HasUrl url first') ↔ HasUrl url first := by
      constructor
      · rintro ⟨first', rest', h, hurl⟩
        rw [heq, Option.some.injEq, Json.arr.injEq, List.cons.injEq] at h
        rwa [h.1]
      · exact fun h => ⟨first, rest, heq, h⟩
    rw [hfirst]
    split
    · next members =>
      have hmembers : HasUrl url (.obj members) ↔
          members.lookup (text "url") = some (.str url) := by
        constructor
        · rintro ⟨ms, h, hurl⟩
          rwa [Json.obj.inj h]
        · exact fun h => ⟨members, rfl, h⟩
      rw [hmembers]
      split
      · next c t hget =>
        rw [hget, pure_eq_ok, Option.some.injEq, Json.str.injEq]
        exact ⟨fun h => ⟨by rw [← h]; simp, h⟩, fun h => h.2⟩
      · next hne =>
        refine ⟨fun h => (throw_eq_ok.mp h).elim, fun h => ?_⟩
        obtain ⟨c, t, rfl⟩ := List.exists_cons_of_ne_nil h.1
        exact absurd h.2 (hne c t)
    · next hne =>
      refine ⟨fun h => (throw_eq_ok.mp h).elim, fun h => ?_⟩
      obtain ⟨-, members, rfl, -⟩ := h
      exact absurd rfl (hne members)
  · next hne =>
    refine ⟨fun h => (throw_eq_ok.mp h).elim, fun h => ?_⟩
    obtain ⟨-, first, rest, hget, -⟩ := h
    exact absurd hget (hne first rest)

theorem validateExtensions_eq_ok :
    validateExtensions card = .ok () ↔ ∃ capabilities extensions,
      card.get? (text "capabilities") = some (.obj capabilities) ∧
      capabilities.lookup (text "extensions") = some (.arr extensions) ∧
      ∃ e ∈ extensions, declaresShadownet e = true := by
  unfold validateExtensions
  split
  · next capabilities hcap =>
    split
    · next extensions hext =>
      have hany : (if extensions.any declaresShadownet = true then pure () else
          throw (agentCardError (text "AgentCard must declare " ++ extensionUri ++
            text " extension as required")) : Py Unit) = .ok () ↔
          ∃ e ∈ extensions, declaresShadownet e = true := by
        rw [← List.any_eq_true]
        split_ifs with h
        · exact ⟨fun _ => h, fun _ => rfl⟩
        · exact ⟨fun h' => h'.elim, fun h' => absurd h' h⟩
      rw [hany]
      constructor
      · exact fun h => ⟨capabilities, extensions, hcap, hext, h⟩
      · rintro ⟨capabilities', extensions', hcap', hext', h⟩
        rw [hcap, Option.some.injEq, Json.obj.injEq] at hcap'
        rw [← hcap', hext, Option.some.injEq, Json.arr.injEq] at hext'
        rwa [hext']
    · next hne =>
      refine ⟨fun h => (throw_eq_ok.mp h).elim, ?_⟩
      rintro ⟨capabilities', extensions', hcap', hext', -⟩
      rw [hcap, Option.some.injEq, Json.obj.injEq] at hcap'
      rw [← hcap'] at hext'
      exact absurd hext' (hne extensions')
  · next hne =>
    refine ⟨fun h => (throw_eq_ok.mp h).elim, ?_⟩
    rintro ⟨capabilities', -, hcap', -⟩
    exact absurd hcap' (hne capabilities')

theorem validateDirectSecurityScheme_eq_ok :
    validateDirectSecurityScheme G card = .ok () ↔ ∃ schemes,
      card.get? (text "securitySchemes") = some (.obj schemes) ∧
      (schemes.lookup pinnedSelfSignedScheme).isSome = true := by
  unfold validateDirectSecurityScheme
  split
  · next schemes hget =>
    rw [hget]
    split_ifs with h
    · exact ⟨fun _ => ⟨schemes, rfl, h⟩, fun _ => rfl⟩
    · refine ⟨fun h' => h'.elim, ?_⟩
      rintro ⟨schemes', hget', h'⟩
      rw [Option.some.injEq, Json.obj.injEq] at hget'
      exact absurd (hget' ▸ h') h
  · next hne =>
    refine ⟨fun h => (throw_eq_ok.mp h).elim, ?_⟩
    rintro ⟨schemes', hget', -⟩
    exact absurd hget' (hne schemes')

theorem checkShadowKey_eq_ok {pk : Text} :
    checkShadowKey G pk = .ok () ↔ ∃ key, parsePublicKey G pk = .ok key := by
  simp only [checkShadowKey, bind_eq_ok, reraise_eq_ok, pure_eq_ok, and_true]

theorem checkVersion_eq_ok :
    checkVersion G card = .ok () ↔
      card.get? (text "shadownet:v") = some (.str (text "0.2")) := by
  simp only [checkVersion, bind_eq_ok, requireStr_eq_ok, guard_eq_ok, pure_eq_ok, and_true,
    not_not]
  constructor
  · rintro ⟨v, hget, hv⟩
    rw [hget, hv]
  · intro h
    exact ⟨_, h, rfl⟩

/-- What both verifiers read from a card: a key, a URL and the declarations. -/
structure Fields (G : Runtime) (card : Dict) (pk url : Text) : Prop where
  key : card.get? (text "shadownet:pk") = some (.str pk)
  parses : ∃ raw, parsePublicKey G pk = .ok raw
  version : card.get? (text "shadownet:v") = some (.str (text "0.2"))
  extensions : validateExtensions card = .ok ()
  url : supportedInterfaceUrl card = .ok url

/-- The signed text: the protected header and the payload, each in base64url. -/
def signingInput (header payload : Bytes) : Bytes :=
  utf8 (base64Url header ++ 46 :: base64Url payload)

theorem encodeAscii_signingInput (header payload : Bytes) :
    encodeAscii (base64Url header ++ 46 :: base64Url payload) =
      .ok (signingInput header payload) := by
  refine encodeAscii_of_ascii fun c hc => ?_
  have hurl : ∀ {b : Bytes}, c ∈ base64Url b → c.val < 0x80 := by
    intro b hb
    have := base64Url_mem hb
    omega
  rcases List.mem_append.mp hc with hc | hc
  · exact hurl hc
  · rcases List.mem_cons.mp hc with rfl | hc
    · exact (by decide : (46 : CodePoint).val < 0x80)
    · exact hurl hc

theorem trySigners_eq_ok {signature message : Bytes} {signers : List Text} {lastFailure : Text} :
    trySigners G signature message lastFailure signers = .ok () ↔
      ∃ pk ∈ signers, verifyUnder G signature message pk = .ok () := by
  induction signers generalizing lastFailure with
  | nil => simp [trySigners]
  | cons pk rest ih =>
    rw [trySigners]
    simp only [List.mem_cons, exists_eq_or_imp]
    cases h : verifyUnder G signature message pk with
    | ok u => simp
    | error exc => simp [ih]

theorem requireHeader_eq_ok {header : Value} {k expected message : Text} :
    requireHeader G header k expected message = .ok () ↔
      headerGet header k = .ok (.str expected) := by
  simp only [requireHeader, bind_eq_ok, guard_eq_ok, pure_eq_ok, and_true, not_not]
  constructor
  · rintro ⟨v, hv, heq⟩
    exact heq ▸ hv
  · intro h
    exact ⟨_, h, rfl⟩

/-- A signature object that `_verify_one` accepts. -/
structure SignatureOk (G : Runtime) (J : JsonRuntime) (sig : List (Text × Value))
    (payload : Bytes) (signers : List Text) (kid : Text) (header signature : Bytes) : Prop where
  protectedHeader : sig.lookup (text "protected") = some (.str (base64Url header))
  signatureText : sig.lookup (text "signature") = some (.str (base64Url signature))
  parsed : ∃ members, jsonLoads J header = .ok (.obj members) ∧
    members.lookup (text "alg") = some (.str (text "EdDSA")) ∧
    members.lookup (text "typ") = some (.str (text "JOSE")) ∧
    members.lookup (text "kid") = some (.str kid)
  signer : ∃ pk ∈ signers, verifyUnder G signature (signingInput header payload) pk = .ok ()

theorem verifyOne_of_signatureOk {sig : List (Text × Value)} {payload : Bytes}
    {signers : List Text} {kid : Text} {header signature : Bytes}
    (h : SignatureOk G J sig payload signers kid header signature) :
    verifyOne G J sig (base64Url payload) signers kid = .ok () := by
  obtain ⟨members, hload, halg, htyp, hkid⟩ := h.parsed
  have hget : ∀ {k s : Text} {message : Text}, members.lookup k = some (.str s) →
      requireHeader G (.obj members) k s message = .ok () := by
    intro k s message hk
    rw [requireHeader_eq_ok, headerGet, hk]
    rfl
  unfold verifyOne
  rw [h.protectedHeader, h.signatureText]
  simp only [b64urlDecode, urlsafeB64decode_base64Url, ok_bind, hload, reraise, hget halg,
    hget htyp, hget hkid, encodeAscii_signingInput]
  exact trySigners_eq_ok.mpr h.signer

theorem verifySignatures_of_signatureOk {sig : List (Text × Value)} {rest : List Value}
    {payload : Bytes} {signers : List Text} {kid : Text} {header signature : Bytes}
    {lastError : Option Exc} (h : SignatureOk G J sig payload signers kid header signature) :
    verifySignatures G J (base64Url payload) signers kid lastError (.obj sig :: rest) = .ok () := by
  rw [verifySignatures, verifyOne_of_signatureOk h]
  rfl

/-- The signature that both verifiers accept. -/
def SignedBy (G : Runtime) (J : JsonRuntime) (card : Dict) (signers : List Text) (kid : Text) :
    Prop :=
  ∃ sigs payload, signaturesOf card = .ok sigs ∧ canonicalCardPayload card = .ok payload ∧
    verifySignatures G J (base64Url payload) signers kid none sigs = .ok ()

theorem verifyAgentCard_eq_ok {record : ProviderRecord} {shadowname : Text}
    {f : FetchedAgentCard} :
    verifyAgentCard G J card record shadowname = .ok f ↔
      validateShadowname G shadowname = .ok f.shadowname ∧
      (partitionAt f.shadowname).2 = record.domain ∧
      SignedBy G J card record.providerKeys (text "shadownet@" ++ record.domain) ∧
      Fields G card f.shadowPublicKey f.endpointUrl ∧ f.raw = card := by
  simp only [verifyAgentCard, bind_eq_ok, guard_eq_ok, pure_eq_ok, requireStr_eq_ok, not_not]
  constructor
  · rintro ⟨name, hname, hdomain, sigs, hsigs, payload, hpayload, ⟨⟩, hverify, pk, hpk, ⟨⟩, hkey,
      ⟨⟩, hversion, ⟨⟩, hext, url, hurl, rfl⟩
    exact ⟨hname, hdomain, ⟨sigs, payload, hsigs, hpayload, hverify⟩,
      ⟨hpk, checkShadowKey_eq_ok.mp hkey, checkVersion_eq_ok.mp hversion, hext, hurl⟩, rfl⟩
  · rintro ⟨hname, hdomain, ⟨sigs, payload, hsigs, hpayload, hverify⟩, hfields, rfl⟩
    exact ⟨_, hname, hdomain, sigs, hsigs, payload, hpayload, (), hverify, _, hfields.key, (),
      checkShadowKey_eq_ok.mpr hfields.parses, (), checkVersion_eq_ok.mpr hfields.version, (),
      hfields.extensions, _, hfields.url, rfl⟩

theorem verifySelfSignedAgentCard_eq_ok {K : Text} {f : FetchedAgentCard} :
    verifySelfSignedAgentCard G J card K = .ok f ↔
      SignedBy G J card [K] K ∧ Fields G card K f.endpointUrl ∧
      validateDirectSecurityScheme G card = .ok () ∧
      f = ⟨K, K, f.endpointUrl, card⟩ := by
  simp only [verifySelfSignedAgentCard, bind_eq_ok, guard_eq_ok, pure_eq_ok, requireStr_eq_ok,
    not_not]
  constructor
  · rintro ⟨sigs, hsigs, payload, hpayload, ⟨⟩, hverify, pk, hpk, rfl, ⟨⟩, hkey, ⟨⟩,
      hversion, ⟨⟩, hext, ⟨⟩, hscheme, url, hurl, rfl⟩
    exact ⟨⟨sigs, payload, hsigs, hpayload, hverify⟩,
      ⟨hpk, checkShadowKey_eq_ok.mp hkey, checkVersion_eq_ok.mp hversion, hext, hurl⟩, hscheme,
      rfl⟩
  · rintro ⟨⟨sigs, payload, hsigs, hpayload, hverify⟩, hfields, hscheme, hf⟩
    exact ⟨sigs, hsigs, payload, hpayload, (), hverify, K, hfields.key, rfl, (),
      checkShadowKey_eq_ok.mpr hfields.parses, (), checkVersion_eq_ok.mpr hfields.version, (),
      hfields.extensions, (), hscheme, _, hfields.url, hf.symm⟩

end

end Shadownet.Cards
