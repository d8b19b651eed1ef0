import Shadownet.Interop.Names
import Shadownet.Receiver.Classification

/-!
# The exceptions of the receiver

`problem_response` renders a `ShadownetWireError`. Three steps of `receive` raise exceptions of
other classes that nothing on the way turns into a wire error: the signature check of a token that
is not ASCII, the hash of a message with a float, a surrogate or a long integer, and the claims of
a presented credential with a malformed identifier. `StrayRequest` lists them with what a request
must have passed to get there, and `receive_typed` says that there are no others.
-/

namespace Shadownet.Receiver

open Foundation Python
open Interop (validateDomain_again splitShadowname_again)

/-- The exceptions `problem_response` renders. -/
def Wire (e : Exc) : Prop := e.cls.isA .shadownetWireError = true

/-- An exception `problem_response` does not render. -/
def Stray (e : Exc) : Prop := ¬ Wire e

/-- A result, or a wire error. -/
def Typed {α : Type} : Py α → Prop := Yields (fun _ => True) Wire

/-- An exception of the class `c` or of one derived from it. -/
def Of (c : ExcClass) (e : Exc) : Prop := e.cls.isA c = true

/-- The plug-points raise their documented errors, and the keys they return are of the type
`MultibasePublicKey`. -/
def Documented (G : Runtime) : Call → Prop
  | ⟨.providerLookup _, a⟩ =>
    Yields (fun record => ∀ k ∈ record.providerKeys, ∃ key, parsePublicKey G k = .ok key)
      (Of .providerResolutionError) a
  | ⟨.fetchAgentCard _ _, a⟩ =>
    Yields (fun card => ∃ key, parsePublicKey G card = .ok key) (Of .agentCardError) a
  | ⟨.revocationCheck _, a⟩ => Yields (fun _ => True) (Of .statusListError) a
  | _ => True

/-- `receive` of a JSON value. `extract_envelope_jws` refuses one that is no object. -/
def receiveValue (G : Runtime) (cfg : ReceiverConfig) :
    (v : Value) → v.Distinct → Rx AcceptedDecision
  | .obj members, h => receive G cfg ⟨members, h⟩
  | _, _ => throw (parseError (text "message:send body missing 'message'"))

/-! ## Where another exception is raised -/

/-- The two conversions of `_verify_jws_signature` succeed. -/
def ReadableToken (token : Text) : Prop :=
  ∀ header payload signature, token.splitOn 46 = [header, payload, signature] →
    (∃ b, encodeAscii (header ++ 46 :: payload) = .ok b) ∧
      ∃ b, urlsafeB64decode (signature ++ padding signature) = .ok b

/-- The checks of `verify_envelope` that come before the one of the signature. -/
def SignatureDue (G : Runtime) (cfg : ReceiverConfig) (token : Text) (now : Int) : Prop :=
  ∃ header claims payload, decodeHeader G token = .ok header ∧
    isStr (header.get? (text "typ")) envelopeTyp ∧
    isStr (header.get? (text "alg")) (text "EdDSA") ∧
    decodeUnverifiedClaims G token = .ok claims ∧
    EnvelopePayload.modelValidate G claims = .ok payload ∧
    isStr (header.get? (text "kid")) payload.sender ∧ payload.recipient = cfg.subject ∧
    payload.exp - payload.iat ≤ 300 ∧ now - cfg.leewaySeconds ≤ payload.exp ∧
    payload.iat ≤ now + cfg.leewaySeconds

/-- The members of the message that are hashed have a canonical form. -/
def Hashable (message : Dict) : Prop :=
  ∀ input, canonicalInput message = .ok input → Encodable (.obj input)

/-- An exception in `E` that an `except` clause for the classes `cs` lets through. -/
def Escapes (cs : List ExcClass) (E : Exc → Prop) (e : Exc) : Prop :=
  cs.any e.cls.isA = false ∧ E e

/-- An exception of PyJWT that the clauses around the check of a credential let through. -/
def Uncaught : Exc → Prop := Escapes [.jwtError] (Escapes [.credentialError] Stray)

/-- One of the three names in the claims is a string that is no identifier. -/
def MalformedName (G : Runtime) (claims : Dict) : Prop :=
  (∃ e, identifierField G canonicalizeIssuerOrOrgIdentifier (claims.get? (text "iss")) =
      .error e) ∨
    (∃ e, identifierField G canonicalizeIdentifier (claims.get? (text "sub")) = .error e) ∨
    ∃ e, identifierField G canonicalizeIssuerOrOrgIdentifier (claims.get? (text "org")) = .error e

/-- A presented token that PyJWT fails to read in another way than with a `PyJWTError`, or the
claims of a credential with a malformed name. -/
def UnreadableClaims (G : Runtime) (token : Text) : Prop :=
  Fails Uncaught (decodeHeader G token) ∨
    ∃ header, decodeHeader G token = .ok header ∧
      isStr (header.get? (text "typ")) credentialTyp ∧
      isStr (header.get? (text "alg")) (text "EdDSA") ∧
      (Fails Uncaught (decodeUnverifiedClaims G token) ∨
        ∃ claims, decodeUnverifiedClaims G token = .ok claims ∧ MalformedName G claims)

/-- The calls up to where the check of a presented credential raises another exception. -/
inductive StrayCredential (G : Runtime) (cfg : ReceiverConfig) (jws : Text) : List Call → Prop
  | claims (now : Int) (h : UnreadableClaims G jws) : StrayCredential G cfg jws [⟨.now, now⟩]
  | signature (now : Int) (p : CredentialPayload) (calls : List Call) (key : Text)
      (hp : checkClaims G jws now cfg.leewaySeconds = .ok p)
      (hkey : Fallible.Path (resolveIssuerKey G p.iss) calls (.ok key))
      (h : ¬ ReadableToken jws) : StrayCredential G cfg jws (⟨.now, now⟩ :: calls)

/-- The calls up to where `receive` raises another exception. -/
inductive StrayRequest (G : Runtime) (cfg : ReceiverConfig) (body : Dict) : List Call → Prop
  | token (p : Preparsed) (calls : List Call) (key : Bytes) (record : Option ProviderRecord)
      (now : Int) (hp : preparse G cfg body = .ok p) (hkey : SenderKey G p.sender calls key record)
      (hdue : SignatureDue G cfg p.envelopeJws now) (h : ¬ ReadableToken p.envelopeJws) :
      StrayRequest G cfg body (calls ++ [⟨.now, now⟩])
  | message (p : Preparsed) (calls : List Call) (key : Bytes) (record : Option ProviderRecord)
      (now : Int) (envelope : EnvelopePayload) (hp : preparse G cfg body = .ok p)
      (hkey : SenderKey G p.sender calls key record)
      (henvelope : openEnvelope G cfg p.envelopeJws key now = .ok envelope)
      (h : ¬ Hashable p.message) : StrayRequest G cfg body (calls ++ [⟨.now, now⟩])
  | credential (a : Authenticated) (authenticating validating calls : List Call)
      (before after : List Text) (jws : Text) (credentials : List VerifiedCredential)
      (ha : Fallible.Path (authenticate G cfg body) authenticating (.ok a))
      (hcreds : a.envelope.creds = before ++ jws :: after)
      (hbefore : Fallible.Path (validateAll G cfg a.sender before) validating (.ok credentials))
      (h : StrayCredential G cfg jws calls) :
      StrayRequest G cfg body (authenticating ++ [⟨.seen a.sender a.messageId, false⟩,
        ⟨.remember a.sender a.messageId 600, ()⟩] ++ (validating ++ calls))

/-- The same of a body that is any JSON value. -/
def StrayValue (G : Runtime) (cfg : ReceiverConfig) : (v : Value) → v.Distinct → List Call → Prop
  | .obj members, h => StrayRequest G cfg ⟨members, h⟩
  | _, _ => fun _ => False

/-! ## Rules -/

theorem not_stray {e : Exc} (h : Wire e) : ¬ Stray e := not_not_intro h

theorem yields_reraise {α : Type} {R : α → Prop} {E : Exc → Prop} {cs : List ExcClass}
    {f : Exc → Exc} {x : Py α} (hx : Yields R (fun e => cs.any e.cls.isA = true) x)
    (hf : ∀ e, E (f e)) : Yields R E (reraise cs f x) := by
  cases x with
  | ok a => exact hx
  | error e =>
    have hcaught : cs.any e.cls.isA = true := hx
    rw [reraise, if_pos hcaught]
    exact hf e

theorem fails_reraise {α : Type} {E : Exc → Prop} {cs : List ExcClass} {f : Exc → Exc} {x : Py α}
    (hf : ∀ e, ¬ E (f e)) : Fails E (reraise cs f x) ↔ Fails (Escapes cs E) x := by
  cases x with
  | ok a => simp [Fails, reraise]
  | error e =>
    rw [reraise]
    cases hc : cs.any e.cls.isA with
    | true =>
      constructor
      · rintro ⟨e', h, he⟩
        cases h
        exact absurd he (hf e)
      · rintro ⟨e', h, hescapes, -⟩
        cases h
        exact absurd hescapes (by simp [hc])
    | false =>
      constructor
      · rintro ⟨e', h, he⟩
        cases h
        exact ⟨e, rfl, hc, he⟩
      · rintro ⟨e', h, -, he⟩
        exact ⟨e', h, he⟩

theorem fails_mapOutcome {α : Type} {E : Exc → Prop} {cs : List ExcClass} {f : Exc → Exc} {x : Rx α}
    {calls : List Call} (hf : ∀ e, ¬ E (f e)) :
    Fallible.Fails E (Fallible.mapOutcome (reraise cs f) x) calls ↔
      Fallible.Fails (Escapes cs E) x calls := by
  constructor
  · rintro ⟨e, hp, he⟩
    obtain ⟨q, hq, hr⟩ := Fallible.path_mapOutcome.mp hp
    obtain ⟨e', rfl, he'⟩ := (fails_reraise hf).mp ⟨e, hr.symm, he⟩
    exact ⟨e', hq, he'⟩
  · rintro ⟨e, hp, he⟩
    obtain ⟨e', hr, he'⟩ := (fails_reraise (x := (.error e : Py α)) hf).mpr ⟨e, rfl, he⟩
    exact ⟨e', Fallible.path_mapOutcome.mpr ⟨_, hp, hr.symm⟩, he'⟩

theorem caught_of {c : ExcClass} {cs : List ExcClass} {e : Exc} (h : Of c e) (hc : c ∈ cs) :
    cs.any e.cls.isA = true :=
  List.any_eq_true.mpr ⟨c, hc, h⟩

theorem not_escapes {c : ExcClass} {cs : List ExcClass} {E : Exc → Prop} {e : Exc} (h : Of c e)
    (hc : c ∈ cs) : ¬ Escapes cs E e :=
  fun hescapes => Bool.false_ne_true (hescapes.1.symm.trans (caught_of h hc))

/-! ## Steps 2 to 6 -/

section
variable {G : Runtime} {cfg : ReceiverConfig}

theorem typed_extractEnvelopeJws (body : Dict) : Typed (extractEnvelopeJws G body) := by
  unfold extractEnvelopeJws
  split
  · exact .throw rfl
  · refine .guard (fun _ => rfl) fun _ => ?_
    split
    · exact .throw rfl
    · split
      · exact .guard (fun _ => rfl) fun _ => .pure trivial
      · exact .throw rfl

theorem typed_preparse (body : Dict) : Typed (preparse G cfg body) := by
  unfold preparse
  refine .bind (typed_extractEnvelopeJws body) ?_
  rintro ⟨jws, message⟩ - -
  have hdecoded : ∀ {α : Type} (s : String) (x : Py α),
      Typed (x.mapError fun exc => parseError (text s ++ exc.msg)) := by
    intro α s x
    cases x with
    | ok a => trivial
    | error e => rfl
  refine .bind (hdecoded _ _) ?_
  rintro ⟨header, claims⟩ - -
  dsimp only
  split
  · refine .guard (fun _ => rfl) fun _ => .bind (hdecoded _ _) ?_
    rintro ⟨sender, recipient⟩ - -
    exact .guard (fun _ => rfl) fun _ => .pure trivial
  · exact .throw rfl

/-- The names of the envelope that `preparse` found. -/
theorem preparse_names {body : Dict} {p : Preparsed} (h : preparse G cfg body = .ok p) :
    ∃ header claims sender recipient, decodeHeader G p.envelopeJws = .ok header ∧
      decodeUnverifiedClaims G p.envelopeJws = .ok claims ∧
      claims.get? (text "from") = some (.str sender) ∧
      claims.get? (text "to") = some (.str recipient) ∧
      canonicalizeIdentifier G sender = .ok p.sender ∧
      canonicalizeIdentifier G recipient = .ok cfg.subject := by
  simp only [preparse, bind_eq_ok, mapError_eq_ok, Prod.exists] at h
  obtain ⟨jws, message, -, header, claims, ⟨hd, hhd, cl, hcl, hpair⟩, h⟩ := h
  cases hpair
  split at h
  · next raw raw' hfrom hto =>
    simp only [guard_eq_ok, bind_eq_ok, mapError_eq_ok, Prod.exists, pure_eq_ok, not_not] at h
    obtain ⟨-, sender, recipient, ⟨s, hs, r, hr, hsr⟩, hsubject, rfl⟩ := h
    cases hsr
    exact ⟨header, claims, raw, raw', hhd, hcl, hfrom, hto, hs, hsubject ▸ hr⟩
  · cases h

theorem parsePublicKey_of_validate {v w : Text} (h : validateMultibasePk G v = .ok w) :
    ∃ key, parsePublicKey G v = .ok key := by
  have hv := h
  simp only [validateMultibasePk, guard_eq_ok, bind_eq_ok, reraise_eq_ok] at hv
  obtain ⟨-, raw, ⟨decoded, hdec, hstrip⟩, -⟩ := hv
  exact ⟨raw, bind_eq_ok.mpr ⟨w, h, bind_eq_ok.mpr ⟨decoded, hdec, hstrip⟩⟩⟩

/-- The key of a text that `parse_public_key` accepts. -/
theorem yields_keyOf {name : Text} {record : Option ProviderRecord} {E : Exc → Prop}
    (h : ∃ key, parsePublicKey G name = .ok key) :
    Yields (fun _ => True) E (do
      let bytes ← parsePublicKey G name
      let k ← fromPublicBytes bytes
      pure (k, record) : Py (Bytes × Option ProviderRecord)) := by
  obtain ⟨key, hkey⟩ := h
  have hok := (@keyOf_eq_ok G name record record key).mpr ⟨hkey, rfl⟩
  rw [hok]
  trivial

theorem sat_py {α : Type} {D : Call → Prop} {R : α → Prop} {E : Exc → Prop} {x : Py α}
    (h : Yields R E x) : Fallible.Sat D (Yields R E) (py x) :=
  Fallible.sat_ofExcept h

theorem sat_call {D : Call → Prop} {E : Exc → Prop} (o : Op) :
    Fallible.Sat D (Yields (fun _ => True) E) (ask o) :=
  Fallible.sat_ask fun _ _ => trivial

theorem sat_askPy {α : Type} {D : Call → Prop} {Q : Py α → Prop} {o : Op} {raised : Ans o → Py α}
    (h : ∀ a, D ⟨o, a⟩ → Q (raised a)) : Fallible.Sat D Q (askPy o raised) := by
  intro calls r hp hD
  obtain ⟨a, rfl, rfl⟩ := path_askPy.mp hp
  exact h a (hD _ (List.mem_singleton.mpr rfl))

/-- A call of a plug-point whose documented error is caught. -/
theorem sat_lookup {domain : Text} {E : Exc → Prop} {cs : List ExcClass} {f : Exc → Exc}
    (hc : .providerResolutionError ∈ cs) (hf : ∀ e, E (f e)) :
    Fallible.Sat (Documented G)
      (Yields (fun record => ∀ k ∈ record.providerKeys, ∃ key, parsePublicKey G k = .ok key) E)
      (Fallible.mapOutcome (reraise cs f) (askPy (.providerLookup domain) id)) :=
  .mapOutcome (sat_askPy fun _ ha =>
    yields_reraise (ha.mono (fun _ _ h => h) fun _ he => caught_of he hc) hf)

/-- A canonical identifier is a key that parses or a Shadowname that splits. -/
theorem canonical_again {raw name : Text} (h : canonicalizeIdentifier G raw = .ok name) :
    (isPublicKeyIdentifier name = true ∧ ∃ key, parsePublicKey G name = .ok key) ∨
      (isPublicKeyIdentifier name = false ∧ ∃ parts, splitShadowname G name = .ok parts) := by
  unfold canonicalizeIdentifier at h
  split_ifs at h with hname hkey
  · have hat : isShadowname name = true := by
      simp only [validateShadowname, guard_eq_ok, bind_eq_ok, pure_eq_ok] at h
      obtain ⟨-, -, domain, -, rfl⟩ := h
      simp [isShadowname]
    exact .inr ⟨by simp [isPublicKeyIdentifier, hat], splitShadowname_again h⟩
  · have hraw : raw = name := by
      simp only [validateMultibasePk, guard_eq_ok, bind_eq_ok, pure_eq_ok] at h
      obtain ⟨-, -, -, -, rfl⟩ := h
      rfl
    subst hraw
    exact .inl ⟨hkey, parsePublicKey_of_validate h⟩

/-- Step 5, for the canonical form of a name. -/
theorem sat_resolveSender {raw sender : Text} (h : canonicalizeIdentifier G raw = .ok sender) :
    Fallible.Sat (Documented G) Typed (resolveSender G sender) := by
  unfold resolveSender
  rcases canonical_again h with ⟨hkey, hparse⟩ | ⟨hkey, ⟨loc, domain⟩, hsplit⟩
  · rw [if_pos hkey]
    exact sat_py (yields_keyOf hparse)
  · rw [if_neg (by simp [hkey])]
    refine @Fallible.Sat.bind _ _ _ _ _ _ (fun _ => True) _ _ _ _ ?_ fun record _ => ?_
    · rw [hsplit]
      have hlookup := @sat_lookup G domain Wire [.providerResolutionError]
        (fun exc => signatureError (text "could not resolve sender provider: " ++ exc.msg))
        (List.mem_singleton.mpr rfl) fun _ => rfl
      exact hlookup.mono fun r hr => hr.mono (fun _ _ _ => trivial) fun _ he => he
    · refine .bind (.mapOutcome (sat_askPy fun a ha => ?_)) fun card hcard =>
        sat_py (yields_keyOf hcard)
      exact yields_reraise (ha.mono (fun _ _ h => h)
        fun _ he => caught_of he (List.mem_singleton.mpr rfl)) fun _ => rfl

/-- `_verify_jws_signature` of a readable token raises signature errors only. -/
theorem yields_verifyJwsSignature {token : Text} (h : ReadableToken token) (key : Bytes) :
    Yields (fun _ => True) (Of .cryptoSignatureError) (verifyJwsSignature G token key) := by
  unfold verifyJwsSignature
  split
  · next header payload signature hsplit =>
    obtain ⟨⟨input, hinput⟩, sig, hsig⟩ := h header payload signature hsplit
    rw [hinput, ok_bind, hsig, ok_bind, verifySignature]
    split_ifs
    · exact .pure trivial
    · exact .throw rfl
  · exact .throw rfl

/-- The classes of what the two conversions of `_verify_jws_signature` raise. -/
def ConversionError (e : Exc) : Prop :=
  e.cls = .unicodeEncodeError ∨ e.cls = .valueError ∨ e.cls = .binasciiError

theorem ConversionError.escapes {e : Exc} (h : ConversionError e) {c : ExcClass}
    (hc : c = .envelopeError ∨ c = .credentialError) :
    Escapes [.jwtError, .cryptoSignatureError] (Escapes [c] Stray) e := by
  simp only [Escapes, Stray, Wire]
  rcases hc with rfl | rfl <;> rcases h with h | h | h <;> simp only [h] <;> decide

theorem fails_verifyJwsSignature {E : Exc → Prop}
    (hcaught : ∀ e, Of .cryptoSignatureError e → ¬ E e)
    (hraised : ∀ e, ConversionError e → E e) {token : Text} {key : Bytes} :
    Fails E (verifyJwsSignature G token key) ↔ ¬ ReadableToken token := by
  constructor
  · intro hfails htoken
    exact (yields_verifyJwsSignature htoken key).not_fails hcaught hfails
  · intro h
    rw [ReadableToken] at h
    push Not at h
    obtain ⟨header, payload, signature, hsplit, h⟩ := h
    rw [verifyJwsSignature, hsplit]
    dsimp only
    cases hinput : encodeAscii (header ++ 46 :: payload) with
    | error e =>
      refine ⟨e, rfl, hraised e (.inl ?_)⟩
      unfold encodeAscii at hinput
      split_ifs at hinput
      · cases hinput
      · cases hinput
        rfl
    | ok input =>
      cases hsig : urlsafeB64decode (signature ++ padding signature) with
      | ok sig => exact absurd hsig (h ⟨input, hinput⟩ sig)
      | error e =>
        refine ⟨e, rfl, hraised e (.inr ?_)⟩
        unfold urlsafeB64decode at hsig
        split_ifs at hsig
        · cases hsig
          exact .inl rfl
        · cases hdecode : lenientDecode ((signature ++ padding signature).map Fin.val) with
          | ok b =>
            rw [hdecode] at hsig
            cases hsig
          | error e' =>
            rw [hdecode] at hsig
            cases hsig
            cases e' <;> exact .inr rfl

/-- Envelope validation of names that are well formed raises what pydantic raises. -/
theorem yields_envelopeValidate {claims : Dict} {sender recipient name name' : Text}
    (hfrom : claims.get? (text "from") = some (.str sender))
    (hto : claims.get? (text "to") = some (.str recipient))
    (hs : canonicalizeIdentifier G sender = .ok name)
    (hr : canonicalizeIdentifier G recipient = .ok name') :
    Yields (fun _ => True) (Of .validationError) (EnvelopePayload.modelValidate G claims) := by
  have hfield : ∀ {raw canonical : Text}, canonicalizeIdentifier G raw = .ok canonical →
      identifierField G canonicalizeIdentifier (some (.str raw)) = .ok (some canonical) := by
    intro raw canonical h
    show (canonicalizeIdentifier G raw).map some = _
    rw [h]
    rfl
  have hitem : aliased claims (text "from") (text "sender") = some (text "from", .str sender) := by
    simp [aliased, hfrom]
  have hitem' : aliased claims (text "to") (text "recipient") =
      some (text "to", .str recipient) := by
    simp [aliased, hto]
  simp only [EnvelopePayload.modelValidate, hitem, hitem', Option.map_some, hfield hs, hfield hr,
    ok_bind]
  split
  · exact .pure trivial
  · exact .throw rfl

/-- Step 6, for the envelope that `preparse` found. -/
theorem fails_openEnvelope {body : Dict} {p : Preparsed} (h : preparse G cfg body = .ok p)
    {key : Bytes} {now : Int} :
    Fails Stray (openEnvelope G cfg p.envelopeJws key now) ↔
      SignatureDue G cfg p.envelopeJws now ∧ ¬ ReadableToken p.envelopeJws := by
  obtain ⟨header, claims, sender, recipient, hheader, hclaims, hfrom, hto, hs, hr⟩ :=
    preparse_names h
  have hvalid := yields_envelopeValidate hfrom hto hs hr
  have hwrapped : ∀ e : Exc, ¬ Stray (if occursIn (text "signature") (G.lower e.msg) then
      signatureError e.msg else parseError e.msg) := by
    intro e
    split_ifs
    · exact not_stray rfl
    · exact not_stray rfl
  have henvelope : ∀ msg, ¬ Escapes [.envelopeError] Stray (envelopeError msg) :=
    fun msg h => Bool.false_ne_true (h.1.symm.trans rfl)
  rw [openEnvelope, fails_reraise hwrapped]
  have hfound : ∀ {x : Py Dict} {d : Dict} (f : Exc → Exc), x = .ok d →
      reraise [.jwtError] f x = .ok d := fun f hx => reraise_eq_ok.mpr hx
  rw [verifyEnvelope, hfound _ hheader, hfound _ hclaims, ok_bind, fails_guard (henvelope _),
    fails_guard (henvelope _), ok_bind, fails_bind, fails_reraise fun e => henvelope _]
  simp only [fails_bind, fails_guard (henvelope _), fails_reraise fun _ => henvelope _,
    reraise_eq_ok, fails_pure, not_not, not_lt, ne_eq, and_false, exists_false, or_false]
  have hsignature := @fails_verifyJwsSignature G
    (Escapes [.jwtError, .cryptoSignatureError] (Escapes [.envelopeError] Stray))
    (fun e he => not_escapes he (by simp)) (fun e he => he.escapes (by simp)) p.envelopeJws key
  simp only [hsignature]
  constructor
  · rintro ⟨htyp, halg, hinvalid | ⟨payload, hpayload, hkid, hto', hlife, hexp, hiat, htoken⟩⟩
    · exact absurd hinvalid (hvalid.not_fails fun e he =>
        not_escapes he (List.mem_singleton.mpr rfl))
    · exact ⟨⟨header, claims, payload, hheader, htyp, halg, hclaims, hpayload, hkid, hto', hlife,
        hexp, hiat⟩, htoken⟩
  · rintro ⟨⟨header', claims', payload, hheader', htyp, halg, hclaims', hpayload, hkid, hto', hlife,
      hexp, hiat⟩, htoken⟩
    cases hheader.symm.trans hheader'
    cases hclaims.symm.trans hclaims'
    exact ⟨htyp, halg, .inr ⟨payload, hpayload, hkid, hto', hlife, hexp, hiat, htoken⟩⟩

/-! ## Steps 7 and 8 -/

/-- A message around an envelope has an object as its metadata. -/
theorem extract_metadata {body message : Dict} {jws : Text}
    (h : extractEnvelopeJws G body = .ok (jws, message)) :
    ∃ d, message.sub? (text "metadata") = some d := by
  unfold extractEnvelopeJws at h
  split at h
  · cases h
  · rw [guard_eq_ok] at h
    obtain ⟨-, h⟩ := h
    split at h
    · cases h
    · next metadata hmeta =>
      split at h
      · next envelope henv =>
        rw [guard_eq_ok, pure_eq_ok] at h
        cases h.2
        unfold dictOrEmpty at hmeta
        split at hmeta
        · next d hd => exact ⟨d, hd⟩
        · obtain ⟨-, -, rfl⟩ := Option.map_eq_some_iff.mp hmeta
          cases henv
      · cases h

/-- The classes `canonicalize` raises. -/
def EncodingError (e : Exc) : Prop :=
  e.cls = .jcsError ∨ e.cls = .unicodeEncodeError ∨ e.cls = .valueError

theorem EncodingError.stray {e : Exc} (h : EncodingError e) : Stray e := by
  unfold Stray Wire
  rcases h with h | h | h <;> simp [h, ExcClass.isA, ExcClass.bases]

theorem yields_encodeString (s : Text) : Yields (fun _ => True) EncodingError (encodeString s) :=
  .bind (.mapM (S := fun _ => True) fun _ _ => .guard (fun _ => .inl rfl) fun _ => .pure trivial)
    fun _ _ _ => .pure trivial

theorem yields_encode (v : Value) : Yields (fun _ => True) EncodingError (encode v) := by
  induction v using Json.ind with
  | null => exact .pure trivial
  | bool b => cases b <;> exact .pure trivial
  | num n =>
    cases n with
    | int n =>
      rw [encode, strInt]
      -- the limit is too large a number to look into
      generalize intLimit = limit
      split_ifs
      · exact .throw (.inr (.inr rfl))
      · exact .pure trivial
    | float b => exact .throw (.inl rfl)
  | str s => exact yields_encodeString s
  | arr items ih =>
    rw [encode, encodeItems_eq]
    exact .bind (.mapM ih) fun _ _ _ => .pure trivial
  | obj members ih =>
    rw [encode, encodeMembers_eq, encodeObject]
    split
    · exact .throw (.inr (.inl rfl))
    · refine .bind (.mapM (S := fun _ => True) fun m hm => ?_) fun _ _ _ => .pure trivial
      obtain ⟨m', hm', rfl⟩ := List.mem_map.mp ((List.mem_insertionSort _).mp hm)
      exact .bind (yields_encodeString _) fun _ _ _ =>
        .bind (ih m' hm') fun _ _ _ => .pure trivial


/-- Step 7, for a message that came with an envelope. -/
theorem fails_checkMessage {body message : Dict} {jws : Text}
    (h : extractEnvelopeJws G body = .ok (jws, message)) {envelope : EnvelopePayload} :
    Fails Stray (checkMessage G envelope message) ↔ ¬ Hashable message := by
  obtain ⟨d, hd⟩ := extract_metadata h
  have hinput := canonicalInput_eq_ok.mpr ⟨.inr ⟨d, hd⟩, rfl⟩
  generalize (hashedKeys.filterMap fun k => (message.get? k).map (k, ·)) ++
    (hashedMetadata message).toList.map (text "metadata", ·) = input at hinput
  have hashable : Hashable message ↔ Encodable (.obj input) := by
    rw [Hashable, hinput]
    exact ⟨fun h => h _ rfl, fun h input' hi => Except.ok.inj hi ▸ h⟩
  rw [hashable, checkMessage, fails_bind]
  constructor
  · rintro (⟨e, he, -⟩ | ⟨recomputed, -, hfails⟩) hencodable
    · rw [(computeMsgHash_eq_ok (G := G)).mpr
        ⟨input, _, hinput, canonicalize_eq_ok.mpr ⟨hencodable, rfl⟩, rfl⟩] at he
      cases he
    · -- what comes after the hash raises parse errors
      rw [fails_guard (show ¬ Stray (parseError _) from not_stray rfl)] at hfails
      obtain ⟨-, hfails⟩ := hfails
      split at hfails
      · exact fails_pure hfails
      · obtain ⟨e, he, hwire⟩ := hfails
        cases he
        exact absurd rfl hwire
  · intro hencodable
    left
    cases hencode : encode (.obj input) with
    | ok t => exact absurd (encode_eq_ok.mp hencode).1 hencodable
    | error e =>
      have hclass := yields_encode (.obj input)
      rw [hencode] at hclass
      refine ⟨e, ?_, EncodingError.stray hclass⟩
      rw [computeMsgHash, hinput, ok_bind, canonicalize, hencode]
      rfl

/-- Step 8. -/
theorem sat_admitMessage (sender messageId : Text) :
    Fallible.Sat (Documented G) Typed (admitMessage G sender messageId) := by
  refine .bind (sat_call (.seen sender messageId)) fun seen _ => ?_
  exact .ite (fun _ => Fallible.sat_throw rfl) fun _ => sat_call (.remember sender messageId 600)

/-! ## Step 9 -/

/-- A canonical issuer is a key that parses or a domain that is accepted again. The hypothesis is
that `str.lower` leaves no upper-case letter. -/
theorem canonicalIssuer_again (hlower : ∀ s, ∀ c ∈ G.lowerUnicode s, lowerAscii c = c)
    {raw name : Text} (h : canonicalizeIssuerOrOrgIdentifier G raw = .ok name) :
    (isPublicKeyIdentifier name = true ∧ ∃ key, parsePublicKey G name = .ok key) ∨
      (isPublicKeyIdentifier name = false ∧ ∃ domain, validateDomain G name = .ok domain) := by
  unfold canonicalizeIssuerOrOrgIdentifier at h
  split_ifs at h with hkey
  · have hraw : raw = name := by
      simp only [validateMultibasePk, guard_eq_ok, bind_eq_ok, pure_eq_ok] at h
      obtain ⟨-, -, -, -, rfl⟩ := h
      rfl
    subst hraw
    exact .inl ⟨hkey, parsePublicKey_of_validate h⟩
  · refine .inr ⟨?_, validateDomain_again h⟩
    -- the letter M of the prefix is no lower-case letter
    have hlow : ∀ c ∈ name, lowerAscii c = c := by
      simp only [validateDomain, guard_eq_ok] at h
      obtain ⟨-, h⟩ := h
      split at h
      · cases h
      · rw [← pure_eq_ok.mp h, Runtime.lower]
        split_ifs
        · intro c hc
          obtain ⟨d, -, rfl⟩ := List.mem_map.mp hc
          exact Interop.lowerAscii_idem d
        · exact hlower _
    rw [isPublicKeyIdentifier, Bool.and_eq_false_iff]
    left
    by_contra hprefix
    obtain ⟨t, rfl⟩ := List.isPrefixOf_iff_prefix.mp (Bool.eq_true_of_not_eq_false hprefix)
    have hM : (77 : CodePoint) ∈ text "z6Mk" ++ t := List.mem_append_left _ (by decide)
    exact absurd (hlow 77 hM) (by decide)

/-- The claims of a presented credential that passes have canonical names. -/
theorem checkClaims_names {token : Text} {now leeway : Int} {p : CredentialPayload}
    (h : checkClaims G token now leeway = .ok p) :
    (∃ raw, canonicalizeIssuerOrOrgIdentifier G raw = .ok p.iss) ∧
      ∃ raw, canonicalizeIssuerOrOrgIdentifier G raw = .ok p.org := by
  obtain ⟨⟨d, -, hvalid⟩, -⟩ := checkClaims_ok h
  simp only [CredentialPayload.modelValidate, bind_eq_ok] at hvalid
  obtain ⟨iss, hiss, sub, -, org, horg, hvalid⟩ := hvalid
  have hfield : ∀ {v : Option Value} {name : Text},
      identifierField G canonicalizeIssuerOrOrgIdentifier v = .ok (some name) →
      ∃ raw, canonicalizeIssuerOrOrgIdentifier G raw = .ok name := by
    intro v name hv
    unfold identifierField at hv
    split at hv
    · cases hv
    · obtain ⟨c, hc, hsome⟩ := map_eq_ok.mp hv
      cases hsome
      exact ⟨_, hc⟩
  split at hvalid
  · next q hq =>
    rw [pure_eq_ok] at hvalid
    subst hvalid
    simp only [Option.bind_eq_bind, Option.bind_eq_some_iff, Option.pure_def,
      Option.some.injEq] at hq
    obtain ⟨i, rfl, s, -, kind, -, o, rfl, iat, -, exp, -, rev, -, rfl⟩ := hq
    exact ⟨hfield hiss, hfield horg⟩
  · cases hvalid

theorem sat_resolveIssuerKey (hlower : ∀ s, ∀ c ∈ G.lowerUnicode s, lowerAscii c = c)
    {raw iss : Text} (h : canonicalizeIssuerOrOrgIdentifier G raw = .ok iss) :
    Fallible.Sat (Documented G) (Yields (fun k => ∃ key, parsePublicKey G k = .ok key)
      (Of .credentialError)) (resolveIssuerKey G iss) := by
  unfold resolveIssuerKey
  rcases canonicalIssuer_again hlower h with ⟨hkey, hparse⟩ | ⟨hkey, -⟩
  · rw [if_pos hkey]
    exact Fallible.sat_pure hparse
  · rw [if_neg (by simp [hkey])]
    refine .bind (sat_lookup (List.mem_singleton.mpr rfl) fun _ => rfl) fun record hkeys => ?_
    split
    · exact Fallible.sat_throw rfl
    · next key rest hrecord =>
      exact Fallible.sat_pure (hkeys key (by rw [hrecord]; exact List.mem_cons_self))

theorem sat_checkIssuerAuthorized (hlower : ∀ s, ∀ c ∈ G.lowerUnicode s, lowerAscii c = c)
    {raw raw' iss org : Text} (hiss : canonicalizeIssuerOrOrgIdentifier G raw = .ok iss)
    (horg : canonicalizeIssuerOrOrgIdentifier G raw' = .ok org) :
    Fallible.Sat (Documented G) (Yields (fun _ => True) (Of .credentialError))
      (checkIssuerAuthorizedForOrg G iss org) := by
  unfold checkIssuerAuthorizedForOrg
  refine .ite (fun _ => Fallible.sat_pure trivial) fun _ => ?_
  refine .ite (fun _ => Fallible.sat_throw rfl) fun hkeys => ?_
  rw [Bool.or_eq_true, not_or] at hkeys
  rcases canonicalIssuer_again hlower hiss with ⟨hkey, -⟩ | ⟨-, d, hd⟩
  · exact absurd hkey hkeys.1
  rcases canonicalIssuer_again hlower horg with ⟨hkey, -⟩ | ⟨-, d', hd'⟩
  · exact absurd hkey hkeys.2
  have hsub : isSubdomainOf G iss org = .ok (d == d' || (46 :: d').isSuffixOf d) := by
    rw [isSubdomainOf, hd, ok_bind, hd', ok_bind]
    rfl
  rw [hsub]
  refine .bind (sat_py (@Yields.pure _ _ (fun _ => True) _ _ trivial)) fun sub _ => ?_
  refine .ite (fun _ => Fallible.sat_pure trivial) fun _ => ?_
  refine .bind (sat_lookup (List.mem_singleton.mpr rfl) fun _ => rfl) fun record _ => ?_
  exact .ite (fun _ => Fallible.sat_pure trivial) fun _ => Fallible.sat_throw rfl

theorem fails_identifierField {E : Exc → Prop} (hE : ∀ e, e.cls = .invalidIdentifierError → E e)
    {canonicalize : Runtime → Text → Py Text}
    (h : ∀ s, Raises .invalidIdentifierError (canonicalize G s)) {v : Option Value} :
    Fails E (identifierField G canonicalize v) ↔
      ∃ e, identifierField G canonicalize v = .error e := by
  refine ⟨fun ⟨e, he, _⟩ => ⟨e, he⟩, fun ⟨e, he⟩ => ⟨e, he, hE e ?_⟩⟩
  unfold identifierField at he
  split at he
  · cases he
  · next s _ =>
    cases hs : canonicalize G s with
    | ok a =>
      rw [hs] at he
      cases he
    | error e' =>
      rw [hs] at he
      cases he
      exact h s e hs

/-- The validation of the claims of a credential, where its own error is not in question. -/
theorem fails_modelValidate {E : Exc → Prop} (hE : ∀ e, e.cls = .invalidIdentifierError → E e)
    (hcaught : ∀ e, Of .validationError e → ¬ E e) {claims : Dict} :
    Fails E (CredentialPayload.modelValidate G claims) ↔ MalformedName G claims := by
  have hissuer := fun v => @fails_identifierField G E hE canonicalizeIssuerOrOrgIdentifier
    raises_canonicalizeIssuerOrOrgIdentifier v
  have hsubject := fun v => @fails_identifierField G E hE canonicalizeIdentifier
    raises_canonicalizeIdentifier v
  simp only [CredentialPayload.modelValidate, fails_bind, hissuer, hsubject, MalformedName]
  constructor
  · rintro (h | ⟨iss, -, h | ⟨sub, -, h | ⟨org, -, h⟩⟩⟩)
    · exact .inl h
    · exact .inr (.inl h)
    · exact .inr (.inr h)
    · split at h
      · exact absurd h fails_pure
      · obtain ⟨e, he, hraised⟩ := h
        cases he
        exact absurd hraised (hcaught _ rfl)
  · intro h
    cases hiss : identifierField G canonicalizeIssuerOrOrgIdentifier (claims.get? (text "iss")) with
    | error e => exact .inl ⟨e, rfl⟩
    | ok iss =>
      refine .inr ⟨iss, rfl, ?_⟩
      cases hsub : identifierField G canonicalizeIdentifier (claims.get? (text "sub")) with
      | error e => exact .inl ⟨e, rfl⟩
      | ok sub =>
        refine .inr ⟨sub, rfl, .inl ?_⟩
        rw [hiss, hsub] at h
        simpa using h

/-- The errors that the check of a credential does not turn into wire errors. -/
abbrev Unrejected : Exc → Prop := Escapes [.credentialError] Stray

theorem not_unrejected (msg : Text) : ¬ Unrejected (credentialError msg) :=
  not_escapes (c := .credentialError) rfl (List.mem_singleton.mpr rfl)

theorem fails_checkClaims {token : Text} {now leeway : Int} :
    Fails Unrejected (checkClaims G token now leeway) ↔ UnreadableClaims G token := by
  have hmodel := @fails_modelValidate G (Escapes [.validationError] Unrejected)
    (fun e he => by simp only [Escapes, Stray, Wire, he]; decide)
    (fun e he => not_escapes he (List.mem_singleton.mpr rfl))
  simp only [checkClaims, fails_bind, fails_reraise fun _ => not_unrejected _,
    fails_guard (not_unrejected _), hmodel, reraise_eq_ok, fails_pure, not_not, and_false,
    exists_false, or_false]
  rfl

/-- The signature check under a key that parses. -/
theorem fails_checkIssuerSignature {token issuerKey : Text}
    (h : ∃ key, parsePublicKey G issuerKey = .ok key) :
    Fails Unrejected (checkIssuerSignature G token issuerKey) ↔ ¬ ReadableToken token := by
  obtain ⟨key, hkey⟩ := h
  have hbytes := fromPublicBytes_eq_ok.mpr ⟨parsePublicKey_length hkey, rfl⟩
  rw [checkIssuerSignature, hkey, ok_bind, hbytes, ok_bind,
    fails_reraise fun _ => not_unrejected _,
    fails_verifyJwsSignature (fun e he => not_escapes he (by simp))
      fun e he => he.escapes (.inr rfl)]

/-- `verify_credential`, with answers of the plug-points within their documentation. -/
theorem fails_verifyCredential (hlower : ∀ s, ∀ c ∈ G.lowerUnicode s, lowerAscii c = c)
    {token : Text} {now leeway : Int} {calls : List Call} (hdoc : ∀ c ∈ calls, Documented G c) :
    Fallible.Fails Unrejected (verifyCredential G token now leeway (resolveIssuerKey G)
        (checkIssuerAuthorizedForOrg G)) calls ↔
      (calls = [] ∧ UnreadableClaims G token) ∨
        ∃ p key, checkClaims G token now leeway = .ok p ∧
          Fallible.Path (resolveIssuerKey G p.iss) calls (.ok key) ∧ ¬ ReadableToken token := by
  have hcredential : ∀ e, Of .credentialError e → ¬ Unrejected e :=
    fun e he => not_escapes he (List.mem_singleton.mpr rfl)
  refine Fallible.fails_ofExcept_bind.trans
    (or_congr (and_congr_right fun _ => fails_checkClaims) ?_)
  constructor
  · rintro ⟨p, hp, h⟩
    obtain ⟨⟨raw, hiss⟩, raw', horg⟩ := checkClaims_names hp
    have hresolve := sat_resolveIssuerKey hlower hiss
    rcases Fallible.fails_bind.mp h with h | ⟨c₁, c₂, key, rfl, hkey, h⟩
    · exact absurd h (hresolve.not_fails hcredential hdoc)
    · rw [List.forall_mem_append] at hdoc
      have hparse := hresolve _ _ hkey hdoc.1
      rcases Fallible.fails_ofExcept_bind.mp h with ⟨rfl, hsignature⟩ | ⟨_, -, h⟩
      · rw [List.append_nil]
        exact ⟨p, key, hp, hkey, (fails_checkIssuerSignature hparse).mp hsignature⟩
      · have hrest : Fallible.Sat (Documented G) (Yields (fun _ => True) (Of .credentialError))
            (checkIssuerAuthorizedForOrg G p.iss p.org >>= fun _ =>
              (pure ⟨p, key, token⟩ : Rx VerifiedCredential)) :=
          .bind (sat_checkIssuerAuthorized hlower hiss horg) fun _ _ => Fallible.sat_pure trivial
        exact absurd h (hrest.not_fails hcredential hdoc.2)
  · rintro ⟨p, key, hp, hkey, htoken⟩
    obtain ⟨⟨raw, hiss⟩, -⟩ := checkClaims_names hp
    have hparse := sat_resolveIssuerKey hlower hiss _ _ hkey hdoc
    exact ⟨p, hp, Fallible.fails_bind.mpr (.inr ⟨calls, [], key, (List.append_nil _).symm, hkey,
      Fallible.fails_ofExcept_bind.mpr (.inl ⟨rfl, (fails_checkIssuerSignature hparse).mpr
        htoken⟩)⟩)⟩

/-- One round of the loop over the presented credentials. -/
theorem fails_validateCred (hlower : ∀ s, ∀ c ∈ G.lowerUnicode s, lowerAscii c = c)
    {sender jws : Text} {calls : List Call} (hdoc : ∀ c ∈ calls, Documented G c) :
    Fallible.Fails Stray (validateCred G cfg sender jws) calls ↔
      StrayCredential G cfg jws calls := by
  have hrejected : ∀ msg, ¬ Stray (credsRejectedError msg) := fun _ => not_stray rfl
  constructor
  · intro h
    obtain ⟨now, rest, rfl, hrest⟩ := Fallible.fails_ask_bind.mp h
    clear h
    rw [List.forall_mem_cons] at hdoc
    rcases Fallible.fails_bind.mp hrest with h | ⟨c₁, c₂, cred, rfl, -, h⟩
    · rw [fails_mapOutcome fun _ => hrejected _, fails_verifyCredential hlower hdoc.2] at h
      rcases h with ⟨rfl, h⟩ | ⟨p, key, hp, hkey, h⟩
      · exact .claims now h
      · exact .signature now p rest key hp hkey h
    · rw [List.forall_mem_append] at hdoc
      have hrest : Fallible.Sat (Documented G) Typed (do
          revocationStep cred
          let later ← ask .now
          ask (.cache sender cred (min (cred.payload.exp - 60) (later + 2592000)))
          pure cred) := by
        refine .bind (.mapOutcome (sat_askPy fun a ha => yields_reraise (ha.mono (fun _ _ h => h)
          fun _ he => caught_of he (List.mem_singleton.mpr rfl)) fun _ => rfl)) fun _ _ => ?_
        refine .bind (sat_call .now) fun later _ => ?_
        exact .bind (sat_call (.cache sender cred (min (cred.payload.exp - 60) (later + 2592000))))
          fun _ _ => Fallible.sat_pure trivial
      exact absurd h (hrest.not_fails (fun _ => not_stray) hdoc.2.2)
  · intro h
    have hverify : ∀ {now : Int} {rest : List Call}, (∀ c ∈ rest, Documented G c) →
        ((rest = [] ∧ UnreadableClaims G jws) ∨
          ∃ p key, checkClaims G jws now cfg.leewaySeconds = .ok p ∧
            Fallible.Path (resolveIssuerKey G p.iss) rest (.ok key) ∧ ¬ ReadableToken jws) →
        Fallible.Fails Stray (validateCred G cfg sender jws) (⟨.now, now⟩ :: rest) :=
      fun hrest h => Fallible.fails_ask_bind.mpr ⟨_, _, rfl, Fallible.fails_bind.mpr (.inl
        ((fails_mapOutcome fun _ => hrejected _).mpr
          ((fails_verifyCredential hlower hrest).mpr h)))⟩
    cases h with
    | claims now h => exact hverify (by simp) (.inl ⟨rfl, h⟩)
    | signature now p calls key hp hkey h =>
      rw [List.forall_mem_cons] at hdoc
      exact hverify hdoc.2 (.inr ⟨p, key, hp, hkey, h⟩)

/-- The loop raises at a credential when those before it pass. -/
theorem fails_validateAll (hlower : ∀ s, ∀ c ∈ G.lowerUnicode s, lowerAscii c = c)
    {sender : Text} {creds : List Text} {calls : List Call}
    (hdoc : ∀ c ∈ calls, Documented G c) :
    Fallible.Fails Stray (validateAll G cfg sender creds) calls ↔
      ∃ before jws after c₁ c₂ credentials, creds = before ++ jws :: after ∧ calls = c₁ ++ c₂ ∧
        Fallible.Path (validateAll G cfg sender before) c₁ (.ok credentials) ∧
        StrayCredential G cfg jws c₂ := by
  induction creds generalizing calls with
  | nil =>
    constructor
    · rintro ⟨e, h, -⟩
      cases (Fallible.path_pure.mp h).2
    · rintro ⟨before, jws, after, c₁, c₂, credentials, h, -⟩
      simp at h
  | cons first creds ih =>
    rw [validateAll, Fallible.fails_bind]
    constructor
    · rintro (h | ⟨c₁, c₂, cred, rfl, hfirst, h⟩)
      · exact ⟨[], first, creds, [], calls, [], rfl, rfl, Fallible.path_pure.mpr ⟨rfl, rfl⟩,
          (fails_validateCred hlower hdoc).mp h⟩
      · rw [List.forall_mem_append] at hdoc
        rcases Fallible.fails_bind.mp h with h | ⟨d₁, d₂, rest, -, -, e, h, -⟩
        · obtain ⟨before, jws, after, d₁, d₂, credentials, rfl, rfl, hbefore, h⟩ :=
            (ih hdoc.2).mp h
          refine ⟨first :: before, jws, after, c₁ ++ d₁, d₂, cred :: credentials, rfl,
            (List.append_assoc _ _ _).symm, ?_, h⟩
          exact Fallible.path_bind_ok.mpr ⟨c₁, d₁, cred, rfl, hfirst, Fallible.path_bind_ok.mpr
            ⟨d₁, [], credentials, (List.append_nil _).symm, hbefore,
              Fallible.path_pure.mpr ⟨rfl, rfl⟩⟩⟩
        · cases (Fallible.path_pure.mp h).2
    · rintro ⟨before, jws, after, c₁, c₂, credentials, hcreds, rfl, hbefore, h⟩
      rw [List.forall_mem_append] at hdoc
      cases before with
      | nil =>
        obtain ⟨rfl, -⟩ := Fallible.path_pure.mp hbefore
        cases hcreds
        exact .inl ((fails_validateCred hlower hdoc.2).mpr h)
      | cons first' before =>
        cases hcreds
        obtain ⟨d₁, d₂, cred, rfl, hfirst, htail⟩ := Fallible.path_bind_ok.mp hbefore
        obtain ⟨d₂, d₃, rest, rfl, hrest, hret⟩ := Fallible.path_bind_ok.mp htail
        obtain ⟨rfl, -⟩ := Fallible.path_pure.mp hret
        rw [List.append_nil] at hdoc ⊢
        rw [List.forall_mem_append] at hdoc
        refine .inr ⟨d₁, d₂ ++ c₂, cred, List.append_assoc _ _ _, hfirst,
          Fallible.fails_bind.mpr (.inl ?_)⟩
        exact (ih (List.forall_mem_append.mpr ⟨hdoc.1.2, hdoc.2⟩)).mpr
          ⟨before, jws, after, d₂, c₂, rest, rfl, rfl, hrest, h⟩

/-! ## Step 10 -/

theorem typed_contextIdOf (message : Dict) : Typed (contextIdOf message) := by
  unfold contextIdOf
  split
  · exact .pure trivial
  · exact .pure trivial
  · exact .pure trivial
  · exact .throw rfl

theorem typed_classifyStranger (sender : Text) (credentials : List VerifiedCredential) :
    Typed (classifyStranger G cfg sender credentials) := by
  unfold classifyStranger
  refine .guard (fun _ => rfl) fun _ => ?_
  split
  · split
    · exact .throw rfl
    · exact .throw rfl
  · exact .pure trivial

theorem sat_classify {raw : Text} (h : canonicalizeIdentifier G raw = .ok cfg.subject)
    (sender : Text) (record : Option ProviderRecord) (credentials : List VerifiedCredential)
    (contextId : Option Text) :
    Fallible.Sat (Documented G) Typed
      (classify G cfg sender record credentials contextId) := by
  have hsame : Typed (sameProvider G cfg record) := by
    unfold sameProvider
    split
    · exact .pure trivial
    · split_ifs with hc
      · rw [Bool.and_eq_true] at hc
        rcases canonical_again h with ⟨hkey, -⟩ | ⟨-, parts, hparts⟩
        · rw [isPublicKeyIdentifier, hc.2] at hkey
          simp at hkey
        · rw [hparts]
          exact .pure trivial
      · exact .pure trivial
  refine .bind (sat_py hsame) fun same _ => ?_
  refine .ite (fun _ => Fallible.sat_pure trivial) fun _ =>
    .bind (sat_call (.isContact sender)) fun contact _ => ?_
  refine .ite (fun _ => Fallible.sat_pure trivial) fun _ => ?_
  have hrecent : Fallible.Sat (Documented G) Typed (recentOutbound cfg sender contextId) := by
    unfold recentOutbound
    split
    · exact Fallible.sat_pure trivial
    · exact Fallible.sat_pure trivial
    · exact sat_call (.hasRecentOutbound _ _ _)
  refine .bind hrecent fun recent _ => ?_
  exact .ite (fun _ => .bind (sat_call (.addContact sender)) fun _ _ => Fallible.sat_pure trivial)
    fun _ => sat_py (typed_classifyStranger sender credentials)

/-! ## The pipeline -/

/-- Steps 2 to 7. -/
theorem fails_authenticate {body : Dict} {calls : List Call} (hdoc : ∀ c ∈ calls, Documented G c) :
    Fallible.Fails Stray (authenticate G cfg body) calls ↔
      ∃ p resolving key record now, preparse G cfg body = .ok p ∧
        calls = resolving ++ [⟨.now, now⟩] ∧ SenderKey G p.sender resolving key record ∧
        ((SignatureDue G cfg p.envelopeJws now ∧ ¬ ReadableToken p.envelopeJws) ∨
          ∃ envelope, openEnvelope G cfg p.envelopeJws key now = .ok envelope ∧
            ¬ Hashable p.message) := by
  constructor
  · intro h
    rcases Fallible.fails_ofExcept_bind.mp h with ⟨-, h⟩ | ⟨p, hp, h⟩
    · exact absurd h ((typed_preparse body).not_fails fun _ => not_stray)
    obtain ⟨header, claims, sender, recipient, -, -, -, -, hsender, -⟩ := preparse_names hp
    rcases Fallible.fails_bind.mp h with h | ⟨c₁, c₂, ⟨key, record⟩, rfl, hkey, hopen⟩
    · exact absurd h ((sat_resolveSender hsender).not_fails (fun _ => not_stray) hdoc)
    rw [resolveSender_eq_ok] at hkey
    dsimp only at hopen
    obtain ⟨now, rest, rfl, hnow⟩ := Fallible.fails_ask_bind.mp hopen
    rcases Fallible.fails_ofExcept_bind.mp hnow with ⟨rfl, hdue⟩ | ⟨envelope, henvelope, hcheck⟩
    · exact ⟨p, c₁, key, record, now, hp, rfl, hkey, .inl ((fails_openEnvelope hp).mp hdue)⟩
    rcases Fallible.fails_ofExcept_bind.mp hcheck with ⟨rfl, hmessage⟩ | ⟨messageId, -, e, hend, -⟩
    · exact ⟨p, c₁, key, record, now, hp, rfl, hkey,
        .inr ⟨envelope, henvelope, (fails_checkMessage (preparse_parts hp).1).mp hmessage⟩⟩
    · cases (Fallible.path_pure.mp hend).2
  · rintro ⟨p, resolving, key, record, now, hp, rfl, hkey, h⟩
    refine Fallible.fails_ofExcept_bind.mpr (.inr ⟨p, hp, Fallible.fails_bind.mpr (.inr
      ⟨resolving, [⟨.now, now⟩], (key, record), rfl, resolveSender_eq_ok.mpr hkey,
        Fallible.fails_ask_bind.mpr ⟨now, [], rfl, Fallible.fails_ofExcept_bind.mpr ?_⟩⟩)⟩)
    rcases h with h | ⟨envelope, henvelope, h⟩
    · exact .inl ⟨rfl, (fails_openEnvelope hp).mpr h⟩
    · exact .inr ⟨envelope, henvelope, Fallible.fails_ofExcept_bind.mpr
        (.inl ⟨rfl, (fails_checkMessage (preparse_parts hp).1).mpr h⟩)⟩

/-- Steps 9 and 10. -/
theorem fails_decideRoute (hlower : ∀ s, ∀ c ∈ G.lowerUnicode s, lowerAscii c = c)
    {a : Authenticated} {raw : Text} (hsubject : canonicalizeIdentifier G raw = .ok cfg.subject)
    {calls : List Call} (hdoc : ∀ c ∈ calls, Documented G c) :
    Fallible.Fails Stray (decideRoute G cfg a) calls ↔
      ∃ before jws after c₁ c₂ credentials, a.envelope.creds = before ++ jws :: after ∧
        calls = c₁ ++ c₂ ∧
        Fallible.Path (validateAll G cfg a.sender before) c₁ (.ok credentials) ∧
        StrayCredential G cfg jws c₂ := by
  rw [← fails_validateAll hlower hdoc, decideRoute, Fallible.fails_bind, validateCreds]
  constructor
  · rintro (h | ⟨c₁, c₂, credentials, rfl, -, h⟩)
    · split_ifs at h
      · exact h
      · exact absurd h Fallible.not_fails_ask
    · rw [List.forall_mem_append] at hdoc
      refine absurd h (Fallible.Sat.not_fails (R := fun _ => True) ?_ (fun _ => not_stray) hdoc.2)
      exact .bind (sat_py (typed_contextIdOf a.message)) fun contextId _ =>
        .bind (sat_classify hsubject a.sender a.record credentials contextId)
          fun _ _ => Fallible.sat_pure trivial
  · intro h
    left
    have hcreds : a.envelope.creds ≠ [] := by
      intro hnil
      obtain ⟨e, hpath, -⟩ := h
      rw [hnil] at hpath
      cases (Fallible.path_pure.mp hpath).2
    rwa [if_pos hcreds]

/-- The calls that lead `receive` to an exception that is no wire error. -/
theorem fails_receive (hlower : ∀ s, ∀ c ∈ G.lowerUnicode s, lowerAscii c = c) {body : Dict}
    {calls : List Call} (hdoc : ∀ c ∈ calls, Documented G c) :
    Fallible.Fails Stray (receive G cfg body) calls ↔
      StrayRequest G cfg body calls := by
  rw [receive, Fallible.fails_bind, fails_authenticate hdoc]
  constructor
  · rintro (⟨p, resolving, key, record, now, hp, rfl, hkey, ⟨hdue, h⟩ | ⟨envelope, henvelope, h⟩⟩ |
      ⟨c₁, c₂, a, rfl, ha, h⟩)
    · exact .token p resolving key record now hp hkey hdue h
    · exact .message p resolving key record now envelope hp hkey henvelope h
    · rw [List.forall_mem_append] at hdoc
      rcases Fallible.fails_bind.mp h with h | ⟨d₁, d₂, _, rfl, hadmit, hroute⟩
      · exact absurd h ((sat_admitMessage _ _).not_fails (fun _ => not_stray) hdoc.2)
      · obtain ⟨p, -, -, -, hp, -⟩ := authenticate_eq_ok.mp ha
        obtain ⟨-, -, -, recipient, -, -, -, -, -, hsubject⟩ := preparse_names hp
        rw [List.forall_mem_append] at hdoc
        obtain ⟨before, jws, after, e₁, e₂, credentials, hcreds, rfl, hbefore, hstray⟩ :=
          (fails_decideRoute hlower hsubject hdoc.2.2).mp hroute
        rcases admit_path hadmit with ⟨e, -, h'⟩ | ⟨rfl, -⟩
        · cases h'
        · rw [← List.append_assoc]
          exact .credential a c₁ e₁ e₂ before after jws credentials ha hcreds hbefore hstray
  · intro h
    cases h with
    | token p resolving key record now hp hkey hdue h =>
      exact .inl ⟨p, resolving, key, record, now, hp, rfl, hkey, .inl ⟨hdue, h⟩⟩
    | message p resolving key record now envelope hp hkey henvelope h =>
      exact .inl ⟨p, resolving, key, record, now, hp, rfl, hkey, .inr ⟨envelope, henvelope, h⟩⟩
    | credential a authenticating validating calls before after jws credentials ha hcreds hbefore
        h =>
      obtain ⟨p, -, -, -, hp, -⟩ := authenticate_eq_ok.mp ha
      obtain ⟨-, -, -, recipient, -, -, -, -, -, hsubject⟩ := preparse_names hp
      rw [List.forall_mem_append] at hdoc
      refine .inr ⟨authenticating, _, a, List.append_assoc _ _ _, ha, Fallible.fails_bind.mpr (.inr
        ⟨_, validating ++ calls, (), rfl, ?_, (fails_decideRoute hlower hsubject hdoc.2).mpr
          ⟨before, jws, after, validating, calls, credentials, hcreds, rfl, hbefore, h⟩⟩)⟩
      exact Fallible.path_bind_ok.mpr ⟨[_], [_], false, rfl, path_ask.mpr ⟨false, rfl, rfl⟩,
        path_ask.mpr ⟨(), rfl, rfl⟩⟩

end

/-- Whatever the stores and the plug-points answer within their documentation, `receive` returns a
decision or raises a wire error, except at the requests of `StrayValue`. The hypothesis is that
`str.lower` leaves no upper-case ASCII letter. -/
theorem receive_typed (G : Runtime) (hlower : ∀ s, ∀ c ∈ G.lowerUnicode s, lowerAscii c = c)
    (cfg : ReceiverConfig) (v : Value) (hv : v.Distinct) (calls : List Call)
    (hdoc : ∀ c ∈ calls, Documented G c) :
    (∀ r, Fallible.Path (receiveValue G cfg v hv) calls r → Typed r) ↔
      ¬ StrayValue G cfg v hv calls := by
  have htyped : ∀ x : Rx AcceptedDecision, (∀ r, Fallible.Path x calls r → Typed r) ↔
      ¬ Fallible.Fails Stray x calls := by
    intro x
    constructor
    · rintro h ⟨e, he, hwire⟩
      exact hwire (h _ he)
    · intro h r hr
      cases r with
      | ok a => trivial
      | error e => exact not_not.mp fun hstray => h ⟨e, hr, hstray⟩
  have hrefused : ¬ Fallible.Fails Stray
      (throw (parseError (text "message:send body missing 'message'")) : Rx AcceptedDecision)
      calls := by
    rintro ⟨e, he, hwire⟩
    obtain ⟨-, h⟩ := Fallible.path_throw.mp he
    cases h
    exact absurd rfl hwire
  rw [htyped, not_iff_not]
  cases v with
  | obj members => exact fails_receive hlower hdoc
  | null => exact iff_of_false hrefused not_false
  | bool b => exact iff_of_false hrefused not_false
  | num n => exact iff_of_false hrefused not_false
  | str s => exact iff_of_false hrefused not_false
  | arr items => exact iff_of_false hrefused not_false

/-- The message of `hello` with a fraction in a part. -/
def fractionMessage (envelopeJws : Text) : Dict :=
  (helloMessage envelopeJws).set (text "parts")
    (.arr [.obj [(text "text", .str (text "hi")),
      (text "score", .num (.float 0x3FE0000000000000))]])
    (by decide)

def fractionBody (envelopeJws : Text) : Dict :=
  Dict.empty.set (text "message") (.obj (fractionMessage envelopeJws).members)
    (fractionMessage envelopeJws).distinct

theorem contact_lowers : ∀ s, ∀ c ∈ contactRuntime.lowerUnicode s, lowerAscii c = c := by
  intro s c hc
  obtain ⟨d, -, rfl⟩ := List.mem_map.mp hc
  exact Interop.lowerAscii_idem d

theorem hello_documented : ∀ c ∈ helloCalls, Documented contactRuntime c := by
  have hcard : ∃ key, parsePublicKey contactRuntime
      (text "z6Mkon3Necd6NkkyfoGoHxid2znGc59LU3K7mubaRcFbLfLX") = .ok key :=
    isOk_iff.mp (by decide +kernel)
  have hrecord : ∀ k ∈ helloRecord.providerKeys,
      ∃ key, parsePublicKey contactRuntime k = .ok key := by
    simp [helloRecord]
  simp only [helloCalls, helloResolving, helloClassifying, List.cons_append, List.nil_append,
    List.forall_mem_cons]
  exact ⟨hrecord, hcard, trivial, trivial, trivial, trivial, trivial, by simp⟩

/-- The request of `hello` strays at no step, and the fraction does not matter under an envelope
that cannot be read. -/
theorem receive_typed_hello :
    Fallible.Path (receive contactRuntime contactConfig helloBody) helloCalls
      (.ok helloDecision) ∧
    ¬ StrayRequest contactRuntime contactConfig helloBody helloCalls ∧
    ∃ e, Fallible.Path (receive contactRuntime contactConfig (fractionBody (text "x"))) []
      (.error e) ∧ Wire e := by
  have hread : (preparse contactRuntime contactConfig (fractionBody (text "x"))).isOk = false := by
    decide +kernel
  refine ⟨hello_path, ?_, ?_⟩
  · refine (receive_typed contactRuntime contact_lowers contactConfig (.obj helloBody.members)
      helloBody.distinct helloCalls hello_documented).mp fun r hr => ?_
    rw [Prog.Path.unique hr hello_path]
    trivial
  · cases hp : preparse contactRuntime contactConfig (fractionBody (text "x")) with
    | ok p =>
      rw [hp] at hread
      cases hread
    | error e =>
      have hpath : Fallible.Path (receive contactRuntime contactConfig (fractionBody (text "x"))) []
          (.error e) :=
        Fallible.path_bind.mpr (.inl ⟨e, Fallible.path_bind.mpr
          (.inl ⟨e, path_py.mpr ⟨rfl, hp.symm⟩, rfl⟩), rfl⟩)
      refine ⟨e, hpath, (receive_typed contactRuntime contact_lowers contactConfig
        (.obj (fractionBody (text "x")).members) (fractionBody (text "x")).distinct []
        (by simp)).mpr (fun h => ?_) _ hpath⟩
      -- every stray request has calls
      generalize hcalls : ([] : List Call) = calls at h
      cases (h : StrayRequest _ _ _ _) <;> simp at hcalls

/-- A number with a fraction in a signed message makes `receive` raise a `JcsError`. -/
theorem receive_untyped : ∃ r,
    Fallible.Path (receiveValue contactRuntime contactConfig
      (.obj (fractionBody helloToken).members) (fractionBody helloToken).distinct)
      (helloResolving ++ [⟨.now, (200 : Int)⟩]) r ∧
    (∀ c ∈ helloResolving ++ [⟨.now, (200 : Int)⟩], Documented contactRuntime c) ∧ ¬ Typed r := by
  have hp : preparse contactRuntime contactConfig (fractionBody helloToken) =
      .ok ⟨helloToken, fractionMessage helloToken, text "a@b.co"⟩ := by
    decide +kernel
  obtain ⟨input, hinput⟩ : ∃ input, canonicalInput (fractionMessage helloToken) = .ok input :=
    isOk_iff.mp (by decide)
  have hfloat : ¬ Hashable (fractionMessage helloToken) := by
    intro h
    have hhash := (@computeMsgHash_eq_ok contactRuntime (fractionMessage helloToken) _).mpr
      ⟨input, _, hinput, canonicalize_eq_ok.mpr ⟨h input hinput, rfl⟩, rfl⟩
    have hraised : (computeMsgHash contactRuntime (fractionMessage helloToken)).isOk = false := by
      decide
    rw [hhash] at hraised
    cases hraised
  have hdoc : ∀ c ∈ helloResolving ++ [⟨.now, (200 : Int)⟩], Documented contactRuntime c := by
    intro c hc
    refine hello_documented c ?_
    simp only [helloCalls, List.mem_append, List.mem_cons, List.not_mem_nil, or_false] at hc ⊢
    exact hc.imp_right .inl
  obtain ⟨e, hpath, hstray⟩ := (fails_receive contact_lowers hdoc).mpr
    (.message _ helloResolving helloKey _ 200 _ hp hello_senderKey hello_envelope hfloat)
  exact ⟨.error e, hpath, hdoc, hstray⟩

end Shadownet.Receiver
