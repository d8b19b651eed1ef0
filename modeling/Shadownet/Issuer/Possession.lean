import Shadownet.Issuer.Handler

/-!
# Proof of possession in a certificate signing request

The handler takes the verification key from the header's `kid` and the subject from the
payload's `iss`, and compares the two nowhere. So a signed request proves possession of the
subject's key exactly when the two denote the same key (`possession_iff`).
-/

namespace Shadownet.Issuer

open Foundation Go

/-- The signature of the token verifies under `key`. -/
def SignedBy (G : Runtime) (V : Verifier) (key token : Bytes) : Prop :=
  ∃ obj, G.parseOne token = .ok obj ∧ V key obj.signingInput obj.signature = true

/-- The subject is a public key, and the token is signed with it. -/
def SignedBySubject (G : Runtime) (V : Verifier) (sub token : Bytes) : Prop :=
  classify G sub = .pubKey → ∃ key, decodePubKey G sub = .ok key ∧ SignedBy G V key token

/-- A request that is accepted is signed by its subject. -/
def ProvesPossession (G : Runtime) (V : Verifier) (cfg : HandlerConfig) (now : Time)
    (token : Bytes) : Prop :=
  ∀ p, parseAndVerifyCSR G V cfg.issuerIdentifier now token = .ok p →
    SignedBySubject G V p.iss token

/-- A 200 response repeats a stored credential, or carries one minted for the signer. -/
def MintsForSigner (G : Runtime) (V : Verifier) (cfg : HandlerConfig) (data : Bytes) : Prop :=
  ∀ calls r, Prog.Path (serveIssue G V cfg (some data)) calls r → r.status = 200 →
    (∃ key c, ⟨IssueOp.getByIdempotencyKey key, .ok c⟩ ∈ calls ∧ r.body = c.jws) ∨
    ∃ payload, mint G cfg.signerPrivate cfg.signerPublic payload = .ok r.body ∧
      SignedBySubject G V payload.sub (requestToken cfg data)

/-- The token passes every check but that of the signature, with this header and payload. -/
structure Acceptable (G : Runtime) (cfg : HandlerConfig) (now : Time) (token : Bytes)
    (hdr : CsrHeader) (p : CsrPayload) : Prop where
  header : csrHeader G token = .ok hdr
  kid : classify G hdr.kid = .pubKey
  claims : csrClaims G cfg.issuerIdentifier now token = .ok p
  critical : ∃ obj, G.parseOne token = .ok obj ∧ G.preVerify obj = .ok ()

/-- The header's `kid` and the payload's `iss` denote the same key, whenever the token is
otherwise acceptable for a keyed subject. -/
def KidIsSubject (G : Runtime) (cfg : HandlerConfig) (token : Bytes) : Prop :=
  ∀ now hdr p, Acceptable G cfg now token hdr p → classify G p.iss = .pubKey →
    decodePubKey G hdr.kid = decodePubKey G p.iss

variable {G : Runtime} {V : Verifier} {cfg : HandlerConfig} {now : Time} {token : Bytes}

theorem classify_pubKey {s : Bytes} (h : classify G s = .pubKey) :
    ∃ key, decodePubKey G s = .ok key := by
  unfold classify at h
  split at h
  · split at h <;> cases h
  · split at h
    · cases hd : decodePubKey G s with
      | ok key => exact ⟨key, rfl⟩
      | error e => simp [hd, Except.isOk, Except.toBool] at h
    · split at h <;> cases h

theorem decodePubKey_length {s key : Bytes} (h : decodePubKey G s = .ok key) :
    key.length = 32 := by
  simp only [decodePubKey, guard_eq_ok, bind_eq_ok, mapError_eq_ok, pure_eq_ok] at h
  obtain ⟨-, raw, -, -, -, hlen, rfl⟩ := h
  exact not_not.mp hlen

theorem decodePubKey_ne_nil {s key : Bytes} (h : decodePubKey G s = .ok key) : s ≠ [] := by
  simp only [decodePubKey, guard_eq_ok] at h
  rintro rfl
  exact h.1 (by decide)

/-- The key that `subjectPubFromTokenUnverified` finds is the one the header names. -/
theorem subjectPub_ok {key : Bytes} (h : subjectPubFromTokenUnverified G token = .ok key) :
    ∃ hdr, csrHeader G token = .ok hdr ∧ classify G hdr.kid = .pubKey ∧
      decodePubKey G hdr.kid = .ok key := by
  simp only [subjectPubFromTokenUnverified, bind_eq_ok, guard_eq_ok] at h
  obtain ⟨hdr, hh, -, h⟩ := h
  split at h
  · exact ⟨hdr, hh, ‹_›, h⟩
  · exact absurd h (by simp)

/-- An accepted token is acceptable and signed with the key of its header. -/
theorem parseAndVerifyCSR_ok {p : CsrPayload}
    (h : parseAndVerifyCSR G V cfg.issuerIdentifier now token = .ok p) :
    ∃ hdr key, Acceptable G cfg now token hdr p ∧ decodePubKey G hdr.kid = .ok key ∧
      SignedBy G V key token := by
  simp only [parseAndVerifyCSR, csrVerify, bind_eq_ok, mapError_eq_ok, pure_eq_ok] at h
  obtain ⟨key, hkey, p, hclaims, _, rfl, _, hv, rfl⟩ := h
  obtain ⟨hdr, hh, hcls, hdec⟩ := subjectPub_ok hkey
  simp only [Runtime.verifyJWS, guard_eq_ok, bind_eq_ok, mapError_eq_ok] at hv
  obtain ⟨-, obj, hobj, -, _, hpre, hv⟩ := hv
  split at hv
  · exact ⟨hdr, key, ⟨hh, hcls, hclaims, obj, hobj, hpre⟩, hdec, obj, hobj, ‹_›⟩
  · exact absurd hv (by simp)

/-- An acceptable token is accepted by a verifier that accepts the header's key. -/
theorem parseAndVerifyCSR_of_acceptable {hdr : CsrHeader} {p : CsrPayload} {key : Bytes}
    (ha : Acceptable G cfg now token hdr p) (hkey : decodePubKey G hdr.kid = .ok key) :
    parseAndVerifyCSR G (fun k _ _ => k == key) cfg.issuerIdentifier now token = .ok p := by
  obtain ⟨hh, hcls, hclaims, obj, hobj, hpre⟩ := ha
  have hsub : subjectPubFromTokenUnverified G token = .ok key := by
    simp only [subjectPubFromTokenUnverified, bind_eq_ok, guard_eq_ok]
    refine ⟨hdr, hh, decodePubKey_ne_nil hkey, ?_⟩
    rw [if_pos hcls]
    exact hkey
  have halg : obj.alg = bytes "EdDSA" := by
    simp only [csrClaims, bind_eq_ok, mapError_eq_ok, guard_eq_ok] at hclaims
    obtain ⟨obj', hobj', -, halg, -⟩ := hclaims
    rw [hobj] at hobj'
    cases hobj'
    exact not_not.mp halg
  simp only [parseAndVerifyCSR, csrVerify, bind_eq_ok, mapError_eq_ok, pure_eq_ok]
  refine ⟨key, hsub, p, hclaims, key, rfl, obj, ?_, rfl⟩
  simp only [Runtime.verifyJWS, guard_eq_ok, bind_eq_ok, mapError_eq_ok]
  refine ⟨not_not.mpr (decodePubKey_length hkey), obj, hobj, not_not.mpr halg, (), hpre, ?_⟩
  simp

/-! ## The ways through the handler -/

/-- A way through a part of the handler that ends in a stored token or in one minted for the
subject `sub`. -/
def EndsFor (G : Runtime) (cfg : HandlerConfig) (sub : Bytes)
    (calls : List ((o : IssueOp) × IssueAns o)) (r : Response) : Prop :=
  (∃ key c, ⟨IssueOp.getByIdempotencyKey key, .ok c⟩ ∈ calls ∧ r.body = c.jws) ∨
    ∃ payload, mint G cfg.signerPrivate cfg.signerPublic payload = .ok r.body ∧ payload.sub = sub

theorem EndsFor.cons {sub : Bytes} {calls : List ((o : IssueOp) × IssueAns o)} {r : Response}
    (h : EndsFor G cfg sub calls r) (x : (o : IssueOp) × IssueAns o) :
    EndsFor G cfg sub (x :: calls) r := by
  rcases h with ⟨key, c, hm, hb⟩ | h
  · exact .inl ⟨key, c, List.mem_cons_of_mem _ hm, hb⟩
  · exact .inr h

section
variable {parsed : CsrPayload} {idem : Bytes} {r : Response}
  {calls : List ((o : IssueOp) × IssueAns o)}

theorem path_problem {status : Nat} {type title : String} {detail : Bytes} {P : Prop}
    (hs : status ≠ 200) (h200 : r.status = 200)
    (h : Prog.Path (.ret (problem status type title detail) : IssueProg Response) calls r) : P := by
  cases h
  exact absurd h200 hs

theorem path_mintAndStore {t : Time} {a : Except StoreError (Nat × Nat)}
    (h : Prog.Path (mintAndStore G cfg parsed idem t a) calls r) (h200 : r.status = 200) :
    EndsFor G cfg parsed.iss calls r := by
  unfold mintAndStore at h
  split at h
  · exact path_problem (by decide) h200 h
  · split at h
    · exact path_problem (by decide) h200 h
    · rename_i jws hm
      cases h with
      | call _ _ stored calls _ h =>
      cases stored with
      | ok u =>
        cases h
        exact .inr ⟨_, hm, rfl⟩
      | error e =>
        cases h with
        | call _ _ existing calls _ h =>
        cases existing with
        | ok c =>
          cases h
          exact .inl ⟨idem, c, by simp, rfl⟩
        | error e => exact path_problem (by decide) h200 h

theorem path_actOnDecision {a : GoM Decision}
    (h : Prog.Path (actOnDecision G cfg parsed idem a) calls r) (h200 : r.status = 200) :
    EndsFor G cfg parsed.iss calls r := by
  unfold actOnDecision at h
  split at h
  · exact path_problem (by decide) h200 h
  · split at h
    · cases h with
      | call _ _ t calls _ h =>
      cases h with
      | call _ _ a calls _ h => exact ((path_mintAndStore h h200).cons _).cons _
    · cases h
      exact absurd h200 (show (409 : Nat) ≠ 200 by decide)
    · exact path_problem (by decide) h200 h
    · exact path_problem (by decide) h200 h

theorem path_afterLookup {a : Except StoreError CredentialRow}
    (h : Prog.Path (afterLookup G cfg parsed idem a) calls r) (h200 : r.status = 200) :
    EndsFor G cfg parsed.iss (⟨.getByIdempotencyKey idem, a⟩ :: calls) r := by
  unfold afterLookup at h
  split at h
  · cases h
    exact .inl ⟨idem, _, by simp, rfl⟩
  · unfold authorizeAndDecide at h
    split at h
    · exact path_problem (by decide) h200 h
    · cases h with
      | call _ _ a calls _ h =>
      refine (EndsFor.cons ?_ _).cons _
      change Prog.Path (afterAuthorize G cfg parsed idem a) calls r at h
      unfold afterAuthorize at h
      split at h
      · exact path_problem (by decide) h200 h
      · split at h
        · exact path_problem (by decide) h200 h
        · cases h with
          | call _ _ d calls _ h => exact (path_actOnDecision h h200).cons _
  · exact path_problem (by decide) h200 h

/-- The end of a path through `serveIssue`. -/
theorem path_serveIssue {data : Bytes}
    (h : Prog.Path (serveIssue G V cfg (some data)) calls r) (h200 : r.status = 200) :
    (∃ key c, ⟨IssueOp.getByIdempotencyKey key, .ok c⟩ ∈ calls ∧ r.body = c.jws) ∨
      ∃ now parsed payload,
        parseAndVerifyCSR G V cfg.issuerIdentifier now (requestToken cfg data) = .ok parsed ∧
        mint G cfg.signerPrivate cfg.signerPublic payload = .ok r.body ∧
        payload.sub = parsed.iss := by
  simp only [serveIssue] at h
  split at h
  · exact path_problem (by decide) h200 h
  · cases h with
    | call _ _ t calls _ h =>
    change Prog.Path (issueToken G V cfg (requestToken cfg data) t) calls r at h
    unfold issueToken at h
    split at h
    · exact path_problem (by decide) h200 h
    · rename_i parsed hp
      split at h
      · exact path_problem (by decide) h200 h
      · rename_i idem hi
        cases h with
        | call _ _ a calls _ h =>
        rcases (path_afterLookup h h200).cons _ with hget | ⟨payload, hm, hsub⟩
        · exact .inl hget
        · exact .inr ⟨t, parsed, payload, hp, hm, hsub⟩

end

/-! ## When a request proves possession -/

/-- Whatever signatures verify, an accepted request is signed by its subject and fresh
credentials go to the signer, if and only if `kid` and `iss` denote the same key. -/
theorem possession_iff (G : Runtime) (cfg : HandlerConfig) (token : Bytes) :
    ((∀ V now, ProvesPossession G V cfg now token) ∧
      ∀ V data, requestToken cfg data = token → MintsForSigner G V cfg data) ↔
    KidIsSubject G cfg token := by
  constructor
  · rintro ⟨h, -⟩ now hdr p ha hp
    obtain ⟨key, hkey⟩ := classify_pubKey ha.kid
    obtain ⟨key', hkey', obj, -, hv⟩ :=
      h _ now p (parseAndVerifyCSR_of_acceptable ha hkey) hp
    rw [hkey, hkey', beq_iff_eq.mp hv]
  · intro hkid
    have hposs : ∀ V now, ProvesPossession G V cfg now token := by
      intro V now p hp hpub
      obtain ⟨hdr, key, ha, hkey, hsig⟩ := parseAndVerifyCSR_ok hp
      exact ⟨key, (hkid now hdr p ha hpub).symm.trans hkey, hsig⟩
    refine ⟨hposs, ?_⟩
    rintro V data rfl calls r hpath h200
    rcases path_serveIssue hpath h200 with hget | ⟨now, parsed, payload, hp, hm, hsub⟩
    · exact .inl hget
    · exact .inr ⟨payload, hm, hsub ▸ hposs V now parsed hp⟩

/-! ## A request for another subject's key -/

/-- The JWS library on a compact token whose header is an object of three strings. -/
def compactJws (G : Runtime) (token : Bytes) : GoM ParsedJws :=
  match splitDots token with
  | [h, p, sig] => do
    let hdr ← csrHeader G token
    let signature ← decodeSegment G sig
    let payload ← decodeSegment G p
    pure
      { signatures := 1, alg := hdr.alg, kid := hdr.kid, typ := some hdr.typ
        signingInput := h ++ 0x2E :: p, signature, payload }
  | _ => throw []

/-- A runtime for the samples, with the given hash and signer. -/
def sampleRuntime (sha256 : Bytes → Bytes)
    (signCompact : Bytes → Bytes → Bytes → Bytes → GoM Bytes) :
    Runtime :=
  let base : Runtime :=
    { quote := fun s => 0x22 :: s ++ [0x22], quoteRune := utf8Char
      isLetterOrDigit := fun _ => false, toLower := id
      jsonError := fun _ => bytes "unexpected end of JSON input"
      base64Error := fun _ => bytes "illegal base64 data at input byte 0"
      sha256, parseSigned := fun _ => throw [], preVerify := fun _ => pure (), signCompact }
  { base with parseSigned := compactJws base }

def plainRuntime : Runtime := sampleRuntime id fun _ _ _ _ => throw []

def sampleConfig : HandlerConfig :=
  { issuerIdentifier := bytes "a.co", signerPrivate := [], signerPublic := [], maxBody := 65536 }

/-- The subject the request names, and the key that signed it. -/
def victimName : Bytes := bytes "z6Mko9hTggMwjSTEaJaPUfE6tqcy2xvU6BnNq3e3o8qVBiyH"

def attackerKey : Bytes :=
  [138, 136, 227, 221, 116, 9, 241, 149, 253, 82, 219, 45, 60, 186, 93, 114, 202, 103, 9, 191,
    29, 148, 18, 27, 243, 116, 136, 1, 180, 15, 111, 92]

/-- A compact token from its header, payload and signature. -/
def compactToken (header payload sig : Bytes) : Bytes :=
  utf8 (base64Url header) ++ 0x2E ::
    (utf8 (base64Url payload) ++ 0x2E :: utf8 (base64Url sig))

/-- The header of a request signed with the attacker's key. -/
def csrHeaderJson : Bytes :=
  bytes "\x7b\"alg\":\"EdDSA\",\"kid\":\"z6Mkon3Necd6NkkyfoGoHxid2znGc59LU3K7mubaRcFbLfLX\"," ++
    bytes "\"typ\":\"shadownet-csr+jwt\"\x7d"

/-- A request signed with the attacker's key, `kid` the attacker and `iss` the victim. -/
def stolenToken : Bytes :=
  compactToken csrHeaderJson
    (bytes "\x7b\"iss\":\"z6Mko9hTggMwjSTEaJaPUfE6tqcy2xvU6BnNq3e3o8qVBiyH\",\"aud\":\"a.co\"," ++
      bytes "\"iat\":100,\"exp\":400,\"req\":\x7b\"kind\":\"k\",\"org\":\"a.co\"\x7d\x7d")
    [239, 82, 130, 39, 192, 99, 3, 86, 227, 138, 221, 32, 74, 230, 247, 6, 60, 89, 110, 25, 9,
      67, 165, 153, 47, 223, 16, 67, 46, 191, 87, 218, 6, 30, 70, 226, 34, 252, 135, 19, 166,
      41, 129, 96, 175, 132, 130, 176, 234, 41, 161, 154, 96, 234, 219, 64, 161, 212, 16, 39,
      15, 99, 238, 3]

/-- Ed25519 on the one signature of the sample. -/
def attackerVerifier : Verifier := fun key msg sig =>
  key == attackerKey && (compactJws plainRuntime stolenToken).toOption.any fun obj =>
    obj.signingInput == msg && obj.signature == sig

/-- The attacker's request is accepted as the victim's, whose key did not sign it. -/
theorem possession_stolen :
    (∃ p, parseAndVerifyCSR plainRuntime attackerVerifier sampleConfig.issuerIdentifier
        (Time.ofUnix 200) stolenToken = .ok p ∧ classify plainRuntime p.iss = .pubKey ∧
      ¬ ∃ key, decodePubKey plainRuntime p.iss = .ok key ∧
        SignedBy plainRuntime attackerVerifier key stolenToken) := by
  refine ⟨⟨victimName, bytes "a.co", 100, 400, ⟨bytes "k", bytes "a.co"⟩⟩, by decide +kernel,
    by decide, ?_⟩
  rintro ⟨key, hkey, obj, -, hv⟩
  have hne : decodePubKey plainRuntime victimName ≠ .ok attackerKey := by decide
  have heq : key = attackerKey := by
    simp only [attackerVerifier, Bool.and_eq_true, beq_iff_eq] at hv
    exact hv.1
  exact hne (heq ▸ hkey)

end Shadownet.Issuer
