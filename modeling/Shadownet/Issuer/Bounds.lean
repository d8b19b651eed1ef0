import Shadownet.Issuer.Issuance

/-!
# Lifetimes of tokens

`credential.Verify`, `csr.Mint` and the bounds that the four functions put on a token. The bound
on the lifetime is computed in nanoseconds, as a `time.Duration` of 64 bits: a lifetime of more
than 292 years wraps around, and half of all such lifetimes come out small or negative.

* `lifetime_bounds_iff`: the bounds hold exactly up to that lifetime.
-/

namespace Shadownet.Issuer

open Foundation Go

/-! ## `credential.Verify` -/

/-- The claims as `Verify` first reads them; `rev` is the value of the raw message, absent when
there is none. -/
structure RawClaims where
  iss : Bytes
  sub : Bytes
  kind : Bytes
  org : Bytes
  iat : Int
  exp : Int
  rev : Option JsonDoc

def unmarshalClaims (G : Runtime) (data : Bytes) : GoM RawClaims :=
  let names := ["iss", "sub", "kind", "org", "iat", "exp", "rev"]
  unmarshalStruct G data ⟨[], [], [], [], 0, 0, none⟩ fun ms => do
    let iss ← decodeField names "iss" storeString [] ms
    let sub ← decodeField names "sub" storeString [] ms
    let kind ← decodeField names "kind" storeString [] ms
    let org ← decodeField names "org" storeString [] ms
    let iat ← decodeField names "iat" storeInt 0 ms
    let exp ← decodeField names "exp" storeInt 0 ms
    -- a raw message takes any value, `null` included
    let rev ← decodeField names "rev" (fun _ v => some (some v)) none ms
    pure { iss, sub, kind, org, iat, exp, rev }

/-- Stores into a `uint64`. -/
def storeUint (old : Nat) : JsonDoc → Option Nat
  | .null => some old
  | .num lit => parseUint lit
  | _ => none

/-- `json.Unmarshal` of the raw message into a `Revocation`: its epoch and index. -/
def unmarshalRevocation (G : Runtime) (v : JsonDoc) : GoM (Bytes × Nat) :=
  match v with
  | .null => pure ([], 0)
  | .obj ms =>
    match decodeField ["epoch", "idx"] "epoch" storeString [] ms,
      decodeField ["epoch", "idx"] "idx" storeUint 0 ms with
    | some epoch, some idx => pure (epoch, idx)
    | _, _ => throw (G.jsonError (marshalValue v))
  | _ => throw (G.jsonError (marshalValue v))

def credentialInvalid (detail : Bytes) : Bytes := bytes "credential: invalid: " ++ detail

/-- `peekClaims`. -/
def peekClaims (G : Runtime) (token : Bytes) : GoM Bytes :=
  match splitDots token with
  | [_, seg, _] =>
    (decodeSegment G seg).mapError fun e => credentialInvalid (bytes "payload base64: " ++ e)
  | _ => throw (credentialInvalid (bytes "malformed compact serialization"))

/-- `VerifyOptions`. The leeway is a `time.Duration`. -/
structure VerifyOptions where
  now : Time
  leeway : Int
  resolveIssuerKey : Option (Bytes → GoM Bytes)
  authorizeIssuerForOrg : Option (Bytes → Bytes → GoM Unit)

/-- `int64(leeway/time.Second)`, with `DefaultLeeway` for zero. -/
def VerifyOptions.leewaySeconds (opts : VerifyOptions) : Int :=
  (if opts.leeway = 0 then 60000000000 else opts.leeway).tdiv 1000000000

/-- The checks of `credential.Verify` on the claims, the clock included. -/
def checkClaims (G : Runtime) (opts : VerifyOptions) (raw : RawClaims) : GoM CredentialPayload := do
  if raw.kind ≠ bytes "org_affiliation" then
    throw (bytes "credential: unknown kind: " ++ G.quote raw.kind)
  else
    match raw.rev with
    | none => throw (credentialInvalid (bytes "rev required"))
    | some v => do
      let (epoch, idx) ← (unmarshalRevocation G v).mapError fun e =>
        credentialInvalid (bytes "rev: " ++ e)
      if epoch = [] then throw (credentialInvalid (bytes "rev.epoch required"))
      else if raw.exp ≤ raw.iat then
        throw (credentialInvalid (bytes "exp must be greater than iat"))
      else if lifetimeExceeds raw.iat raw.exp 2592000 then
        throw (bytes "credential: lifetime exceeds 30 days")
      else do
        validateIdentifier G "iss" raw.iss
        validateIdentifier G "sub" raw.sub
        validateIdentifier G "org" raw.org
        if wrap64 (raw.exp + opts.leewaySeconds) < opts.now.unix then
          throw (bytes "credential: expired")
        else if wrap64 (opts.now.unix + opts.leewaySeconds) < raw.iat then
          throw (bytes "credential: iat in the future")
        else
          pure { iss := raw.iss, sub := raw.sub, kind := raw.kind, org := raw.org, iat := raw.iat
                 exp := raw.exp, epoch, idx }

/-- `credential.Verify`. -/
def credentialVerify (G : Runtime) (V : Verifier) (opts : VerifyOptions) (token : Bytes) :
    GoM CredentialPayload := do
  let hdr ← (G.parseOne token).mapError fun e => credentialInvalid (bytes "header: " ++ e)
  let typ := hdr.typ.getD []
  if typ ≠ bytes "shadownet-cred+jwt" then
    throw (credentialInvalid (bytes "typ " ++ G.quote typ ++ bytes ", want \"shadownet-cred+jwt\""))
  else if hdr.alg ≠ bytes "EdDSA" then
    throw (credentialInvalid (bytes "alg " ++ G.quote hdr.alg ++ bytes ", want EdDSA"))
  else do
    let payload ← peekClaims G token
    let raw ← (unmarshalClaims G payload).mapError fun e =>
      credentialInvalid (bytes "payload: " ++ e)
    let p ← checkClaims G opts raw
    match opts.resolveIssuerKey with
    | none => throw (credentialInvalid (bytes "VerifyOptions.ResolveIssuerKey is nil"))
    | some resolve => do
      let pub ← (resolve p.iss).mapError fun e =>
        bytes "credential: resolve issuer key for " ++ G.quote p.iss ++ bytes ": " ++ e
      let _ ← (G.verifyJWS V pub token).mapError fun e =>
        bytes "credential: signature did not verify: " ++ e
      match opts.authorizeIssuerForOrg with
      | none => pure p
      | some authorize => do
        (authorize p.iss p.org).mapError fun e =>
          bytes "credential: issuer not authorized for org: " ++ e
        pure p

/-! ## `csr.Mint` -/

/-- `json.Marshal` of a `csr.Payload`. -/
def CsrPayload.marshal (p : CsrPayload) : Bytes :=
  marshalObject
    [("iss", marshalString p.iss), ("aud", marshalString p.aud), ("iat", marshalInt p.iat),
      ("exp", marshalInt p.exp), ("req", marshalObject
        [("kind", marshalString p.req.kind), ("org", marshalString p.req.org)])]

/-- `kidFromSubject`. -/
def kidFromSubject (G : Runtime) (iss subjectPubMB : Bytes) : Bytes :=
  match classify G iss with
  | .pubKey => iss
  | .shadowname => iss
  | _ => subjectPubMB

/-- `csr.Mint`. -/
def csrMint (G : Runtime) (priv pub : Bytes) (p : CsrPayload) : GoM Bytes :=
  if p.exp ≤ p.iat then throw (csrInvalid (bytes "exp must be greater than iat"))
  else if lifetimeExceeds p.iat p.exp 600 then
    throw (bytes "csr: lifetime exceeds maximum: exp - iat = " ++
      bytes (toString (wrap64 (p.exp - p.iat))) ++ bytes "s")
  else if classify G p.iss = .unknown then
    throw (csrInvalid (bytes "iss " ++ G.quote p.iss ++
      bytes " is not a domain, shadowname, or multibase pubkey"))
  else if classify G p.aud = .unknown then
    throw (csrInvalid (bytes "aud " ++ G.quote p.aud ++ bytes " is not a domain or pubkey"))
  else if p.req.kind = [] then throw (csrInvalid (bytes "req.kind required"))
  else if classify G p.req.org = .unknown then
    throw (csrInvalid (bytes "req.org " ++ G.quote p.req.org ++
      bytes " is not a domain or pubkey"))
  else do
    let pubMB ← (encodePubKey pub).mapError (bytes "csr: encode subject pubkey: " ++ ·)
    signJWS G priv p.marshal (kidFromSubject G p.iss pubMB) (bytes "shadownet-csr+jwt")

/-! ## Machine integers -/

/-- The values of an `int64`. -/
def IsInt64 (n : Int) : Prop := -2 ^ 63 ≤ n ∧ n < 2 ^ 63

theorem wrap64_eq_self {n : Int} (h : IsInt64 n) : wrap64 n = n := by
  obtain ⟨hlo, hhi⟩ := h
  unfold wrap64
  omega

/-- Wrapping around can only make a number smaller, unless it is below the range. -/
theorem wrap64_le {n : Int} (h : -2 ^ 63 ≤ n) : wrap64 n ≤ n := by
  unfold wrap64
  omega

theorem parseInt64_range {lit : Bytes} {n : Int} (h : parseInt64 lit = some n) : IsInt64 n := by
  unfold parseInt64 at h
  obtain ⟨-, hrange⟩ := Option.filter_eq_some_iff.mp h
  simpa [IsInt64] using hrange

theorem storeInt_range {old n : Int} {v : JsonDoc} (hold : IsInt64 old)
    (h : storeInt old v = some n) : IsInt64 n := by
  cases v with
  | null =>
    simp only [storeInt, Option.some.injEq] at h
    exact h ▸ hold
  | num lit => exact parseInt64_range h
  | bool _ | str _ | arr _ | obj _ => simp [storeInt] at h

/-- A field of a signed type holds what its last member said, or zero. -/
theorem decodeField_int_range {names : List String} {f : String} {ms : List (Bytes × JsonDoc)}
    {n : Int} (h : decodeField names f storeInt 0 ms = some n) : IsInt64 n := by
  have hfold : ∀ (vs : List JsonDoc) (old : Int), IsInt64 old →
      vs.foldlM storeInt old = some n → IsInt64 n := by
    intro vs
    induction vs with
    | nil =>
      intro old hold h
      simp only [List.foldlM_nil, Option.pure_def, Option.some.injEq] at h
      exact h ▸ hold
    | cons v vs ih =>
      intro old hold h
      obtain ⟨next, hnext, hrest⟩ := Option.bind_eq_some_iff.mp h
      exact ih next (storeInt_range hold hnext) hrest
  exact hfold _ 0 (by unfold IsInt64; omega) h

/-! ## The bounds -/

/-- A lifetime of at most `maxSeconds`, and not empty. -/
def LifetimeWithin (maxSeconds iat exp : Int) : Prop := 0 < exp - iat ∧ exp - iat ≤ maxSeconds

/-- The clock is within the default leeway of the lifetime. -/
def ClockWithin (now iat exp : Int) : Prop := iat - 60 ≤ now ∧ now ≤ exp + 60

/-- The longest lifetime that a `time.Duration` can hold, in seconds. -/
def maxDuration : Int := 9223372036

/-- A lifetime that passed the check is within the bound exactly when it did not wrap around. -/
theorem lifetimeWithin_iff {iat exp maxSeconds : Int} (hmax : maxSeconds ≤ maxDuration)
    (hlt : iat < exp) (h : lifetimeExceeds iat exp maxSeconds = false) :
    LifetimeWithin maxSeconds iat exp ↔ exp - iat ≤ maxDuration := by
  unfold maxDuration at *
  constructor
  · rintro ⟨-, hle⟩
    omega
  · intro hle
    have hsec : wrap64 (exp - iat) = exp - iat :=
      wrap64_eq_self ⟨by omega, by omega⟩
    have hnano : wrap64 ((exp - iat) * 1000000000) = (exp - iat) * 1000000000 :=
      wrap64_eq_self ⟨by omega, by omega⟩
    rw [lifetimeExceeds, hsec, hnano, decide_eq_false_iff_not] at h
    exact ⟨by omega, by omega⟩

/-- The clock checks never wrap around into the accepted range. -/
theorem clockWithin_of_checks {now iat exp : Int} (hnow : IsInt64 now) (hexp : IsInt64 exp)
    (hlate : ¬ wrap64 (exp + 60) < now) (hearly : ¬ wrap64 (now + 60) < iat) :
    ClockWithin now iat exp := by
  have hle : wrap64 (exp + 60) ≤ exp + 60 := wrap64_le (by have := hexp.1; omega)
  have hge : wrap64 (now + 60) ≤ now + 60 := wrap64_le (by have := hnow.1; omega)
  exact ⟨by omega, by omega⟩

section
variable {G : Runtime} {V : Verifier} {token : Bytes} {now : Time}

/-- The claims that a credential carries, as `Verify` decodes them before any check. -/
def carriedClaims (G : Runtime) (token : Bytes) : GoM RawClaims := do
  let payload ← peekClaims G token
  unmarshalClaims G payload

/-- A struct is left as it was or filled from the members of an object. -/
theorem unmarshalStruct_ok {α : Type} {data : Bytes} {zero a : α}
    {fields : List (Bytes × JsonDoc) → Option α} (h : unmarshalStruct G data zero fields = .ok a) :
    a = zero ∨ ∃ ms, fields ms = some a := by
  unfold unmarshalStruct at h
  split at h
  · exact .inl (pure_eq_ok.mp h).symm
  · next ms _ =>
    cases hf : fields ms with
    | none =>
      rw [hf] at h
      exact (throw_eq_ok.mp h).elim
    | some b =>
      rw [hf] at h
      exact .inr ⟨ms, hf.trans (congrArg some (pure_eq_ok.mp h))⟩
  · exact (throw_eq_ok.mp h).elim

theorem unmarshalClaims_range {data : Bytes} {raw : RawClaims}
    (h : unmarshalClaims G data = .ok raw) : IsInt64 raw.exp := by
  obtain rfl | ⟨ms, hfields⟩ := unmarshalStruct_ok h
  · exact ⟨by decide, by decide⟩
  · simp only [Option.bind_eq_bind, Option.bind_eq_some_iff, Option.pure_def,
      Option.some.injEq] at hfields
    obtain ⟨_, -, _, -, _, -, _, -, _, -, exp, hexp, _, -, rfl⟩ := hfields
    exact decodeField_int_range hexp

theorem csrSegment_range {p : CsrPayload} (h : csrSegment G token = .ok p) : IsInt64 p.exp := by
  unfold csrSegment at h
  split at h
  · simp only [bind_eq_ok, mapError_eq_ok] at h
    obtain ⟨data, -, h⟩ := h
    obtain rfl | ⟨ms, hfields⟩ := unmarshalStruct_ok h
    · exact ⟨by decide, by decide⟩
    · simp only [Option.bind_eq_bind, Option.bind_eq_some_iff, Option.pure_def,
        Option.some.injEq] at hfields
      obtain ⟨_, -, _, -, _, -, exp, hexp, _, -, rfl⟩ := hfields
      exact decodeField_int_range hexp
  · exact (throw_eq_ok.mp h).elim

/-- What the checks of `credential.Verify` say of claims that pass them. -/
theorem checkClaims_ok {opts : VerifyOptions} {raw : RawClaims} {p : CredentialPayload}
    (h : checkClaims G opts raw = .ok p) :
    raw.iat < raw.exp ∧ lifetimeExceeds raw.iat raw.exp 2592000 = false ∧
      ¬ wrap64 (raw.exp + opts.leewaySeconds) < opts.now.unix ∧
      ¬ wrap64 (opts.now.unix + opts.leewaySeconds) < raw.iat ∧
      p.iat = raw.iat ∧ p.exp = raw.exp := by
  unfold checkClaims at h
  obtain ⟨-, h⟩ := guard_eq_ok.mp h
  split at h
  · exact (throw_eq_ok.mp h).elim
  · obtain ⟨⟨epoch, idx⟩, -, h⟩ := bind_eq_ok.mp h
    simp only [guard_eq_ok, bind_eq_ok, pure_eq_ok, Bool.not_eq_true, not_le] at h
    obtain ⟨-, hlt, hlife, _, -, _, -, _, -, hlate, hearly, rfl⟩ := h
    exact ⟨hlt, hlife, hlate, hearly, rfl, rfl⟩

/-- A credential that `Verify` accepts went through the checks on the claims it carries. -/
theorem credentialVerify_claims {opts : VerifyOptions} {raw : RawClaims} {p : CredentialPayload}
    (hraw : carriedClaims G token = .ok raw) (h : credentialVerify G V opts token = .ok p) :
    checkClaims G opts raw = .ok p := by
  unfold credentialVerify at h
  obtain ⟨hdr, -, h⟩ := bind_eq_ok.mp h
  simp only [guard_eq_ok, bind_eq_ok, mapError_eq_ok] at h
  obtain ⟨-, -, payload, hpay, raw', hdec, q, hq, h⟩ := h
  obtain rfl : raw = raw' := by
    have : carriedClaims G token = .ok raw' := bind_eq_ok.mpr ⟨payload, hpay, hdec⟩
    exact Except.ok.inj (hraw.symm.trans this)
  have hret : q = p := by
    split at h
    · exact (throw_eq_ok.mp h).elim
    · simp only [bind_eq_ok, mapError_eq_ok] at h
      obtain ⟨_, -, _, -, h⟩ := h
      split at h
      · exact pure_eq_ok.mp h
      · obtain ⟨_, -, h⟩ := bind_eq_ok.mp h
        exact pure_eq_ok.mp h
  exact hret ▸ hq

theorem csrVerify_checks {aud : Bytes} {resolve : Bytes → GoM Bytes} {p q : CsrPayload}
    (hp : csrSegment G token = .ok p) (h : csrVerify G V aud now resolve token = .ok q) :
    q = p ∧ p.iat < p.exp ∧ lifetimeExceeds p.iat p.exp 600 = false ∧
      ¬ wrap64 (p.exp + 60) < now.unix ∧ ¬ wrap64 (now.unix + 60) < p.iat := by
  simp only [csrVerify, csrClaims, csrCheckClaims, bind_eq_ok, mapError_eq_ok, guard_eq_ok,
    pure_eq_ok, Bool.not_eq_true, not_le] at h
  obtain ⟨_, ⟨_, -, -, -, p', hp', _, hchecks, rfl⟩, _, -, _, -, rfl⟩ := h
  obtain rfl : p = p' := Except.ok.inj (hp.symm.trans hp')
  obtain ⟨-, -, hlt, hlife, -, -, -, hlate, hearly, -⟩ := hchecks
  exact ⟨rfl, hlt, hlife, hlate, hearly⟩

theorem mint_checks {priv pub jws : Bytes} {p : CredentialPayload}
    (h : mint G priv pub p = .ok jws) :
    p.iat < p.exp ∧ lifetimeExceeds p.iat p.exp 2592000 = false := by
  simp only [mint, guard_eq_ok, Bool.not_eq_true, not_le] at h
  exact ⟨h.2.1, h.2.2.1⟩

theorem csrMint_checks {priv pub jws : Bytes} {p : CsrPayload}
    (h : csrMint G priv pub p = .ok jws) :
    p.iat < p.exp ∧ lifetimeExceeds p.iat p.exp 600 = false := by
  simp only [csrMint, guard_eq_ok, Bool.not_eq_true, not_le] at h
  exact ⟨h.1, h.2.1⟩

/-- The bounds of the four functions, for every token, key and clock: what is accepted is not
empty and within the default leeway of the clock, and the bound on the lifetime holds exactly
when the lifetime fits a `time.Duration`. -/
theorem lifetime_bounds_iff (G : Runtime) (V : Verifier) (token : Bytes) (now : Time)
    (hnow : IsInt64 now.unix) :
    (∀ opts raw p, opts.now = now → opts.leeway = 0 → carriedClaims G token = .ok raw →
      credentialVerify G V opts token = .ok p →
      p.iat = raw.iat ∧ p.exp = raw.exp ∧ ClockWithin now.unix p.iat p.exp ∧
        (LifetimeWithin 2592000 p.iat p.exp ↔ raw.exp - raw.iat ≤ maxDuration)) ∧
    (∀ aud resolve p q, csrSegment G token = .ok p →
      csrVerify G V aud now resolve token = .ok q →
      q = p ∧ ClockWithin now.unix q.iat q.exp ∧
        (LifetimeWithin 600 q.iat q.exp ↔ p.exp - p.iat ≤ maxDuration)) ∧
    (∀ priv pub p jws, mint G priv pub p = .ok jws →
      (LifetimeWithin 2592000 p.iat p.exp ↔ p.exp - p.iat ≤ maxDuration)) ∧
    (∀ priv pub p jws, csrMint G priv pub p = .ok jws →
      (LifetimeWithin 600 p.iat p.exp ↔ p.exp - p.iat ≤ maxDuration)) := by
  refine ⟨?_, ?_, ?_, ?_⟩
  · intro opts raw p hclock hleeway hraw hok
    obtain ⟨hlt, hlife, hlate, hearly, hiat, hexp⟩ :=
      checkClaims_ok (credentialVerify_claims hraw hok)
    have hsixty : opts.leewaySeconds = 60 := by
      rw [VerifyOptions.leewaySeconds, if_pos hleeway]
      decide
    obtain ⟨payload, -, hdec⟩ := bind_eq_ok.mp hraw
    rw [hsixty, hclock] at hlate hearly
    rw [hiat, hexp]
    exact ⟨rfl, rfl, clockWithin_of_checks hnow (unmarshalClaims_range hdec) hlate hearly,
      lifetimeWithin_iff (by decide) hlt hlife⟩
  · intro aud resolve p q hp hok
    obtain ⟨rfl, hlt, hlife, hlate, hearly⟩ := csrVerify_checks hp hok
    exact ⟨rfl, clockWithin_of_checks hnow (csrSegment_range hp) hlate hearly,
      lifetimeWithin_iff (by decide) hlt hlife⟩
  · intro priv pub p jws hok
    obtain ⟨hlt, hlife⟩ := mint_checks hok
    exact lifetimeWithin_iff (by decide) hlt hlife
  · intro priv pub p jws hok
    obtain ⟨hlt, hlife⟩ := csrMint_checks hok
    exact lifetimeWithin_iff (by decide) hlt hlife

end

/-! ## Samples -/

def credentialHeader : Bytes :=
  bytes "\x7b\"alg\":\"EdDSA\",\"kid\":\"shadownet@a.co\",\"typ\":\"shadownet-cred+jwt\"\x7d"

/-- A credential that lives five minutes. -/
def shortToken : Bytes :=
  compactToken credentialHeader
    (bytes "\x7b\"iss\":\"a.co\",\"sub\":\"b@a.co\",\"kind\":\"org_affiliation\"," ++
      bytes "\"org\":\"a.co\",\"iat\":100,\"exp\":400," ++
      bytes "\"rev\":\x7b\"epoch\":\"1\",\"idx\":0\x7d\x7d")
    [179, 241, 95, 220, 117, 187, 252, 156, 142, 21, 135, 170, 50, 204, 0, 16, 231, 72, 146, 232,
      74, 244, 224, 59, 215, 26, 234, 158, 122, 50, 124, 183, 187, 30, 255, 212, 245, 116, 187,
      138, 17, 231, 66, 58, 30, 1, 241, 56, 147, 48, 158, 48, 207, 34, 230, 168, 239, 31, 58, 158,
      104, 86, 233, 13]

/-- A credential whose lifetime, in nanoseconds, is just over `2 ^ 63`. -/
def longToken : Bytes :=
  compactToken credentialHeader
    (bytes "\x7b\"iss\":\"a.co\",\"sub\":\"b@a.co\",\"kind\":\"org_affiliation\"," ++
      bytes "\"org\":\"a.co\",\"iat\":100,\"exp\":9223372137," ++
      bytes "\"rev\":\x7b\"epoch\":\"1\",\"idx\":0\x7d\x7d")
    [107, 81, 239, 231, 21, 6, 22, 251, 67, 75, 16, 240, 118, 253, 96, 84, 151, 113, 18, 86, 157,
      229, 1, 134, 156, 208, 155, 156, 10, 84, 8, 63, 46, 27, 56, 140, 79, 146, 227, 129, 135,
      222, 168, 50, 66, 235, 215, 34, 33, 210, 146, 155, 142, 255, 187, 159, 12, 244, 124, 62, 32,
      63, 145, 13]

/-- The payload of either credential, with its expiry. -/
def lifetimePayload (exp : Int) : CredentialPayload :=
  { iss := bytes "a.co", sub := bytes "b@a.co", kind := bytes "org_affiliation"
    org := bytes "a.co", iat := 100, exp, epoch := bytes "1", idx := 0 }

/-- The signer on the two payloads that the samples mint. -/
def lifetimeSigner (_ _ typ _ : Bytes) : GoM Bytes :=
  pure (if typ = bytes "shadownet-csr+jwt" then raceToken else shortToken)

def lifetimeRuntime : Runtime := sampleRuntime id lifetimeSigner

/-- Ed25519 on the signatures of the samples. -/
def lifetimeVerifier : Verifier := fun key msg sig =>
  [(raceConfig.signerPublic, shortToken), (raceConfig.signerPublic, longToken),
    (attackerKey, raceToken)].any fun (signer, token) =>
      key == signer && (compactJws lifetimeRuntime token).toOption.any fun obj =>
        obj.signingInput == msg && obj.signature == sig

def lifetimeOptions : VerifyOptions :=
  { now := Time.ofUnix 200, leeway := 0
    resolveIssuerKey := some fun _ => pure raceConfig.signerPublic
    authorizeIssuerForOrg := none }

/-- A credential of 292 years is accepted. -/
theorem lifetime_bounds_wrapped : ∃ p,
    credentialVerify lifetimeRuntime lifetimeVerifier lifetimeOptions longToken = .ok p ∧
      ¬ LifetimeWithin 2592000 p.iat p.exp := by
  refine ⟨lifetimePayload 9223372137, by decide +kernel, ?_⟩
  rintro ⟨-, hle⟩
  exact absurd hle (by decide)

/-- The bounds at a credential of five minutes, at the request of the subject, and at minting
either. -/
theorem lifetime_bounds_minutes :
    (∃ p, credentialVerify lifetimeRuntime lifetimeVerifier lifetimeOptions shortToken = .ok p ∧
      ClockWithin 200 p.iat p.exp ∧ LifetimeWithin 2592000 p.iat p.exp) ∧
    (∃ q, csrVerify lifetimeRuntime lifetimeVerifier (bytes "a.co") (Time.ofUnix 200)
        (fun _ => pure attackerKey) raceToken = .ok q ∧
      ClockWithin 200 q.iat q.exp ∧ LifetimeWithin 600 q.iat q.exp) ∧
    mint lifetimeRuntime raceConfig.signerPrivate raceConfig.signerPublic (lifetimePayload 400) =
      .ok shortToken ∧ LifetimeWithin 2592000 100 400 ∧
    csrMint lifetimeRuntime raceConfig.signerPrivate attackerKey racePayload = .ok raceToken ∧
      LifetimeWithin 600 100 400 := by
  have hnow : IsInt64 (Time.ofUnix 200).unix := ⟨by decide, by decide⟩
  obtain ⟨hcred, -, hmint, -⟩ :=
    lifetime_bounds_iff lifetimeRuntime lifetimeVerifier shortToken (Time.ofUnix 200) hnow
  obtain ⟨-, hcsr, -, hcsrMint⟩ :=
    lifetime_bounds_iff lifetimeRuntime lifetimeVerifier raceToken (Time.ofUnix 200) hnow
  have htimes : (carriedClaims lifetimeRuntime shortToken).map (fun raw => (raw.iat, raw.exp)) =
      .ok (100, 400) := by decide +kernel
  have hverified : credentialVerify lifetimeRuntime lifetimeVerifier lifetimeOptions shortToken =
      .ok (lifetimePayload 400) := by decide +kernel
  have hrequest : csrVerify lifetimeRuntime lifetimeVerifier (bytes "a.co") (Time.ofUnix 200)
      (fun _ => pure attackerKey) raceToken = .ok racePayload := by decide +kernel
  have hsegment : csrSegment lifetimeRuntime raceToken = .ok racePayload := by decide +kernel
  have hminted : mint lifetimeRuntime raceConfig.signerPrivate raceConfig.signerPublic
      (lifetimePayload 400) = .ok shortToken := by decide +kernel
  have hcsrMinted : csrMint lifetimeRuntime raceConfig.signerPrivate attackerKey racePayload =
      .ok raceToken := by decide +kernel
  obtain ⟨raw, hraw, htimes⟩ := map_eq_ok.mp htimes
  obtain ⟨hiat, hexp⟩ := Prod.mk.inj htimes
  obtain ⟨-, -, hclock, hlife⟩ := hcred lifetimeOptions raw _ rfl rfl hraw hverified
  obtain ⟨-, hclock', hlife'⟩ := hcsr _ _ _ _ hsegment hrequest
  exact ⟨⟨_, hverified, hclock, hlife.mpr (by rw [hiat, hexp]; decide)⟩,
    ⟨_, hrequest, hclock', hlife'.mpr (by decide)⟩,
    hminted, (hmint _ _ _ _ hminted).mpr (by decide),
    hcsrMinted, (hcsrMint _ _ _ _ hcsrMinted).mpr (by decide)⟩

end Shadownet.Issuer
