import Shadownet.Receiver.Pipeline

/-!
# The ways through the pipeline

What the calls of one `receive` and their answers say about the request: `receive_cases`
cuts every way through the program at the replay cache, and `presented_of_cache` says that
a credential goes into the cache only after an envelope of its sender carried it and all
checks of step 9 passed.
-/

namespace Shadownet.Receiver

open Foundation Python

/-- A call with its answer. -/
abbrev Call := (o : Op) × Ans o

variable {α β : Type} {calls : List Call}

theorem path_py {x r : Py α} : Fallible.Path (py x) calls r ↔ calls = [] ∧ r = x :=
  Fallible.path_ofExcept

theorem path_ask {o : Op} {r : Py (Ans o)} :
    Fallible.Path (ask o) calls r ↔ ∃ a, calls = [⟨o, a⟩] ∧ r = .ok a :=
  Fallible.path_ask

theorem path_askPy {o : Op} {raised : Ans o → Py α} {r : Py α} :
    Fallible.Path (askPy o raised) calls r ↔ ∃ a, calls = [⟨o, a⟩] ∧ r = raised a :=
  Fallible.path_ask_ofExcept

/-- A call whose exceptions of some classes are turned into others. -/
theorem path_reraise_ok {cs : List ExcClass} {f : Exc → Exc} {x : Rx α} {a : α} :
    Fallible.Path (Fallible.mapOutcome (reraise cs f) x) calls (.ok a) ↔
      Fallible.Path x calls (.ok a) := by
  rw [Fallible.path_mapOutcome]
  constructor
  · rintro ⟨q, hq, h⟩
    rw [reraise_eq_ok.mp h.symm] at hq
    exact hq
  · intro h
    exact ⟨.ok a, h, rfl⟩

/-! ## Authentication -/

/-- The parts of a request that `preparse` found. -/
theorem preparse_parts {G : Runtime} {cfg : ReceiverConfig} {body : Dict} {p : Preparsed}
    (h : preparse G cfg body = .ok p) :
    extractEnvelopeJws G body = .ok (p.envelopeJws, p.message) ∧
      ∃ claims raw, decodeUnverifiedClaims G p.envelopeJws = .ok claims ∧
        claims.get? (text "from") = some (.str raw) ∧
        canonicalizeIdentifier G raw = .ok p.sender := by
  simp only [preparse, bind_eq_ok, mapError_eq_ok, Prod.exists] at h
  obtain ⟨jws, message, hext, header, claims, ⟨hd, -, cl, hcl, hpair⟩, h⟩ := h
  cases hpair
  split at h
  · next raw _ hfrom _ =>
    simp only [guard_eq_ok, bind_eq_ok, mapError_eq_ok, Prod.exists, pure_eq_ok] at h
    obtain ⟨-, sender, recipient, ⟨s, hs, r, -, hsr⟩, -, rfl⟩ := h
    cases hsr
    exact ⟨hext, claims, raw, hcl, hfrom, hs⟩
  · cases h

theorem fromPublicBytes_eq_ok {bytes key : Bytes} :
    fromPublicBytes bytes = .ok key ↔ bytes.length = 32 ∧ bytes = key := by
  rw [fromPublicBytes, guard_eq_ok, pure_eq_ok, not_not]

/-- The key the receiver holds for a sender, by what the calls answered. -/
inductive SenderKey (G : Runtime) (sender : Text) :
    List Call → Bytes → Option ProviderRecord → Prop
  | direct {key : Bytes} (hs : isPublicKeyIdentifier sender = true)
      (hk : parsePublicKey G sender = .ok key) : SenderKey G sender [] key none
  | provider {loc domain card : Text} {record : ProviderRecord} {key : Bytes}
      (hs : isPublicKeyIdentifier sender = false)
      (hd : splitShadowname G sender = .ok (loc, domain))
      (hk : parsePublicKey G card = .ok key) :
      SenderKey G sender [⟨.providerLookup domain, .ok record⟩,
        ⟨.fetchAgentCard sender record, .ok card⟩] key (some record)

theorem parsePublicKey_length {G : Runtime} {name : Text} {key : Bytes}
    (h : parsePublicKey G name = .ok key) : key.length = 32 := by
  simp only [parsePublicKey, validateMultibasePk, bind_eq_ok, guard_eq_ok, reraise_eq_ok,
    pure_eq_ok] at h
  obtain ⟨-, ⟨-, raw, ⟨decoded, hd, hraw⟩, hlen, -⟩, decoded', hd', hkey⟩ := h
  cases hd.symm.trans hd'
  cases hraw.symm.trans hkey
  exact not_not.mp hlen

theorem keyOf_eq_ok {G : Runtime} {name : Text} {record q : Option ProviderRecord} {key : Bytes} :
    (do
      let bytes ← parsePublicKey G name
      let k ← fromPublicBytes bytes
      pure (k, record) : Py (Bytes × Option ProviderRecord)) = .ok (key, q) ↔
    parsePublicKey G name = .ok key ∧ record = q := by
  simp only [bind_eq_ok, fromPublicBytes_eq_ok, pure_eq_ok, Prod.mk.injEq]
  constructor
  · rintro ⟨bytes, hb, k, ⟨-, rfl⟩, rfl, rfl⟩
    exact ⟨hb, rfl⟩
  · rintro ⟨hk, rfl⟩
    exact ⟨key, hk, key, ⟨parsePublicKey_length hk, rfl⟩, rfl, rfl⟩

theorem resolveSender_eq_ok {G : Runtime} {sender : Text} {key : Bytes}
    {record : Option ProviderRecord} :
    Fallible.Path (resolveSender G sender) calls (.ok (key, record)) ↔
      SenderKey G sender calls key record := by
  unfold resolveSender
  split_ifs with hs
  · rw [path_py, eq_comm (a := Except.ok _), keyOf_eq_ok]
    constructor
    · rintro ⟨rfl, hk, rfl⟩
      exact .direct hs hk
    · intro h
      cases h with
      | direct _ hk => exact ⟨rfl, hk, rfl⟩
      | provider hs' => simp [hs] at hs'
  · simp only [Fallible.path_bind_ok, path_reraise_ok, path_askPy, path_py, id]
    constructor
    · rintro ⟨c₁, c₂, r, rfl, ⟨d₁, d₂, ⟨loc, domain⟩, rfl, ⟨rfl, hd⟩, a, rfl, rfl⟩, e₁, e₂, card,
        rfl, ⟨b, rfl, rfl⟩, rfl, h⟩
      obtain ⟨hk, rfl⟩ := keyOf_eq_ok.mp h.symm
      exact .provider (by simpa using hs) hd.symm hk
    · intro h
      cases h with
      | direct hs' => exact absurd hs' hs
      | @provider loc domain card r _ _ hd hk =>
        exact ⟨[_], [_], r, rfl, ⟨[], [_], (loc, domain), rfl, ⟨rfl, hd.symm⟩, .ok r, rfl, rfl⟩,
          [_], [], card, rfl, ⟨.ok card, rfl, rfl⟩, rfl, (keyOf_eq_ok.mpr ⟨hk, rfl⟩).symm⟩

/-- What steps 2 to 7 establish, and from which answers. -/
theorem authenticate_eq_ok {G : Runtime} {cfg : ReceiverConfig} {body : Dict}
    {a : Authenticated} :
    Fallible.Path (authenticate G cfg body) calls (.ok a) ↔
      ∃ p key t c, preparse G cfg body = .ok p ∧ calls = c ++ [⟨.now, t⟩] ∧
        SenderKey G p.sender c key a.record ∧
        openEnvelope G cfg p.envelopeJws key t = .ok a.envelope ∧
        checkMessage G a.envelope p.message = .ok a.messageId ∧
        a.message = p.message ∧ a.sender = p.sender := by
  simp only [authenticate, Fallible.path_bind_ok, path_py, Fallible.path_pure]
  constructor
  · rintro ⟨c₁, c₂, p, rfl, ⟨rfl, hp⟩, d₁, d₂, ⟨key, record⟩, rfl, hkey, e₁, e₂, t, rfl,
      hnow, f₁, f₂, env, rfl, ⟨rfl, henv⟩, g₁, g₂, mid, rfl, ⟨rfl, hmid⟩, rfl, ha⟩
    obtain ⟨t', rfl, ht⟩ := path_ask.mp hnow
    cases ht
    cases ha
    exact ⟨p, key, t, d₁, hp.symm, by simp, resolveSender_eq_ok.mp hkey, henv.symm, hmid.symm,
      rfl, rfl⟩
  · rintro ⟨p, key, t, c, hp, rfl, hkey, henv, hmid, hmessage, hsender⟩
    refine ⟨[], _, p, rfl, ⟨rfl, hp.symm⟩, c, [⟨.now, t⟩], (key, a.record), rfl,
      resolveSender_eq_ok.mpr hkey, [⟨.now, t⟩], [], t, rfl, path_ask.mpr ⟨t, rfl, rfl⟩, [], [],
      a.envelope, rfl, ⟨rfl, henv.symm⟩, [], [], a.messageId, rfl, ⟨rfl, hmid.symm⟩, rfl, ?_⟩
    rw [← hmessage, ← hsender]

/-- The operations of steps 2 to 7. -/
def Op.Resolves : Op → Prop
  | .now => True
  | .providerLookup _ => True
  | .fetchAgentCard _ _ => True
  | _ => False

theorem only_py {P : Op → Prop} (x : Py α) : Fallible.Only P (py x) :=
  Fallible.only_ofExcept x

theorem only_ask {P : Op → Prop} {o : Op} (ho : P o) : Fallible.Only P (ask o) :=
  Fallible.only_ask ho

theorem only_askPy {P : Op → Prop} {o : Op} {raised : Ans o → Py α} (ho : P o) :
    Fallible.Only P (askPy o raised) :=
  (only_ask ho).bind fun _ => only_py _

theorem authenticate_only {G : Runtime} {cfg : ReceiverConfig} {body : Dict} :
    Fallible.Only Op.Resolves (authenticate G cfg body) := by
  have hresolve : ∀ s, Fallible.Only Op.Resolves (resolveSender G s) := by
    intro s
    refine (only_py _).ite (Fallible.Only.bind ?_ fun _ => Fallible.Only.bind ?_ fun _ => only_py _)
    · exact ((only_py _).bind fun _ => only_askPy trivial).mapOutcome
    · exact (only_askPy trivial).mapOutcome
  refine (only_py _).bind fun p => (hresolve _).bind fun _ => (only_ask trivial).bind fun _ => ?_
  exact (only_py _).bind fun _ => (only_py _).bind fun _ => Fallible.only_pure _

/-! ## The replay cache -/

theorem admit_path {G : Runtime} {sender messageId : Text} {r : Py Unit}
    (h : Fallible.Path (admitMessage G sender messageId) calls r) :
    (∃ e, calls = [⟨.seen sender messageId, true⟩] ∧ r = .error e) ∨
      (calls = [⟨.seen sender messageId, false⟩, ⟨.remember sender messageId 600, ()⟩] ∧
        r = .ok ()) := by
  rcases Fallible.path_bind.mp h with ⟨e, hs, -⟩ | ⟨c₁, c₂, b, rfl, hs, hrest⟩
  · obtain ⟨a, -, ha⟩ := path_ask.mp hs
    cases ha
  · obtain ⟨a, rfl, ha⟩ := path_ask.mp hs
    cases ha
    cases b with
    | true =>
      obtain ⟨rfl, rfl⟩ := Fallible.path_throw.mp hrest
      exact .inl ⟨_, rfl, rfl⟩
    | false =>
      obtain ⟨u, rfl, rfl⟩ := path_ask.mp hrest
      exact .inr ⟨rfl, rfl⟩

/-- Every way through `receive` ends before the replay cache, at it, or after it. -/
theorem receive_cases {G : Runtime} {cfg : ReceiverConfig} {body : Dict}
    {r : Py AcceptedDecision} (h : Fallible.Path (receive G cfg body) calls r) :
    (∃ e, r = .error e ∧ ∀ c ∈ calls, c.1.Resolves) ∨
      ∃ c₀ a, Fallible.Path (authenticate G cfg body) c₀ (.ok a) ∧
        ((∃ e, r = .error e ∧ calls = c₀ ++ [⟨.seen a.sender a.messageId, true⟩]) ∨
          ∃ c₁, calls = c₀ ++ ⟨.seen a.sender a.messageId, false⟩ ::
              ⟨.remember a.sender a.messageId 600, ()⟩ :: c₁ ∧
            Fallible.Path (decideRoute G cfg a) c₁ r) := by
  rcases Fallible.path_bind.mp h with ⟨e, ha, rfl⟩ | ⟨c₀, c', a, rfl, ha, hrest⟩
  · exact .inl ⟨e, rfl, authenticate_only _ _ ha⟩
  · refine .inr ⟨c₀, a, ha, ?_⟩
    rcases Fallible.path_bind.mp hrest with ⟨e, hadm, rfl⟩ | ⟨c₁, c₂, u, rfl, hadm, hdec⟩
    · rcases admit_path hadm with ⟨e', rfl, -⟩ | ⟨-, h⟩
      · exact .inl ⟨e, rfl, rfl⟩
      · cases h
    · rcases admit_path hadm with ⟨e', -, h⟩ | ⟨rfl, -⟩
      · cases h
      · exact .inr ⟨c₂, rfl, hdec⟩

/-! ## Credentials -/

/-- The key a credential was checked under is the issuer's: the issuer itself when keyed,
else the first key of the record looked up for it. -/
def IssuerKey (calls : List Call) (issuer key : Text) : Prop :=
  (isPublicKeyIdentifier issuer = true ∧ key = issuer) ∨
    ∃ record : ProviderRecord, ⟨.providerLookup issuer, .ok record⟩ ∈ calls ∧
      record.providerKeys.head? = some key

/-- The issuer may attest for the organisation: it is the organisation, or, for domains, a
sub-domain of it or one of the delegates in the record looked up for it. -/
def IssuerForOrg (G : Runtime) (calls : List Call) (issuer org : Text) : Prop :=
  issuer = org ∨ ((isPublicKeyIdentifier issuer || isPublicKeyIdentifier org) = false ∧
    (isSubdomainOf G issuer org = .ok true ∨
      ∃ record : ProviderRecord, ⟨.providerLookup org, .ok record⟩ ∈ calls ∧
        G.lower issuer ∈ record.delegates.map G.lower))

theorem IssuerKey.mono {calls' : List Call} {issuer key : Text} (hsub : calls ⊆ calls')
    (h : IssuerKey calls issuer key) : IssuerKey calls' issuer key := by
  rcases h with hk | ⟨record, hr, hk⟩
  · exact .inl hk
  · exact .inr ⟨record, hsub hr, hk⟩

theorem IssuerForOrg.mono {G : Runtime} {calls' : List Call} {issuer org : Text}
    (hsub : calls ⊆ calls') (h : IssuerForOrg G calls issuer org) :
    IssuerForOrg G calls' issuer org := by
  rcases h with ho | ⟨hd, hs | ⟨record, hr, ho⟩⟩
  · exact .inl ho
  · exact .inr ⟨hd, .inl hs⟩
  · exact .inr ⟨hd, .inr ⟨record, hsub hr, ho⟩⟩

/-- The checks of step 9 on a credential, at the time `t`, by what the calls answered. -/
structure PassedChecks (G : Runtime) (leeway : Int) (calls : List Call)
    (c : VerifiedCredential) (t : Int) : Prop where
  claims : ∃ d, decodeUnverifiedClaims G c.rawJws = .ok d ∧
    CredentialPayload.modelValidate G d = .ok c.payload
  signature : ∃ key, parsePublicKey G c.issuerKey = .ok key ∧
    verifyJwsSignature G c.rawJws key = .ok ()
  issuerKey : IssuerKey calls c.payload.iss c.issuerKey
  kind : c.payload.kind = orgAffiliation
  lifetime : c.payload.exp - c.payload.iat ≤ 2592000
  notExpired : t - leeway ≤ c.payload.exp
  notFuture : c.payload.iat ≤ t + leeway
  issuerForOrg : IssuerForOrg G calls c.payload.iss c.payload.org
  notRevoked : ⟨.revocationCheck c, .ok ()⟩ ∈ calls
  reading : ⟨.now, t⟩ ∈ calls

theorem PassedChecks.mono {G : Runtime} {leeway t : Int} {calls calls' : List Call}
    {c : VerifiedCredential} (hsub : calls ⊆ calls') (h : PassedChecks G leeway calls c t) :
    PassedChecks G leeway calls' c t :=
  { h with
    issuerKey := h.issuerKey.mono hsub
    issuerForOrg := h.issuerForOrg.mono hsub
    notRevoked := hsub h.notRevoked
    reading := hsub h.reading }

theorem resolveIssuerKey_ok {G : Runtime} {issuer key : Text}
    (h : Fallible.Path (resolveIssuerKey G issuer) calls (.ok key)) :
    IssuerKey calls issuer key := by
  unfold resolveIssuerKey at h
  split_ifs at h with hk
  · obtain ⟨rfl, hkey⟩ := Fallible.path_pure.mp h
    cases hkey
    exact .inl ⟨hk, rfl⟩
  · simp only [Fallible.path_bind_ok, path_reraise_ok, path_askPy, id] at h
    obtain ⟨c₁, c₂, record, rfl, ⟨a, rfl, rfl⟩, hrest⟩ := h
    refine .inr ⟨record, by simp, ?_⟩
    cases hkeys : record.providerKeys with
    | nil =>
      rw [hkeys] at hrest
      cases (Fallible.path_throw.mp hrest).2
    | cons k ks =>
      rw [hkeys] at hrest
      cases (Fallible.path_pure.mp hrest).2
      rfl

theorem checkIssuerAuthorizedForOrg_ok {G : Runtime} {issuer org : Text}
    (h : Fallible.Path (checkIssuerAuthorizedForOrg G issuer org) calls (.ok ())) :
    IssuerForOrg G calls issuer org := by
  unfold checkIssuerAuthorizedForOrg at h
  split_ifs at h with heq hkeyed
  · exact .inl heq
  · cases (Fallible.path_throw.mp h).2
  · refine .inr ⟨by simpa using hkeyed, ?_⟩
    obtain ⟨c₁, c₂, sub, rfl, hsub, hrest⟩ := Fallible.path_bind_ok.mp h
    obtain ⟨rfl, hdom⟩ := path_py.mp hsub
    cases sub with
    | true => exact .inl hdom.symm
    | false =>
      simp only [Bool.false_eq_true, if_false, Fallible.path_bind_ok, path_reraise_ok,
        path_askPy, id] at hrest
      obtain ⟨d₁, d₂, record, rfl, ⟨a, rfl, rfl⟩, hlast⟩ := hrest
      by_cases hdel : (record.delegates.map G.lower).contains (G.lower issuer) = true
      · exact .inr ⟨record, by simp, by simpa using hdel⟩
      · rw [if_neg hdel] at hlast
        cases (Fallible.path_throw.mp hlast).2

theorem verifyCredential_ok {G : Runtime} {jws : Text} {t leeway : Int}
    {c : VerifiedCredential}
    (h : Fallible.Path (verifyCredential G jws t leeway (resolveIssuerKey G)
      (checkIssuerAuthorizedForOrg G)) calls (.ok c)) :
    c.rawJws = jws ∧ checkClaims G jws t leeway = .ok c.payload ∧
      checkIssuerSignature G jws c.issuerKey = .ok () ∧
      IssuerKey calls c.payload.iss c.issuerKey ∧
      IssuerForOrg G calls c.payload.iss c.payload.org := by
  simp only [verifyCredential, Fallible.path_bind_ok, Fallible.path_ofExcept,
    Fallible.path_pure] at h
  obtain ⟨c₁, c₂, p, rfl, ⟨rfl, hp⟩, d₁, d₂, key, rfl, hkey, e₁, e₂, u, rfl, ⟨rfl, hsig⟩, f₁, f₂,
    v, rfl, hauth, rfl, hc⟩ := h
  cases hc
  exact ⟨rfl, hp.symm, hsig.symm, (resolveIssuerKey_ok hkey).mono (by simp),
    (checkIssuerAuthorizedForOrg_ok hauth).mono (by simp)⟩

/-- The operations of a credential's checks. -/
def Op.Checks : Op → Prop
  | .now => True
  | .providerLookup _ => True
  | .revocationCheck _ => True
  | _ => False

theorem verifyCredential_only {G : Runtime} {jws : Text} {t leeway : Int} :
    Fallible.Only Op.Checks (verifyCredential G jws t leeway (resolveIssuerKey G)
      (checkIssuerAuthorizedForOrg G)) := by
  have hkey : ∀ issuer, Fallible.Only Op.Checks (resolveIssuerKey G issuer) := by
    intro issuer
    refine (Fallible.only_pure _).ite ((only_askPy trivial).mapOutcome.bind fun record => ?_)
    cases record.providerKeys with
    | nil => exact Fallible.only_throw _
    | cons k ks => exact Fallible.only_pure _
  have horg : ∀ issuer org, Fallible.Only Op.Checks (checkIssuerAuthorizedForOrg G issuer org) := by
    intro issuer org
    refine (Fallible.only_pure _).ite ((Fallible.only_throw _).ite ((only_py _).bind fun sub => ?_))
    refine (Fallible.only_pure _).ite ((only_askPy trivial).mapOutcome.bind fun record => ?_)
    exact (Fallible.only_pure _).ite (Fallible.only_throw _)
  refine (Fallible.only_ofExcept _).bind fun p => (hkey _).bind fun k => ?_
  exact (Fallible.only_ofExcept _).bind fun _ => (horg _ _).bind fun _ => Fallible.only_pure _

/-- The expiry a credential is cached with when the clock reads `t`. -/
def cacheExpiry (c : VerifiedCredential) (t : Int) : Int := min (c.payload.exp - 60) (t + 2592000)

/-- One credential is checked and cached, or refused before it gets to the cache. -/
theorem validateCred_path {G : Runtime} {cfg : ReceiverConfig} {sender jws : Text}
    {r : Py VerifiedCredential}
    (h : Fallible.Path (validateCred G cfg sender jws) calls r) :
    (∃ e, r = .error e ∧ ∀ c ∈ calls, c.1.Checks) ∨
      ∃ c t t' checks, r = .ok c ∧
        calls = checks ++ [⟨.now, t'⟩, ⟨.cache sender c (cacheExpiry c t'), ()⟩] ∧
        (∀ x ∈ checks, x.1.Checks) ∧ c.rawJws = jws ∧
        PassedChecks G cfg.leewaySeconds checks c t := by
  rcases Fallible.path_bind.mp h with ⟨e, hnow, -⟩ | ⟨c₁, c₂, t, rfl, hnow, h₁⟩
  · obtain ⟨a, -, ha⟩ := path_ask.mp hnow
    cases ha
  obtain ⟨a, rfl, ha⟩ := path_ask.mp hnow
  cases ha
  rcases Fallible.path_bind.mp h₁ with ⟨e, hv, rfl⟩ | ⟨d₁, d₂, c, rfl, hv, h₂⟩
  · refine .inl ⟨e, rfl, ?_⟩
    simp only [List.forall_mem_append, List.forall_mem_singleton]
    exact ⟨trivial, verifyCredential_only.mapOutcome _ _ hv⟩
  have hchecks : ∀ x ∈ d₁, x.1.Checks := verifyCredential_only.mapOutcome _ _ hv
  obtain ⟨hraw, hclaims, hsig, hkey, horg⟩ := verifyCredential_ok (path_reraise_ok.mp hv)
  rcases Fallible.path_bind.mp h₂ with ⟨e, hrev, rfl⟩ | ⟨e₁, e₂, u, rfl, hrev, h₃⟩
  · obtain ⟨q, hq, -⟩ := Fallible.path_mapOutcome.mp hrev
    obtain ⟨a, rfl, -⟩ := path_askPy.mp hq
    refine .inl ⟨e, rfl, ?_⟩
    simp only [List.forall_mem_append, List.forall_mem_singleton]
    exact ⟨trivial, hchecks, trivial⟩
  obtain ⟨a, rfl, ha⟩ := path_askPy.mp (path_reraise_ok.mp hrev)
  obtain rfl : a = .ok () := ha.symm
  rcases Fallible.path_bind.mp h₃ with ⟨e, hnow', -⟩ | ⟨f₁, f₂, t', rfl, hnow', h₄⟩
  · obtain ⟨b, -, hb⟩ := path_ask.mp hnow'
    cases hb
  obtain ⟨b, rfl, hb⟩ := path_ask.mp hnow'
  cases hb
  rcases Fallible.path_bind.mp h₄ with ⟨e, hc, -⟩ | ⟨g₁, g₂, v, rfl, hc, h₅⟩
  · obtain ⟨b, -, hb⟩ := path_ask.mp hc
    cases hb
  obtain ⟨b, rfl, -⟩ := path_ask.mp hc
  obtain ⟨rfl, rfl⟩ := Fallible.path_pure.mp h₅
  obtain ⟨hdec, hkind, hlife, hexp, hiat⟩ := checkClaims_ok hclaims
  refine .inr ⟨c, t, t', ⟨.now, t⟩ :: d₁ ++ [⟨.revocationCheck c, .ok ()⟩], rfl,
    by simp [cacheExpiry],
    ?_, hraw, ?_⟩
  · simp only [List.forall_mem_append, List.forall_mem_cons]
    exact ⟨⟨trivial, hchecks⟩, trivial, by simp⟩
  · exact { claims := by rw [hraw]; exact hdec
            signature := by rw [hraw]; exact checkIssuerSignature_ok hsig
            issuerKey := hkey.mono (by simp)
            kind := hkind
            lifetime := hlife
            notExpired := hexp
            notFuture := hiat
            issuerForOrg := horg.mono (by simp)
            notRevoked := by simp
            reading := by simp }

/-- A credential is cached for the sender, after the checks, with the expiry of the time. -/
def CachedAfterChecks (G : Runtime) (cfg : ReceiverConfig) (tokens : List Text) (sender : Text)
    (calls : List Call) (x : Text) (c : VerifiedCredential) (e : Int) : Prop :=
  x = sender ∧ c.rawJws ∈ tokens ∧ (∃ t, PassedChecks G cfg.leewaySeconds calls c t) ∧
    ∃ t', ⟨.now, t'⟩ ∈ calls ∧ e = cacheExpiry c t'

theorem CachedAfterChecks.mono {G : Runtime} {cfg : ReceiverConfig} {tokens tokens' : List Text}
    {sender x : Text} {calls' : List Call} {c : VerifiedCredential} {e : Int}
    (ht : tokens ⊆ tokens') (hsub : calls ⊆ calls')
    (h : CachedAfterChecks G cfg tokens sender calls x c e) :
    CachedAfterChecks G cfg tokens' sender calls' x c e := by
  obtain ⟨hx, htok, ⟨t, hc⟩, t', hnow, he⟩ := h
  exact ⟨hx, ht htok, ⟨t, hc.mono hsub⟩, t', hsub hnow, he⟩

/-- The operations of step 9 for an envelope with credentials. -/
def Op.Validates : Op → Prop
  | .cache _ _ _ => True
  | o => o.Checks

/-- Calls of step 9: what they cache has passed the checks. -/
structure Validated (G : Runtime) (cfg : ReceiverConfig) (tokens : List Text) (sender : Text)
    (calls : List Call) : Prop where
  cached : ∀ x c e, ⟨.cache x c e, ()⟩ ∈ calls →
    CachedAfterChecks G cfg tokens sender calls x c e
  ops : ∀ x ∈ calls, x.1.Validates

section
variable {G : Runtime} {cfg : ReceiverConfig} {tokens : List Text} {sender : Text}

theorem Validated.of_checks (h : ∀ x ∈ calls, x.1.Checks) :
    Validated G cfg tokens sender calls where
  cached x c e hx := (h _ hx).elim
  ops x hx := by
    have hc := h x hx
    generalize x.1 = o at hc
    cases o <;> first | exact hc | trivial

theorem Validated.append {tokens' : List Text} {c₁ c₂ : List Call} (ht : tokens ⊆ tokens')
    (h₁ : Validated G cfg tokens' sender c₁) (h₂ : Validated G cfg tokens sender c₂) :
    Validated G cfg tokens' sender (c₁ ++ c₂) where
  cached x c e hx := by
    rcases List.mem_append.mp hx with h | h
    · exact (h₁.cached x c e h).mono (fun _ => id) (List.subset_append_left _ _)
    · exact (h₂.cached x c e h).mono ht (List.subset_append_right _ _)
  ops := List.forall_mem_append.mpr ⟨h₁.ops, h₂.ops⟩

theorem validateCred_validated {jws : Text} {r : Py VerifiedCredential}
    (h : Fallible.Path (validateCred G cfg sender jws) calls r) (hjws : jws ∈ tokens) :
    Validated G cfg tokens sender calls ∧
      ∀ c, r = .ok c → ∃ e, ⟨.cache sender c e, ()⟩ ∈ calls := by
  rcases validateCred_path h with ⟨e, rfl, hq⟩ | ⟨c, t, t', checks, rfl, rfl, hq, rfl, hpass⟩
  · exact ⟨.of_checks hq, fun c hc => nomatch hc⟩
  refine ⟨⟨fun x d e hx => ?_, ?_⟩, ?_⟩
  · rcases List.mem_append.mp hx with hx | hx
    · exact (hq _ hx).elim
    · simp only [List.mem_cons, Sigma.mk.injEq, reduceCtorEq, false_and, Op.cache.injEq,
        List.not_mem_nil, or_false, false_or] at hx
      obtain ⟨⟨rfl, rfl, rfl⟩, -⟩ := hx
      exact ⟨rfl, hjws, ⟨t, hpass.mono (by simp)⟩, t', by simp, rfl⟩
  · have hval : Validated G cfg tokens sender checks := .of_checks hq
    simp only [List.forall_mem_append, List.forall_mem_cons]
    exact ⟨hval.ops, trivial, trivial, by simp⟩
  · intro d hd
    cases hd
    exact ⟨cacheExpiry c t', by simp⟩

/-- The loop of step 9: what is cached passed the checks, and what is returned was cached. -/
theorem validateAll_validated {r : Py (List VerifiedCredential)}
    (h : Fallible.Path (validateAll G cfg sender tokens) calls r) :
    Validated G cfg tokens sender calls ∧
      ∀ creds, r = .ok creds → ∀ c ∈ creds, ∃ e, ⟨.cache sender c e, ()⟩ ∈ calls := by
  induction tokens generalizing calls r with
  | nil =>
    obtain ⟨rfl, rfl⟩ := Fallible.path_pure.mp h
    refine ⟨.of_checks (by simp), fun creds hc => ?_⟩
    cases hc
    simp
  | cons jws tokens ih =>
    rcases Fallible.path_bind.mp h with ⟨e, hcred, rfl⟩ | ⟨c₁, c₂, cred, rfl, hcred, hrest⟩
    · exact ⟨(validateCred_validated hcred (by simp)).1, fun creds hc => nomatch hc⟩
    have hjws : jws ∈ jws :: tokens := by simp
    obtain ⟨hhead, hcached⟩ := validateCred_validated hcred hjws
    rcases Fallible.path_bind.mp hrest with ⟨e, hall, rfl⟩ | ⟨d₁, d₂, creds, rfl, hall, hret⟩
    · exact ⟨hhead.append (by simp) (ih hall).1, fun creds hc => nomatch hc⟩
    · obtain ⟨rfl, rfl⟩ := Fallible.path_pure.mp hret
      obtain ⟨htail, hreturned⟩ := ih hall
      rw [List.append_nil]
      refine ⟨hhead.append (by simp) htail, fun cs hcs c hc => ?_⟩
      cases hcs
      rcases List.mem_cons.mp hc with rfl | hc
      · obtain ⟨e, he⟩ := hcached c rfl
        exact ⟨e, List.mem_append_left _ he⟩
      · obtain ⟨e, he⟩ := hreturned creds rfl c hc
        exact ⟨e, List.mem_append_right _ he⟩

/-- Step 9 validates what the envelope carries, or asks the cache. -/
theorem validateCreds_path {envelope : EnvelopePayload} {r : Py (List VerifiedCredential)}
    (h : Fallible.Path (validateCreds G cfg envelope sender) calls r) :
    (Validated G cfg envelope.creds sender calls ∧
      ∀ creds, r = .ok creds → ∀ c ∈ creds, ∃ e, ⟨.cache sender c e, ()⟩ ∈ calls) ∨
    ∃ creds, calls = [⟨.forSender sender, creds⟩] ∧ r = .ok creds := by
  unfold validateCreds at h
  split_ifs at h with hne
  · exact .inl (validateAll_validated h)
  · obtain ⟨creds, rfl, rfl⟩ := path_ask.mp h
    exact .inr ⟨creds, rfl, rfl⟩

end

/-! ## Classification -/

/-- The operations of step 10. -/
def Op.Classifies : Op → Prop
  | .isContact _ => True
  | .hasRecentOutbound _ _ _ => True
  | .addContact _ => True
  | _ => False

section
variable {G : Runtime} {cfg : ReceiverConfig} {sender : Text} {record : Option ProviderRecord}
  {creds : List VerifiedCredential} {contextId : Option Text}

theorem recentOutbound_path {r : Py Bool}
    (h : Fallible.Path (recentOutbound cfg sender contextId) calls r) :
    (calls = [] ∧ r = .ok false) ∨
      ∃ ctx b, contextId = some ctx ∧ ctx ≠ [] ∧ r = .ok b ∧
        calls = [⟨.hasRecentOutbound ctx sender cfg.autoAddLookbackSeconds, b⟩] := by
  rcases contextId with - | ctx
  · exact .inl (Fallible.path_pure.mp h)
  cases ctx with
  | nil => exact .inl (Fallible.path_pure.mp h)
  | cons c cs =>
    obtain ⟨b, rfl, rfl⟩ := path_ask.mp h
    exact .inr ⟨c :: cs, b, rfl, by simp, rfl, rfl⟩

theorem classify_only :
    Fallible.Only Op.Classifies (classify G cfg sender record creds contextId) := by
  refine (only_py _).bind fun _ => (Fallible.only_pure _).ite ((only_ask trivial).bind fun _ => ?_)
  refine (Fallible.only_pure _).ite (Fallible.Only.bind ?_ fun _ => ?_)
  · intro calls r h
    rcases recentOutbound_path h with ⟨rfl, -⟩ | ⟨ctx, b, -, -, -, rfl⟩
    · simp
    · simp [Op.Classifies]
  · exact ((only_ask trivial).bind fun _ => Fallible.only_pure _).ite (only_py _)

theorem classifyStranger_ok {route : Route} {auto : Bool}
    (h : classifyStranger G cfg sender creds = .ok (route, auto)) :
    route = .strangerReview ∧ auto = false ∧
      ∃ c ∈ creds, Counts G cfg.trustStore cfg.policy.fromStranger c := by
  unfold classifyStranger at h
  simp only [AcceptancePolicy.requiredKinds, Bool.false_eq_true, if_false, guard_eq_ok] at h
  obtain ⟨hreq, h⟩ := h
  by_cases hsat : satisfiesPolicy G creds cfg.trustStore cfg.policy.fromStranger = true
  · simp only [hsat, not_true_eq_false, if_false, pure_eq_ok, Prod.mk.injEq] at h
    exact ⟨h.1.symm, h.2.symm, (satisfiesPolicy_iff hreq).mp hsat⟩
  · rw [if_pos hsat] at h
    split_ifs at h

/-- The four ways to a route. -/
theorem classify_ways {route : Route} {auto : Bool}
    (h : Fallible.Path (classify G cfg sender record creds contextId) calls (.ok (route, auto))) :
    (sameProvider G cfg record = .ok true ∧ route = .inbox ∧ auto = false ∧ calls = []) ∨
    (sameProvider G cfg record = .ok false ∧
      ((route = .inbox ∧ auto = false ∧ calls = [⟨.isContact sender, true⟩]) ∨
      (∃ ctx, contextId = some ctx ∧ route = .inbox ∧ auto = true ∧
        calls = [⟨.isContact sender, false⟩,
          ⟨.hasRecentOutbound ctx sender cfg.autoAddLookbackSeconds, true⟩,
          ⟨.addContact sender, ()⟩]) ∨
      (route = .strangerReview ∧ auto = false ∧
        ∃ c ∈ creds, Counts G cfg.trustStore cfg.policy.fromStranger c))) := by
  obtain ⟨c₁, c₂, same, rfl, hsame, h₁⟩ := Fallible.path_bind_ok.mp h
  obtain ⟨rfl, hs⟩ := path_py.mp hsame
  cases same with
  | true =>
    obtain ⟨rfl, hr⟩ := Fallible.path_pure.mp h₁
    cases hr
    exact .inl ⟨hs.symm, rfl, rfl, rfl⟩
  | false =>
    refine .inr ⟨hs.symm, ?_⟩
    obtain ⟨d₁, d₂, contact, rfl, hcontact, h₂⟩ := Fallible.path_bind_ok.mp h₁
    obtain ⟨b, rfl, hb⟩ := path_ask.mp hcontact
    cases hb
    cases contact with
    | true =>
      obtain ⟨rfl, hr⟩ := Fallible.path_pure.mp h₂
      cases hr
      exact .inl ⟨rfl, rfl, rfl⟩
    | false =>
      obtain ⟨e₁, e₂, recent, rfl, hrecent, h₃⟩ := Fallible.path_bind_ok.mp h₂
      cases recent with
      | true =>
        obtain ⟨f₁, f₂, u, rfl, hadd, hret⟩ := Fallible.path_bind_ok.mp h₃
        obtain ⟨v, rfl, -⟩ := path_ask.mp hadd
        obtain ⟨rfl, hr⟩ := Fallible.path_pure.mp hret
        cases hr
        rcases recentOutbound_path hrecent with ⟨-, hb⟩ | ⟨ctx, b, rfl, -, hb, rfl⟩
        · cases hb
        · cases hb
          exact .inr (.inl ⟨ctx, rfl, rfl, rfl, rfl⟩)
      | false =>
        obtain ⟨rfl, hstranger⟩ := path_py.mp h₃
        obtain ⟨hroute, hauto, hc⟩ := classifyStranger_ok hstranger.symm
        exact .inr (.inr ⟨hroute, hauto, hc⟩)

end

/-! ## The whole call -/

/-- An accepted request: the steps it went through and the calls of each. -/
structure Accepted (G : Runtime) (cfg : ReceiverConfig) (body : Dict) (calls : List Call)
    (d : AcceptedDecision) where
  preparsed : Preparsed
  senderKey : Bytes
  record : Option ProviderRecord
  messageId : Text
  time : Int
  credentials : List VerifiedCredential
  contextId : Option Text
  resolving : List Call
  validating : List Call
  classifying : List Call
  preparse_ok : preparse G cfg body = .ok preparsed
  senderKey_ok : SenderKey G preparsed.sender resolving senderKey record
  envelope_ok : openEnvelope G cfg preparsed.envelopeJws senderKey time = .ok d.envelope
  message_ok : checkMessage G d.envelope preparsed.message = .ok messageId
  credentials_ok : Fallible.Path (validateCreds G cfg d.envelope d.sender) validating
    (.ok credentials)
  contextId_ok : contextIdOf preparsed.message = .ok contextId
  classify_ok : Fallible.Path (classify G cfg d.sender record credentials contextId) classifying
    (.ok (d.route, d.autoAddedContact))
  sender_eq : d.sender = preparsed.sender
  calls_eq : calls = resolving ++ ⟨.now, time⟩ :: ⟨.seen d.sender messageId, false⟩ ::
    ⟨.remember d.sender messageId 600, ()⟩ :: (validating ++ classifying)

theorem receive_ok {G : Runtime} {cfg : ReceiverConfig} {body : Dict} {d : AcceptedDecision}
    (h : Fallible.Path (receive G cfg body) calls (.ok d)) :
    Nonempty (Accepted G cfg body calls d) := by
  rcases receive_cases h with ⟨e, he, -⟩ | ⟨c₀, a, ha, ⟨e, he, -⟩ | ⟨c₁, rfl, hd⟩⟩
  · cases he
  · cases he
  obtain ⟨p, key, t, c, hp, rfl, hkey, henv, hmsg, hmessage, hsender⟩ := authenticate_eq_ok.mp ha
  obtain ⟨d₁, d₂, creds, rfl, hcreds, h₁⟩ := Fallible.path_bind_ok.mp hd
  obtain ⟨e₁, e₂, ctx, rfl, hctx, h₂⟩ := Fallible.path_bind_ok.mp h₁
  obtain ⟨rfl, hctx'⟩ := path_py.mp hctx
  obtain ⟨f₁, f₂, ⟨route, auto⟩, rfl, hclass, hret⟩ := Fallible.path_bind_ok.mp h₂
  obtain ⟨rfl, hr⟩ := Fallible.path_pure.mp hret
  cases hr
  refine ⟨⟨p, key, a.record, a.messageId, t, creds, ctx, c, d₁, f₁, hp, hkey, henv, hmsg, hcreds,
    ?_, hclass, hsender, by simp⟩⟩
  rw [← hmessage]
  exact hctx'.symm

theorem Accepted.path {G : Runtime} {cfg : ReceiverConfig} {body : Dict} {d : AcceptedDecision}
    (A : Accepted G cfg body calls d) : Fallible.Path (receive G cfg body) calls (.ok d) := by
  have hauth : Fallible.Path (authenticate G cfg body) (A.resolving ++ [⟨.now, A.time⟩])
      (.ok ⟨A.preparsed.message, d.sender, A.record, d.envelope, A.messageId⟩) :=
    authenticate_eq_ok.mpr ⟨A.preparsed, A.senderKey, A.time, A.resolving, A.preparse_ok, rfl,
      A.senderKey_ok, A.envelope_ok, A.message_ok, rfl, A.sender_eq⟩
  have hadmit : Fallible.Path (admitMessage G d.sender A.messageId)
      [⟨.seen d.sender A.messageId, false⟩, ⟨.remember d.sender A.messageId 600, ()⟩] (.ok ()) :=
    Fallible.path_bind_ok.mpr ⟨[_], [_], false, rfl, path_ask.mpr ⟨false, rfl, rfl⟩,
      path_ask.mpr ⟨(), rfl, rfl⟩⟩
  have hdecide : Fallible.Path (decideRoute G cfg
      ⟨A.preparsed.message, d.sender, A.record, d.envelope, A.messageId⟩)
      (A.validating ++ A.classifying) (.ok d) :=
    Fallible.path_bind_ok.mpr ⟨_, _, _, rfl, A.credentials_ok, Fallible.path_bind_ok.mpr
      ⟨[], _, _, rfl, path_py.mpr ⟨rfl, A.contextId_ok.symm⟩, Fallible.path_bind_ok.mpr
        ⟨_, [], _, (List.append_nil _).symm, A.classify_ok, Fallible.path_pure.mpr ⟨rfl, rfl⟩⟩⟩⟩
  have hcalls := A.calls_eq
  refine Fallible.path_bind_ok.mpr ⟨_, _, _, ?_, hauth, Fallible.path_bind_ok.mpr
    ⟨_, _, _, rfl, hadmit, hdecide⟩⟩
  simpa using hcalls

/-- The credentials `satisfies_policy` sees: those this request brought, each of them cached,
or those the cache answered. -/
def Weighed (calls : List Call) (sender : Text) (c : VerifiedCredential) : Prop :=
  (∃ e, ⟨.cache sender c e, ()⟩ ∈ calls) ∨
    ∃ creds, ⟨.forSender sender, creds⟩ ∈ calls ∧ c ∈ creds

theorem Accepted.weighed {G : Runtime} {cfg : ReceiverConfig} {body : Dict}
    {d : AcceptedDecision} (A : Accepted G cfg body calls d) {c : VerifiedCredential}
    (hc : c ∈ A.credentials) : Weighed calls d.sender c := by
  have hsub : A.validating ⊆ calls := by
    intro x hx
    exact A.calls_eq.symm ▸ by simp [hx]
  rcases validateCreds_path A.credentials_ok with ⟨-, hcached⟩ | ⟨creds, hasked, hcreds⟩
  · obtain ⟨e, hmem⟩ := hcached _ rfl c hc
    exact .inl ⟨e, hsub hmem⟩
  · cases hcreds
    exact .inr ⟨A.credentials, hsub (by simp [hasked]), hc⟩

/-- A credential that was presented: an envelope of the sender, verified under the sender's
key, carried it, it passed the checks of step 9 at a reading of the clock, and it went into
the cache with the expiry of a reading. -/
structure Presented (G : Runtime) (cfg : ReceiverConfig) (body : Dict) (calls : List Call)
    (sender : Text) (c : VerifiedCredential) (expiresAt : Int) : Prop where
  envelope : ∃ p key record t resolving env, preparse G cfg body = .ok p ∧ p.sender = sender ∧
    SenderKey G sender resolving key record ∧ resolving ++ [⟨.now, t⟩] <+: calls ∧
    verifyEnvelope G p.envelopeJws key cfg.subject t cfg.leewaySeconds = .ok env ∧
    c.rawJws ∈ env.creds
  checks : ∃ t, PassedChecks G cfg.leewaySeconds calls c t
  expiry : ∃ t, ⟨.now, t⟩ ∈ calls ∧ expiresAt = cacheExpiry c t

theorem presented_of_cache {G : Runtime} {cfg : ReceiverConfig} {body : Dict}
    {r : Py AcceptedDecision} (h : Fallible.Path (receive G cfg body) calls r) {sender : Text}
    {c : VerifiedCredential} {e : Int} (hc : ⟨.cache sender c e, ()⟩ ∈ calls) :
    Presented G cfg body calls sender c e := by
  rcases receive_cases h with ⟨_, -, hres⟩ | ⟨c₀, a, ha, hrest⟩
  · exact (hres _ hc).elim
  have hcache₀ : ⟨.cache sender c e, ()⟩ ∉ c₀ := fun hmem => authenticate_only _ _ ha _ hmem
  obtain ⟨p, key, t, res, hp, rfl, hkey, henv, -, -, hsender⟩ := authenticate_eq_ok.mp ha
  rcases hrest with ⟨_, -, rfl⟩ | ⟨c₁, rfl, hd⟩
  · simp only [List.mem_append, List.mem_singleton, Sigma.mk.injEq, reduceCtorEq, false_and,
      or_false] at hc hcache₀
    exact absurd hc hcache₀
  have hc₁ : ⟨.cache sender c e, ()⟩ ∈ c₁ := by
    rcases List.mem_append.mp hc with hc | hc
    · exact absurd hc hcache₀
    · simpa using hc
  -- Only step 9 calls the cache, and only for an envelope with credentials.
  have hval : ∃ v, Validated G cfg a.envelope.creds a.sender v ∧
      ⟨.cache sender c e, ()⟩ ∈ v ∧ v ⊆ c₁ := by
    have hclass : ∀ {x : Rx AcceptedDecision} {v : List Call} {q : Py AcceptedDecision},
        Fallible.Only Op.Classifies x → Fallible.Path x v q → ⟨.cache sender c e, ()⟩ ∉ v :=
      fun hx hv hmem => hx _ _ hv _ hmem
    rcases Fallible.path_bind.mp hd with ⟨_, hv, -⟩ | ⟨v, w, creds, rfl, hv, hrest⟩
    · rcases validateCreds_path hv with ⟨hval, -⟩ | ⟨creds, rfl, -⟩
      · exact ⟨c₁, hval, hc₁, fun _ => id⟩
      · simp at hc₁
    · have hw : ⟨.cache sender c e, ()⟩ ∉ w := by
        refine hclass ?_ hrest
        exact (only_py _).bind fun _ => classify_only.bind fun _ => Fallible.only_pure _
      have hcv : ⟨.cache sender c e, ()⟩ ∈ v := (List.mem_append.mp hc₁).resolve_right hw
      rcases validateCreds_path hv with ⟨hval, -⟩ | ⟨creds, rfl, -⟩
      · exact ⟨v, hval, hcv, List.subset_append_left _ _⟩
      · simp at hcv
  obtain ⟨v, hval, hcv, hsub⟩ := hval
  have hsub' : v ⊆ res ++ [⟨.now, t⟩] ++ ⟨.seen a.sender a.messageId, false⟩ ::
      ⟨.remember a.sender a.messageId 600, ()⟩ :: c₁ := by
    intro x hx
    simp [hsub hx]
  obtain ⟨rfl, htok, ⟨t₁, hpass⟩, t₂, hnow, rfl⟩ := hval.cached _ _ _ hcv
  refine ⟨⟨p, key, a.record, t, res, a.envelope, hp, hsender.symm, hsender ▸ hkey, ?_, ?_, htok⟩,
    ⟨t₁, hpass.mono hsub'⟩, t₂, hsub' hnow, rfl⟩
  · exact List.prefix_append _ _
  · simpa [openEnvelope] using henv

end Shadownet.Receiver
