import Shadownet.X402.Paywall

/-!
# The ways through a request

What the calls of one `process` and their answers say about the request. `process_ways` cuts
every way through the program at the calls that touch the stores: a challenge ends with
`issue`, and a settlement consumes its nonce, reserves, calls the facilitator and records, or
stops on the way.
-/

namespace Shadownet.X402

open Foundation Python

variable {α : Type} {calls : Calls Op Ans}

theorem path_py {x r : Py α} : Fallible.Path (py x) calls r ↔ calls = [] ∧ r = x :=
  Fallible.path_ofExcept

theorem path_ask {o : Op} {r : Py (Ans o)} :
    Fallible.Path (ask o) calls r ↔ ∃ a, calls = [⟨o, a⟩] ∧ r = .ok a :=
  Fallible.path_ask

theorem path_ask_bind {o : Op} {f : Ans o → Px α} {r : Py α} :
    Fallible.Path (ask o >>= f) calls r ↔
      ∃ a rest, calls = ⟨o, a⟩ :: rest ∧ Fallible.Path (f a) rest r :=
  Prog.path_call

theorem path_askPy {o : Op} {raised : Ans o → Py α} {r : Py α} :
    Fallible.Path (askPy o raised) calls r ↔ ∃ a, calls = [⟨o, a⟩] ∧ r = raised a :=
  Fallible.path_ask_ofExcept

/-- The operations that do not concern the stores or the facilitator. -/
def Op.Quiet : Op → Prop
  | .issue _ _ | .consume _ _ | .allowed _ | .reserve _ _ | .settle _ _ | .record _ _ => False
  | _ => True

theorem handle_quiet {G : Runtime} {tick : ℚ → ℚ → Prop} {s s' : Stores} {o : Op} {a : Ans o}
    (ho : o.Quiet) (h : handle G tick s o a s') : s' = s := by
  cases o <;> first | exact ho.elim | exact h

theorem evolves_quiet {G : Runtime} {tick : ℚ → ℚ → Prop} {s s' : Stores}
    (hq : ∀ c ∈ calls, c.1.Quiet) (h : Evolves (handle G tick) s calls s') : s' = s :=
  h.keeps (I := fun s₁ => s₁ = s) (fun c hc _ _ hs hh => (handle_quiet (hq c hc) hh).trans hs)
    rfl

/-! ## Credentials and proofs -/

/-- The unverified claims of a token are a credential payload for `sub`. -/
def CredentialFor (G : Python.Runtime) (token sub : Text) : Prop :=
  ∃ d p, decodeUnverifiedClaims G token = .ok d ∧
    CredentialPayload.modelValidate G d = .ok p ∧ p.sub = sub

theorem CredentialFor.unique {G : Python.Runtime} {token sub sub' : Text}
    (h : CredentialFor G token sub) (h' : CredentialFor G token sub') : sub = sub' := by
  obtain ⟨d, p, hd, hp, rfl⟩ := h
  obtain ⟨d', p', hd', hp', rfl⟩ := h'
  cases hd.symm.trans hd'
  cases hp.symm.trans hp'
  rfl

theorem only_askPy {o : Op} {raised : Ans o → Py α} (ho : o.Quiet) :
    Fallible.Only Op.Quiet (askPy o raised) :=
  (Fallible.only_ask ho).bind fun _ => Fallible.only_ofExcept _

theorem only_verifyPresented (G : Runtime) (token : Text) :
    Fallible.Only Op.Quiet (verifyPresented G token) := by
  refine (Fallible.only_ask (by exact trivial)).bind fun now => ?_
  refine (Fallible.only_ofExcept _).bind fun payload => ?_
  have hkey : (Op.resolveIssuerKey payload.iss).Quiet := trivial
  have horg : (Op.checkIssuerAuthorizedForOrg payload.iss payload.org).Quiet := trivial
  refine (only_askPy hkey).bind fun key => (Fallible.only_ofExcept _).bind fun _ => ?_
  exact (only_askPy horg).bind fun _ => Fallible.only_pure _

theorem verifyPresented_for {G : Runtime} {token : Text} {c : VerifiedCredential}
    (h : Fallible.Path (verifyPresented G token) calls (.ok c)) :
    CredentialFor G.py token c.payload.sub := by
  simp only [verifyPresented, verifyCredential, Fallible.path_bind_ok, Fallible.path_ofExcept,
    Fallible.path_pure] at h
  obtain ⟨-, -, now, -, -, -, -, p, -, ⟨-, hp⟩, -, -, key, -, -, -, -, -, -, -, -, -, -, -, -, -,
    hc⟩ := h
  obtain ⟨⟨d, hd, hm⟩, -⟩ := checkClaims_ok hp.symm
  rw [Except.ok.inj hc]
  exact ⟨d, p, hd, hm, rfl⟩

/-- The key that was resolved for a subject. -/
def KeyFor (G : Runtime) (w : Paywall) (calls : Calls Op Ans) (sub : Text) (key : Bytes) : Prop :=
  if w.resolvesSubjectKey then ⟨.resolveSubjectKey sub, .ok key⟩ ∈ calls
  else defaultResolveSubjectKey G sub = .ok key

/-- The proof of possession verified at the time `t`: under the key, for the audience, with
these `sub` and `nonce` claims. -/
def PopVerifies (G : Runtime) (pop : Text) (key : Bytes) (audience sub nonce : Text) (t : ℚ) :
    Prop :=
  ∃ claims, verifyJwt G pop key audience 60 popClaims t = .ok claims ∧
    claims.get? (text "sub") = some (.str sub) ∧ claims.get? (text "nonce") = some (.str nonce)

theorem only_resolveSubjectKey (G : Runtime) (w : Paywall) (sub : Text) :
    Fallible.Only Op.Quiet (w.resolveSubjectKey G sub) := by
  have hkey : (Op.resolveSubjectKey sub).Quiet := trivial
  exact (only_askPy hkey).ite (Fallible.only_ofExcept _)

theorem only_verifyPop {G : Runtime} {token sub audience nonce : Text}
    {resolve : Text → Px Bytes} {leeway : Int} (h : Fallible.Only Op.Quiet (resolve sub)) :
    Fallible.Only Op.Quiet (verifyPop G token sub audience nonce resolve leeway) := by
  have htime : Op.timestamp.Quiet := trivial
  refine (Fallible.only_ofExcept _).bind fun header => ?_
  refine (Fallible.only_throw _).ite (h.bind fun key => (Fallible.only_ask htime).bind fun t => ?_)
  refine (Fallible.only_ofExcept _).bind fun claims => ?_
  exact (Fallible.only_throw _).ite ((Fallible.only_throw _).ite (Fallible.only_pure _))

theorem only_runIdentityGate (G : Runtime) (w : Paywall) (token pop resourceUrl nonce : Text) :
    Fallible.Only Op.Quiet (runIdentityGate G w token pop resourceUrl nonce) := by
  refine ((only_verifyPresented G token).mapOutcome).bind fun credential => ?_
  have hrev : (Op.checkRevoked credential).Quiet := trivial
  refine (Fallible.only_throw _).ite (((only_askPy hrev).mapOutcome).bind fun _ => ?_)
  refine (Fallible.only_throw _).ite ?_
  exact (only_verifyPop (only_resolveSubjectKey G w _)).bind fun _ => Fallible.only_pure _

theorem path_reraise_ok {cs : List ExcClass} {f : Exc → Exc} {x : Px α} {a : α} :
    Fallible.Path (Fallible.mapOutcome (reraise cs f) x) calls (.ok a) ↔
      Fallible.Path x calls (.ok a) := by
  rw [Fallible.path_mapOutcome]
  constructor
  · rintro ⟨q, hq, h⟩
    rw [reraise_eq_ok.mp h.symm] at hq
    exact hq
  · intro h
    exact ⟨.ok a, h, rfl⟩

theorem path_guard_ok {c : Prop} [Decidable c] {e : Exc} {x : Px α} {a : α} :
    Fallible.Path (if c then throw e else x) calls (.ok a) ↔
      ¬ c ∧ Fallible.Path x calls (.ok a) := by
  simp [Fallible.path_guard]

theorem resolveSubjectKey_ok {G : Runtime} {w : Paywall} {sub : Text} {key : Bytes}
    (h : Fallible.Path (w.resolveSubjectKey G sub) calls (.ok key)) : KeyFor G w calls sub key := by
  unfold Paywall.resolveSubjectKey at h
  unfold KeyFor
  split_ifs at h ⊢ with hw
  · obtain ⟨a, rfl, ha⟩ := path_askPy.mp h
    rw [ha]
    exact List.mem_singleton.mpr rfl
  · exact (path_py.mp h).2.symm

theorem KeyFor.mono {G : Runtime} {w : Paywall} {calls' : Calls Op Ans} {sub : Text} {key : Bytes}
    (h : KeyFor G w calls sub key) (hsub : ∀ c ∈ calls, c ∈ calls') :
    KeyFor G w calls' sub key := by
  unfold KeyFor at h ⊢
  split_ifs at h ⊢
  · exact hsub _ h
  · exact h

theorem verifyPop_ok {G : Runtime} {w : Paywall} {token sub audience nonce : Text}
    (h : Fallible.Path (verifyPop G token sub audience nonce (w.resolveSubjectKey G) 60) calls
      (.ok ())) :
    ∃ key t, KeyFor G w calls sub key ∧ ⟨.timestamp, t⟩ ∈ calls ∧
      PopVerifies G token key audience sub nonce t := by
  simp only [verifyPop, Fallible.path_bind_ok, path_py, path_guard_ok, not_not] at h
  obtain ⟨-, -, header, rfl, ⟨rfl, -⟩, -, c₁, -, key, rfl, hkey, c₂, -, t, rfl, htime, -, -,
    claims, rfl, ⟨rfl, hclaims⟩, hsub, hnonce, -⟩ := h
  obtain ⟨t', rfl, ht⟩ := path_ask.mp htime
  cases ht
  refine ⟨key, t, (resolveSubjectKey_ok hkey).mono fun c hc => by simp [hc], by simp, claims, ?_,
    isStr_iff.mp hsub, isStr_iff.mp hnonce⟩
  exact reraise_eq_ok.mp hclaims.symm

/-- What the identity gate established with the calls `pre`. -/
structure Gated (G : Runtime) (q : Request) (pre : Calls Op Ans) (nonce : Text)
    (identity : ShadowIdentity) : Prop where
  quiet : ∀ c ∈ pre, c.1.Quiet
  credential : ∃ token, q.credential = some token ∧ CredentialFor G.py token identity.sub
  pop : ∃ pop key t, q.pop = some pop ∧ popNonce G pop = .ok nonce ∧
    KeyFor G q.paywall pre identity.sub key ∧ ⟨.timestamp, t⟩ ∈ pre ∧
    PopVerifies G pop key q.resourceUrl identity.sub nonce t

theorem gated_of_runIdentityGate {G : Runtime} {q : Request} {token pop nonce : Text}
    {identity : ShadowIdentity} (hcred : q.credential = some token) (hpop : q.pop = some pop)
    (hnonce : popNonce G pop = .ok nonce)
    (h : Fallible.Path (runIdentityGate G q.paywall token pop q.resourceUrl nonce) calls
      (.ok identity)) : Gated G q calls nonce identity := by
  have hquiet := only_runIdentityGate G q.paywall token pop q.resourceUrl nonce _ _ h
  simp only [runIdentityGate, Fallible.path_bind_ok, path_reraise_ok, path_guard_ok,
    Fallible.path_pure] at h
  obtain ⟨c₁, -, credential, rfl, hv, -, c₂, -, -, rfl, -, -, c₃, -, u, rfl, hp, rfl, hid⟩ := h
  obtain ⟨key, t, hkey, ht, hver⟩ := verifyPop_ok hp
  rw [Except.ok.inj hid]
  refine ⟨hquiet, ⟨token, hcred, verifyPresented_for hv⟩, pop, key, t, hpop, hnonce,
    hkey.mono fun c hc => ?_, ?_, hver⟩
  · simp [hc]
  · simp [ht]

/-! ## Outcomes -/

/-- Neither a challenge nor a settlement. -/
inductive Declined : Py PaywallResult → Prop
  | raised (e : Exc) : Declined (.error e)
  | refused (status : Nat) (reason : Text) : Declined (.ok (.refused status reason))

theorem declined_refusing {cs : List ExcClass} {f : Exc → PaywallResult} {e : Exc}
    {status : Nat} {reason : Text} (hf : f e = .refused status reason) :
    Declined (refusing cs f e) := by
  unfold refusing
  split_ifs
  · rw [hf]
    exact .refused _ _
  · exact .raised _

/-- The ways through a settlement after the nonce is consumed. -/
inductive CollectWay (identity : ShadowIdentity) (settings : Settings) (xPayment : Text) :
    Calls Op Ans → Py PaywallResult → Prop
  | unpaid {r : Py PaywallResult} (hr : Declined r) : CollectWay identity settings xPayment [] r
  | overspent {e : Exc} {r : Py PaywallResult} (hr : Declined r) :
      CollectWay identity settings xPayment
        [⟨.reserve identity.sub settings.priceMicro, .error e⟩] r
  | unsettled {req : PaymentRequirements} {a : Py SettleOutcome} {r : Py PaywallResult}
      (hr : Declined r) : CollectWay identity settings xPayment
        [⟨.reserve identity.sub settings.priceMicro, .ok ()⟩, ⟨.settle xPayment req, a⟩] r
  | settled {req : PaymentRequirements} {outcome : SettleOutcome} (hs : outcome.success = true)
      (hpay : settings.payTo ≠ none) : CollectWay identity settings xPayment
        [⟨.reserve identity.sub settings.priceMicro, .ok ()⟩,
          ⟨.settle xPayment req, .ok outcome⟩,
          ⟨.record identity.sub settings.priceMicro, ()⟩] (.ok (.settled identity outcome))

theorem collect_ways {G : Runtime} {w : Paywall} {resourceUrl xPayment : Text}
    {identity : ShadowIdentity} {r : Py PaywallResult}
    (h : Fallible.Path (collect G w resourceUrl xPayment identity) calls r) :
    CollectWay identity w.settings xPayment calls r := by
  rcases Fallible.path_bind.mp h with ⟨e, hp, rfl⟩ | ⟨d₁, c₁, req, hcalls, hp, h₁⟩
  · rw [(path_py.mp hp).1]
    exact .unpaid (.raised e)
  obtain ⟨rfl, hreq⟩ := path_py.mp hp
  have hamount := buildPaymentRequirements_amount hreq.symm
  have hpay := buildPaymentRequirements_payTo hreq.symm
  rw [hcalls, List.nil_append]
  rcases Fallible.path_handling.mp h₁ with ⟨e, hp, rfl⟩ | ⟨d₂, c₂, u, rfl, hp, h₂⟩
  · rw [(path_py.mp hp).1]
    exact .unpaid (declined_refusing rfl)
  obtain ⟨rfl, -⟩ := path_py.mp hp
  rw [hamount] at h₂
  rcases Fallible.path_handling.mp h₂ with ⟨e, hp, rfl⟩ | ⟨d₃, c₃, u, rfl, hp, h₃⟩
  · obtain ⟨a, rfl, ha⟩ := path_askPy.mp hp
    cases ha
    exact .overspent (declined_refusing rfl)
  obtain ⟨a, rfl, ha⟩ := path_askPy.mp hp
  cases ha
  rcases Fallible.path_handling.mp h₃ with ⟨e, hp, rfl⟩ | ⟨d₄, c₄, outcome, rfl, hp, h₄⟩
  · obtain ⟨a, rfl, -⟩ := path_askPy.mp hp
    exact .unsettled (declined_refusing rfl)
  obtain ⟨a, rfl, ha⟩ := path_askPy.mp hp
  cases ha
  rw [hamount] at h₄
  split_ifs at h₄ with hs
  · obtain ⟨a, c₅, rfl, hret⟩ := path_ask_bind.mp h₄
    obtain ⟨rfl, rfl⟩ := Fallible.path_pure.mp hret
    exact .settled hs hpay
  · obtain ⟨rfl, rfl⟩ := Fallible.path_pure.mp h₄
    exact .unsettled (.refused _ _)

/-- The operations that leave the stores alone before anything is granted. -/
def Op.Idle (o : Op) : Prop := o.Quiet ∨ ∃ key, o = .allowed key

/-- The ways through a request. -/
inductive ProcessWay (G : Runtime) (q : Request) : Calls Op Ans → Py PaywallResult → Prop
  | declined {calls : Calls Op Ans} {r : Py PaywallResult} (hc : ∀ c ∈ calls, c.1.Idle)
      (hr : Declined r) : ProcessWay G q calls r
  | issued {pre : Calls Op Ans} {token sub nonce : Text} {credential : VerifiedCredential}
      (hpre : ∀ c ∈ pre, c.1.Quiet) (hcred : q.credential = some token)
      (hsub : CredentialFor G.py token sub) :
      ProcessWay G q
        (pre ++ [⟨.allowed sub, true⟩, ⟨.checkRevoked credential, .ok ()⟩,
          ⟨.issue q.paywall.settings.nonceTtlSeconds (some sub), nonce⟩])
        ((buildPaymentRequirements q.paywall.settings q.resourceUrl).map (.challenge · nonce))
  | unconsumed {pre : Calls Op Ans} {nonce : Text} {identity : ShadowIdentity} {e : Exc}
      {r : Py PaywallResult} (hg : Gated G q pre nonce identity) (hr : Declined r) :
      ProcessWay G q (pre ++ [⟨.consume nonce (some identity.sub), .error e⟩]) r
  | consumed {pre rest : Calls Op Ans} {nonce xPayment : Text} {identity : ShadowIdentity}
      {r : Py PaywallResult} (hg : Gated G q pre nonce identity)
      (hc : CollectWay identity q.paywall.settings xPayment rest r) :
      ProcessWay G q (pre ++ ⟨.consume nonce (some identity.sub), .ok ()⟩ :: rest) r

theorem challenge_ways {G : Runtime} {q : Request} {r : Py PaywallResult}
    (h : Fallible.Path (challenge G q.paywall q.resourceUrl q.credential) calls r) :
    ProcessWay G q calls r := by
  have hempty : ∀ {status : Nat} {reason : Text},
      Fallible.Path (pure (.refused status reason) : Px PaywallResult) calls r →
        ProcessWay G q calls r := by
    intro status reason hp
    obtain ⟨rfl, rfl⟩ := Fallible.path_pure.mp hp
    exact .declined nofun (.refused _ _)
  unfold challenge at h
  split at h
  · exact hempty h
  · exact hempty h
  next token _ hcred =>
  rcases Fallible.path_handling.mp h with ⟨e, hv, rfl⟩ | ⟨pre, c₁, credential, rfl, hv, h₁⟩
  · exact .declined (fun c hc => .inl (only_verifyPresented G _ _ _ hv c hc))
      (declined_refusing rfl)
  have hpre := only_verifyPresented G _ _ _ hv
  have hidle : ∀ c ∈ pre, c.1.Idle := fun c hc => .inl (hpre c hc)
  obtain ⟨allowed, c₂, rfl, h₂⟩ := path_ask_bind.mp h₁
  split_ifs at h₂ with ha
  · rcases Fallible.path_handling.mp h₂ with ⟨e, hrev, rfl⟩ | ⟨d₃, c₃, u, rfl, hrev, h₃⟩
    · obtain ⟨a, rfl, -⟩ := path_askPy.mp hrev
      refine .declined (fun c hc => ?_) (declined_refusing rfl)
      simp only [List.mem_append, List.mem_cons, List.not_mem_nil, or_false] at hc
      rcases hc with hc | rfl | rfl
      · exact hidle c hc
      · exact .inr ⟨_, rfl⟩
      · exact .inl trivial
    · obtain ⟨a, rfl, hok⟩ := path_askPy.mp hrev
      cases hok
      obtain ⟨nonce, c₄, rfl, h₄⟩ := path_ask_bind.mp h₃
      cases ha
      obtain ⟨rfl, rfl⟩ : c₄ = [] ∧ r = (buildPaymentRequirements q.paywall.settings
          q.resourceUrl).map (.challenge · nonce) := by
        rcases Fallible.path_bind.mp h₄ with ⟨e, hreq, rfl⟩ | ⟨d₅, c₅, req, rfl, hreq, h₅⟩
        · obtain ⟨rfl, hbuilt⟩ := path_py.mp hreq
          rw [← hbuilt]
          exact ⟨rfl, rfl⟩
        · obtain ⟨rfl, hbuilt⟩ := path_py.mp hreq
          obtain ⟨rfl, rfl⟩ := Fallible.path_pure.mp h₅
          rw [← hbuilt]
          exact ⟨rfl, rfl⟩
      exact .issued hpre hcred (verifyPresented_for hv)
  · obtain ⟨rfl, rfl⟩ := Fallible.path_pure.mp h₂
    refine .declined (fun c hc => ?_) (.refused _ _)
    rcases List.mem_append.mp hc with hc | hc
    · exact hidle c hc
    · rw [List.mem_singleton.mp hc]
      exact .inr ⟨_, rfl⟩

theorem settle_ways {G : Runtime} {q : Request} {xPayment : Text} {r : Py PaywallResult}
    (h : Fallible.Path (settle G q.paywall q.resourceUrl q.credential q.pop xPayment) calls r) :
    ProcessWay G q calls r := by
  unfold settle at h
  split at h
  next c token p pop hcred hpop =>
    rcases Fallible.path_handling.mp h with ⟨e, hn, rfl⟩ | ⟨d₁, c₁, nonce, rfl, hn, h₁⟩
    · rw [(path_py.mp hn).1]
      exact .declined nofun (declined_refusing rfl)
    obtain ⟨rfl, hnonce⟩ := path_py.mp hn
    rcases Fallible.path_handling.mp h₁ with ⟨e, hg, rfl⟩ | ⟨pre, c₂, identity, rfl, hg, h₂⟩
    · refine .declined (fun c hc => .inl ?_) (declined_refusing rfl)
      exact only_runIdentityGate G _ _ _ _ _ _ _ hg c hc
    have hgated := gated_of_runIdentityGate hcred hpop hnonce.symm hg
    rcases Fallible.path_handling.mp h₂ with ⟨e, hc, rfl⟩ | ⟨d₃, c₃, u, rfl, hc, h₃⟩
    · obtain ⟨a, rfl, ha⟩ := path_askPy.mp hc
      cases ha
      exact .unconsumed hgated (declined_refusing rfl)
    · obtain ⟨a, rfl, ha⟩ := path_askPy.mp hc
      cases ha
      exact .consumed hgated (collect_ways h₃)
  · obtain ⟨rfl, rfl⟩ := Fallible.path_pure.mp h
    exact .declined nofun (.refused _ _)

/-- Every way through a request. -/
theorem process_ways {G : Runtime} {q : Request} {r : Py PaywallResult}
    (h : Fallible.Path (process G q) calls r) : ProcessWay G q calls r := by
  unfold process at h
  split at h
  · exact challenge_ways h
  · exact settle_ways h

end Shadownet.X402
