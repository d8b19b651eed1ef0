import Mathlib.Algebra.BigOperators.Group.List.Basic
import Shadownet.Python.Binding
import Shadownet.X402.Paths

/-!
# The ledger over sequential runs

One request at a time, mixed with `revoke` and `restore`. `process_effect` says what one
request does to the stores; over a whole run the recorded spend of an identity is the sum of
what it settled, and stays within the cap.
-/

namespace Shadownet.X402

open Foundation Python

variable {G : Runtime} {tick : ℚ → ℚ → Prop}

/-! ## One request -/

/-- What one request does to the stores, with its result. -/
inductive ProcessEffect (G : Runtime) (tick : ℚ → ℚ → Prop) (q : Request) (calls : Calls Op Ans)
    (s : Stores) : Py PaywallResult → Stores → Prop
  | declined {r : Py PaywallResult} (hr : Declined r) : ProcessEffect G tick q calls s r s
  | popped {r : Py PaywallResult} {t : ℚ} {nonce : Text} (hr : Declined r) (ht : tick s.clock t) :
      ProcessEffect G tick q calls s r (s.pop t nonce)
  | challenged {token sub nonce : Text} {t : ℚ} (hcred : q.credential = some token)
      (hsub : CredentialFor G.py token sub) (hallowed : sub ∉ s.revoked) (ht : tick s.clock t)
      (hlast : calls.getLast? =
        some ⟨.issue q.paywall.settings.nonceTtlSeconds (some sub), nonce⟩) :
      ProcessEffect G tick q calls s
        ((buildPaymentRequirements q.paywall.settings q.resourceUrl).map (.challenge · nonce))
        (s.issue G t q.paywall.settings.nonceTtlSeconds (some sub) nonce)
  | settled {pre : Calls Op Ans} {nonce : Text} {identity : ShadowIdentity}
      {outcome : SettleOutcome} {entry : Option Text × ℚ} {t : ℚ}
      (hg : Gated G q pre nonce identity) (hpre : pre <+: calls)
      (hentry : s.entries nonce = some entry) (ht : tick s.clock t)
      (hcheck : checkEntry t entry (some identity.sub) = .ok ())
      (hreserve : s.reserve G identity.sub q.paywall.settings.priceMicro = .ok ())
      (hpay : q.paywall.settings.payTo ≠ none) :
      ProcessEffect G tick q calls s (.ok (.settled identity outcome))
        ((s.pop t nonce).record identity.sub q.paywall.settings.priceMicro)

theorem handle_idle {s s' : Stores} {o : Op} {a : Ans o} (ho : o.Idle)
    (h : handle G tick s o a s') : s' = s := by
  rcases ho with ho | ⟨key, rfl⟩
  · exact handle_quiet ho h
  · exact h.2

theorem evolves_idle {calls : Calls Op Ans} {s s' : Stores} (hi : ∀ c ∈ calls, c.1.Idle)
    (h : Evolves (handle G tick) s calls s') : s' = s :=
  h.keeps (I := fun s₁ => s₁ = s) (fun c hc _ _ hs hh => (handle_idle (hi c hc) hh).trans hs) rfl

/-- What a call of `consume` does. -/
theorem handle_consume {s s' : Stores} {nonce : Text} {key : Option Text} {a : Py Unit}
    (h : handle G tick s (.consume nonce key) a s') :
    (∃ e, a = .error e ∧ s' = s) ∨
      ∃ entry t, s.entries nonce = some entry ∧ tick s.clock t ∧ a = checkEntry t entry key ∧
        s' = s.pop t nonce := by
  simp only [handle] at h
  split at h
  · exact .inl ⟨_, h⟩
  next entry hentry =>
    obtain ⟨t, ht, ha, hs⟩ := h
    exact .inr ⟨entry, t, hentry, ht, ha, hs⟩

theorem process_effect {q : Request} {calls : Calls Op Ans} {r : Py PaywallResult} {s s' : Stores}
    (hp : Fallible.Path (process G q) calls r) (he : Evolves (handle G tick) s calls s') :
    ProcessEffect G tick q calls s r s' := by
  cases process_ways hp with
  | declined hc hr =>
    rw [evolves_idle hc he]
    exact .declined hr
  | @issued pre token sub nonce credential hpre hcred hsub =>
    obtain ⟨s₁, h₁, h₂⟩ := evolves_append.mp he
    rw [evolves_quiet hpre h₁] at h₂
    obtain ⟨s₂, ⟨hallowed, rfl⟩, h₃⟩ := evolves_cons.mp h₂
    obtain ⟨s₃, hrevoked, h₄⟩ := evolves_cons.mp h₃
    obtain ⟨s₄, ⟨t, ht, rfl⟩, h₅⟩ := evolves_cons.mp h₄
    rw [evolves_nil.mp h₅, show s₃ = s₂ from hrevoked]
    rw [show s₃ = s₂ from hrevoked] at ht
    exact .challenged hcred hsub (of_decide_eq_true hallowed.symm) ht (by simp)
  | @unconsumed pre nonce identity e r hg hr =>
    obtain ⟨s₁, h₁, h₂⟩ := evolves_append.mp he
    rw [evolves_quiet hg.quiet h₁] at h₂
    obtain ⟨s₂, hconsume, h₃⟩ := evolves_cons.mp h₂
    rw [evolves_nil.mp h₃]
    rcases handle_consume hconsume with ⟨e, -, rfl⟩ | ⟨entry, t, -, ht, -, rfl⟩
    · exact .declined hr
    · exact .popped hr ht
  | @consumed pre rest nonce xPayment identity r hg hc =>
    obtain ⟨s₁, h₁, h₂⟩ := evolves_append.mp he
    rw [evolves_quiet hg.quiet h₁] at h₂
    obtain ⟨s₂, hconsume, h₃⟩ := evolves_cons.mp h₂
    rcases handle_consume hconsume with ⟨e, ha, -⟩ | ⟨entry, t, hentry, ht, hcheck, rfl⟩
    · cases ha
    cases hc with
    | unpaid hr =>
      rw [evolves_nil.mp h₃]
      exact .popped hr ht
    | overspent hr =>
      obtain ⟨s₃, ⟨-, rfl⟩, h₄⟩ := evolves_cons.mp h₃
      rw [evolves_nil.mp h₄]
      exact .popped hr ht
    | unsettled hr =>
      obtain ⟨s₃, ⟨-, rfl⟩, h₄⟩ := evolves_cons.mp h₃
      obtain ⟨s₄, rfl, h₅⟩ := evolves_cons.mp h₄
      rw [evolves_nil.mp h₅]
      exact .popped hr ht
    | settled hs hpay =>
      obtain ⟨s₃, ⟨hreserve, rfl⟩, h₄⟩ := evolves_cons.mp h₃
      obtain ⟨s₄, rfl, h₅⟩ := evolves_cons.mp h₄
      obtain ⟨s₅, rfl, h₆⟩ := evolves_cons.mp h₅
      rw [evolves_nil.mp h₆]
      exact .settled hg (List.prefix_append _ _) hentry ht hcheck.symm hreserve.symm hpay

/-! ## Runs -/

/-- What happens to the stores: a request with its calls, its result and the last reading of
the nonce store's clock, or the operator. -/
inductive Entry where
  | processed (q : Request) (calls : Calls Op Ans) (r : Py PaywallResult) (time : ℚ)
  | revoked (identityKey : Text)
  | restored (identityKey : Text)

/-- The sequential runs from `s₀`: what happened, and the stores at the end. -/
inductive Served (G : Runtime) (tick : ℚ → ℚ → Prop) (s₀ : Stores) : List Entry → Stores → Prop
  | start : Served G tick s₀ [] s₀
  | process {log : List Entry} {s s' : Stores} {q : Request} {calls : Calls Op Ans}
      {r : Py PaywallResult} (h : Served G tick s₀ log s)
      (hp : Fallible.Path (process G q) calls r) (he : Evolves (handle G tick) s calls s') :
      Served G tick s₀ (log ++ [.processed q calls r s'.clock]) s'
  | revoke {log : List Entry} {s : Stores} (identityKey : Text) (h : Served G tick s₀ log s) :
      Served G tick s₀ (log ++ [.revoked identityKey]) (s.revoke identityKey)
  | restore {log : List Entry} {s : Stores} (identityKey : Text) (h : Served G tick s₀ log s) :
      Served G tick s₀ (log ++ [.restored identityKey]) (s.restore identityKey)

/-- What an identity paid in one entry of a run. -/
def Entry.settledAmount (sub : Text) : Entry → Int
  | .processed q _ (.ok (.settled identity _)) _ =>
    if identity.sub = sub then q.paywall.settings.priceMicro else 0
  | _ => 0

/-- The sum of the amounts of the `Settled` results of an identity. -/
def settledTotal (sub : Text) (log : List Entry) : Int := (log.map (Entry.settledAmount sub)).sum

/-- Revoked, and not restored since. -/
def Killed (sub : Text) (log : List Entry) : Prop :=
  ∃ pre mid, log = pre ++ .revoked sub :: mid ∧ .restored sub ∉ mid

/-- The result is `Settled` or a `Challenge` for the identity. -/
def GrantedTo (G : Runtime) (q : Request) (sub : Text) : Py PaywallResult → Prop
  | .ok (.settled identity _) => identity.sub = sub
  | .ok (.challenge _ _) => ∃ token, q.credential = some token ∧ CredentialFor G.py token sub
  | _ => False

def IsSettled : Py PaywallResult → Prop
  | .ok (.settled _ _) => True
  | _ => False

theorem settledTotal_concat (sub : Text) (log : List Entry) (x : Entry) :
    settledTotal sub (log ++ [x]) = settledTotal sub log + x.settledAmount sub := by
  simp [settledTotal]

theorem Declined.settledAmount {r : Py PaywallResult} (h : Declined r) (sub : Text) (q : Request)
    (calls : Calls Op Ans) (time : ℚ) :
    (Entry.processed q calls r time).settledAmount sub = 0 := by
  cases h <;> rfl

theorem settledAmount_challenge (x : Py PaymentRequirements) (nonce sub : Text) (q : Request)
    (calls : Calls Op Ans) (time : ℚ) :
    (Entry.processed q calls (x.map (.challenge · nonce)) time).settledAmount sub = 0 := by
  cases x <;> rfl

theorem Declined.not_granted {r : Py PaywallResult} (h : Declined r) (q : Request) (sub : Text) :
    ¬ GrantedTo G q sub r := by
  cases h <;> exact id

theorem reserve_eq_ok {s : Stores} {sub : Text} {amount : Int} :
    s.reserve G sub amount = .ok () ↔ sub ∉ s.revoked ∧ s.spent sub + amount ≤ s.cap := by
  simp [Stores.reserve, Stores.allowed, guard_eq_ok]

/-- The books: each recorded spend is what was settled, within the cap. -/
structure Balanced (cap : Int) (log : List Entry) (s : Stores) : Prop where
  cap_eq : s.cap = cap
  total : ∀ sub, settledTotal sub log = s.spent sub
  within : ∀ sub, s.spent sub ≤ cap
  killed : ∀ sub, Killed sub log → sub ∈ s.revoked

theorem Killed.of_concat {sub : Text} {log : List Entry} {x : Entry}
    (h : Killed sub (log ++ [x])) : x = .revoked sub ∨ (Killed sub log ∧ x ≠ .restored sub) := by
  obtain ⟨pre, mid, heq, hmid⟩ := h
  rcases List.eq_nil_or_concat mid with rfl | ⟨mid, y, rfl⟩
  · exact .inl (List.cons.inj (List.append_inj' heq rfl).2).1
  · rw [List.concat_eq_append, ← List.cons_append, ← List.append_assoc] at heq
    obtain ⟨rfl, hx⟩ := List.append_inj' heq rfl
    rw [(List.cons.inj hx).1]
    refine .inr ⟨⟨pre, mid, rfl, fun hr => hmid (by simp [hr])⟩, ?_⟩
    rintro rfl
    exact hmid (by simp)

/-- What a request keeps of the books, whatever it does to the nonces. -/
theorem Balanced.process {cap : Int} {log : List Entry} {s s' : Stores} {q : Request}
    {calls : Calls Op Ans} {r : Py PaywallResult} (h : Balanced cap log s)
    (he : ProcessEffect G tick q calls s r s') :
    Balanced cap (log ++ [.processed q calls r s'.clock]) s' := by
  have hsame : ∀ {s₁ : Stores}, s₁.cap = s.cap → s₁.spent = s.spent → s₁.revoked = s.revoked →
      (∀ sub, (Entry.processed q calls r s₁.clock).settledAmount sub = 0) →
        Balanced cap (log ++ [.processed q calls r s₁.clock]) s₁ := by
    intro s₁ hc hs hr hamount
    refine ⟨hc.trans h.cap_eq, fun sub => ?_, fun sub => ?_, fun sub hk => ?_⟩
    · rw [settledTotal_concat, hamount, add_zero, hs, h.total]
    · rw [hs]
      exact h.within sub
    · rw [hr]
      exact h.killed sub (hk.of_concat.resolve_left nofun).1
  cases he with
  | declined hr => exact hsame rfl rfl rfl fun sub => hr.settledAmount sub q calls _
  | popped hr ht => exact hsame rfl rfl rfl fun sub => hr.settledAmount sub q calls _
  | challenged hcred hsub hallowed ht hlast =>
    exact hsame rfl rfl rfl fun sub => settledAmount_challenge _ _ sub q calls _
  | @settled pre nonce identity outcome entry t hg hpre hentry ht hcheck hreserve _ =>
    obtain ⟨-, hle⟩ := reserve_eq_ok.mp hreserve
    have hspent : ∀ sub, ((s.pop t nonce).record identity.sub q.paywall.settings.priceMicro).spent
        sub = s.spent sub + (Entry.processed q calls (.ok (.settled identity outcome))
          t).settledAmount sub := by
      intro sub
      by_cases hsub : identity.sub = sub
      · subst hsub
        simp [Stores.record, Stores.pop, Entry.settledAmount]
      · simp [Stores.record, Stores.pop, Entry.settledAmount, hsub,
          Function.update_of_ne (Ne.symm hsub)]
    refine ⟨h.cap_eq, fun sub => ?_, fun sub => ?_, fun sub hk => ?_⟩
    · rw [settledTotal_concat, h.total, hspent]
      rfl
    · by_cases hsub : identity.sub = sub
      · subst hsub
        rw [hspent, Entry.settledAmount, if_pos rfl, ← h.cap_eq]
        exact hle
      · rw [hspent, Entry.settledAmount, if_neg hsub, add_zero]
        exact h.within sub
    · exact h.killed sub (hk.of_concat.resolve_left nofun).1

/-- The books are balanced in every reachable state. -/
theorem Served.balanced {t : ℚ} {cap : Int} (hcap : 0 ≤ cap) {log : List Entry} {s : Stores}
    (h : Served G tick (.fresh t cap) log s) : Balanced cap log s := by
  induction h with
  | start =>
    refine ⟨rfl, fun sub => rfl, fun sub => hcap, fun sub hk => ?_⟩
    obtain ⟨pre, mid, heq, -⟩ := hk
    simp at heq
  | process h hp he ih => exact ih.process (process_effect hp he)
  | @revoke log s key h ih =>
    refine ⟨ih.cap_eq, fun sub => ?_, ih.within, fun sub hk => ?_⟩
    · rw [settledTotal_concat, ih.total]
      exact add_zero _
    · rcases hk.of_concat with heq | ⟨hk, -⟩
      · cases heq
        exact Finset.mem_insert_self _ _
      · exact Finset.mem_insert_of_mem (ih.killed sub hk)
  | @restore log s key h ih =>
    refine ⟨ih.cap_eq, fun sub => ?_, ih.within, fun sub hk => ?_⟩
    · rw [settledTotal_concat, ih.total]
      exact add_zero _
    · obtain ⟨hk, hne⟩ := hk.of_concat.resolve_left nofun
      refine Finset.mem_erase.mpr ⟨?_, ih.killed sub hk⟩
      rintro rfl
      exact hne rfl

/-- A result for an identity is given only while the identity is allowed. -/
theorem ProcessEffect.allowed {s s' : Stores} {q : Request} {calls : Calls Op Ans}
    {r : Py PaywallResult} {sub : Text} (he : ProcessEffect G tick q calls s r s')
    (hg : GrantedTo G q sub r) : sub ∉ s.revoked := by
  cases he with
  | declined hr => exact absurd hg (hr.not_granted q sub)
  | popped hr ht => exact absurd hg (hr.not_granted q sub)
  | @challenged token sub' nonce t hcred hsub hallowed ht hlast =>
    generalize buildPaymentRequirements q.paywall.settings q.resourceUrl = req at hg
    cases req with
    | error e => exact hg.elim
    | ok req =>
      obtain ⟨token', hcred', hsub'⟩ := hg
      cases hcred.symm.trans hcred'
      rw [hsub'.unique hsub]
      exact hallowed
  | settled hg' hpre hentry ht hcheck hreserve _ =>
    cases hg
    exact (reserve_eq_ok.mp hreserve).1

/-- Only a settlement changes what is recorded. -/
theorem ProcessEffect.spent_eq {s s' : Stores} {q : Request} {calls : Calls Op Ans}
    {r : Py PaywallResult} (he : ProcessEffect G tick q calls s r s') (hr : ¬ IsSettled r) :
    s'.spent = s.spent := by
  cases he with
  | declined _ => rfl
  | popped _ _ => rfl
  | challenged _ _ _ _ _ => rfl
  | settled _ _ _ _ _ _ _ => exact absurd trivial hr

/-- In every state a sequential run reaches, each identity's recorded spend is the sum of what
it settled and within the cap. The next request gives nothing to an identity that was revoked
and not restored since, and changes no recorded spend unless it settles. -/
theorem kill_switch_and_budget {t : ℚ} {cap : Int} (hcap : 0 ≤ cap) {log : List Entry} {s : Stores}
    (h : Served G tick (.fresh t cap) log s) :
    (∀ sub, settledTotal sub log = s.spent sub ∧ s.spent sub ≤ cap) ∧
    ∀ q calls r s', Fallible.Path (process G q) calls r → Evolves (handle G tick) s calls s' →
      (∀ sub, Killed sub log → ¬ GrantedTo G q sub r) ∧
      (¬ IsSettled r → s'.spent = s.spent) := by
  have hb := h.balanced hcap
  refine ⟨fun sub => ⟨hb.total sub, hb.within sub⟩, fun q calls r s' hp he => ?_⟩
  have heff := process_effect hp he
  exact ⟨fun sub hk hg => heff.allowed hg (hb.killed sub hk), heff.spent_eq⟩

/-! ## Paths from their parts -/

theorem path_verifyPresented {token key : Text} {payload : CredentialPayload} {now : Int}
    (hclaims : checkClaims G.py token now 60 = .ok payload)
    (hsig : checkIssuerSignature G.py token key = .ok ()) :
    Fallible.Path (verifyPresented G token)
      [⟨.now, now⟩, ⟨.resolveIssuerKey payload.iss, .ok key⟩,
        ⟨.checkIssuerAuthorizedForOrg payload.iss payload.org, .ok ()⟩]
      (.ok ⟨payload, key, token⟩) :=
  path_ask_bind.mpr ⟨now, _, rfl, Fallible.path_bind_ok.mpr ⟨[], _, payload, rfl,
    Fallible.path_ofExcept.mpr ⟨rfl, hclaims.symm⟩, Fallible.path_bind_ok.mpr ⟨[_], _, key, rfl,
      path_askPy.mpr ⟨.ok key, rfl, rfl⟩, Fallible.path_bind_ok.mpr ⟨[], _, (), rfl,
        Fallible.path_ofExcept.mpr ⟨rfl, hsig.symm⟩, Fallible.path_bind_ok.mpr ⟨[_], [], (), rfl,
          path_askPy.mpr ⟨.ok (), rfl, rfl⟩, Fallible.path_pure.mpr ⟨rfl, rfl⟩⟩⟩⟩⟩⟩

/-- A challenge, for a credential that verifies. -/
theorem path_challenge {q : Request} {token nonce : Text} {pre : Calls Op Ans}
    {credential : VerifiedCredential} {req : Py PaymentRequirements} (hx : q.xPayment = none)
    (hcred : q.credential = some token) (hne : token ≠ [])
    (hv : Fallible.Path (verifyPresented G token) pre (.ok credential))
    (hreq : buildPaymentRequirements q.paywall.settings q.resourceUrl = req) :
    Fallible.Path (process G q)
      (pre ++ [⟨.allowed credential.payload.sub, true⟩, ⟨.checkRevoked credential, .ok ()⟩,
        ⟨.issue q.paywall.settings.nonceTtlSeconds (some credential.payload.sub), nonce⟩])
      (req.map (.challenge · nonce)) := by
  obtain ⟨c, token, rfl⟩ := List.exists_cons_of_ne_nil hne
  rw [process, hx, hcred]
  refine Fallible.path_handling.mpr (.inr ⟨pre, _, credential, rfl, hv, ?_⟩)
  refine path_ask_bind.mpr ⟨true, _, rfl, ?_⟩
  rw [if_neg (by simp)]
  refine Fallible.path_handling.mpr (.inr ⟨[_], _, (), rfl, path_askPy.mpr ⟨.ok (), rfl, rfl⟩, ?_⟩)
  refine path_ask_bind.mpr ⟨nonce, [], rfl, ?_⟩
  cases req with
  | error e => exact Fallible.path_bind.mpr (.inl ⟨e, path_py.mpr ⟨rfl, hreq.symm⟩, rfl⟩)
  | ok req =>
    exact Fallible.path_bind_ok.mpr ⟨[], [], req, rfl, path_py.mpr ⟨rfl, hreq.symm⟩,
      Fallible.path_pure.mpr ⟨rfl, rfl⟩⟩

/-- The identity gate, with the default key of the subject and no trust store. -/
theorem path_runIdentityGate {w : Paywall} {token pop resourceUrl nonce : Text}
    {pre : Calls Op Ans} {credential : VerifiedCredential} {header claims : Dict} {key : Bytes}
    {t : ℚ} (hw : w.resolvesSubjectKey = false) (htrust : w.trustStore = none)
    (hv : Fallible.Path (verifyPresented G token) pre (.ok credential))
    (hkind : credential.payload.kind = orgAffiliation)
    (hheader : decodeHeader G.py pop = .ok header)
    (htyp : isStr (header.get? (text "typ")) popTyp = true)
    (hkey : defaultResolveSubjectKey G credential.payload.sub = .ok key)
    (hpop : verifyJwt G pop key resourceUrl 60 popClaims t = .ok claims)
    (hsub : isStr (claims.get? (text "sub")) credential.payload.sub = true)
    (hnonce : isStr (claims.get? (text "nonce")) nonce = true) :
    Fallible.Path (runIdentityGate G w token pop resourceUrl nonce)
      (pre ++ [⟨.checkRevoked credential, .ok ()⟩, ⟨.timestamp, t⟩])
      (.ok ⟨credential.payload.sub, credential.payload.org, credential⟩) := by
  refine Fallible.path_bind_ok.mpr ⟨pre, _, credential, rfl, path_reraise_ok.mpr hv, ?_⟩
  refine path_guard_ok.mpr ⟨by simp [defaultRequiredKinds, hkind], ?_⟩
  refine Fallible.path_bind_ok.mpr ⟨[_], _, (), rfl,
    path_reraise_ok.mpr (path_askPy.mpr ⟨.ok (), rfl, rfl⟩), ?_⟩
  refine path_guard_ok.mpr ⟨by simp [htrust], ?_⟩
  refine Fallible.path_bind_ok.mpr ⟨[_], [], (), rfl, ?_, Fallible.path_pure.mpr ⟨rfl, rfl⟩⟩
  refine Fallible.path_bind_ok.mpr ⟨[], _, header, rfl, path_py.mpr ⟨rfl, ?_⟩, ?_⟩
  · rw [hheader]
    rfl
  refine path_guard_ok.mpr ⟨by simp [htyp], ?_⟩
  refine Fallible.path_bind_ok.mpr ⟨[], _, key, rfl, ?_, ?_⟩
  · rw [Paywall.resolveSubjectKey, hw]
    exact path_py.mpr ⟨rfl, hkey.symm⟩
  refine path_ask_bind.mpr ⟨t, [], rfl, Fallible.path_bind_ok.mpr ⟨[], [], claims, rfl, ?_, ?_⟩⟩
  · refine path_py.mpr ⟨rfl, ?_⟩
    rw [hpop]
    rfl
  · exact path_guard_ok.mpr ⟨by simp [hsub], path_guard_ok.mpr ⟨by simp [hnonce],
      Fallible.path_pure.mpr ⟨rfl, rfl⟩⟩⟩

/-- A settlement, for an identity that passes the gate and pays what was quoted. -/
theorem path_settle {q : Request} {token pop nonce xPayment : Text}
    {pre : Calls Op Ans} {identity : ShadowIdentity} {req : PaymentRequirements}
    {terms : PaidTerms} {outcome : SettleOutcome} (hx : q.xPayment = some xPayment)
    (hcred : q.credential = some token) (hne : token ≠ []) (hpop : q.pop = some pop)
    (hpne : pop ≠ []) (hnonce : popNonce G pop = .ok nonce)
    (hgate : Fallible.Path (runIdentityGate G q.paywall token pop q.resourceUrl nonce) pre
      (.ok identity))
    (hreq : buildPaymentRequirements q.paywall.settings q.resourceUrl = .ok req)
    (hterms : parseXPayment G xPayment = .ok terms)
    (hpaid : enforceAgreedEqualsPaid terms req = .ok ()) (hs : outcome.success = true) :
    Fallible.Path (process G q)
      (pre ++ [⟨.consume nonce (some identity.sub), .ok ()⟩,
        ⟨.reserve identity.sub req.amount, .ok ()⟩, ⟨.settle xPayment req, .ok outcome⟩,
        ⟨.record identity.sub req.amount, ()⟩])
      (.ok (.settled identity outcome)) := by
  obtain ⟨c, token, rfl⟩ := List.exists_cons_of_ne_nil hne
  obtain ⟨p, pop, rfl⟩ := List.exists_cons_of_ne_nil hpne
  rw [process, hx, hcred, hpop]
  refine Fallible.path_handling.mpr (.inr ⟨[], _, nonce, rfl, path_py.mpr ⟨rfl, hnonce.symm⟩, ?_⟩)
  refine Fallible.path_handling.mpr (.inr ⟨pre, _, identity, rfl, hgate, ?_⟩)
  refine Fallible.path_handling.mpr (.inr ⟨[_], _, (), rfl, path_askPy.mpr ⟨.ok (), rfl, rfl⟩, ?_⟩)
  refine Fallible.path_bind_ok.mpr ⟨[], _, req, rfl, path_py.mpr ⟨rfl, hreq.symm⟩, ?_⟩
  refine Fallible.path_handling.mpr (.inr ⟨[], _, (), rfl, path_py.mpr ⟨rfl, ?_⟩, ?_⟩)
  · rw [hterms]
    exact hpaid.symm
  refine Fallible.path_handling.mpr (.inr ⟨[_], _, (), rfl, path_askPy.mpr ⟨.ok (), rfl, rfl⟩, ?_⟩)
  refine Fallible.path_handling.mpr
    (.inr ⟨[_], _, outcome, rfl, path_askPy.mpr ⟨.ok outcome, rfl, rfl⟩, ?_⟩)
  rw [if_neg (by simp [hs])]
  exact path_ask_bind.mpr ⟨(), [], rfl, Fallible.path_pure.mpr ⟨rfl, rfl⟩⟩

/-! ## Tickets -/

/-- The buyer: a subject that is its own key. -/
def buyer : Text := text "z6Mkon3Necd6NkkyfoGoHxid2znGc59LU3K7mubaRcFbLfLX"

def buyerKey : Bytes :=
  [138, 136, 227, 221, 116, 9, 241, 149, 253, 82, 219, 45, 60, 186, 93, 114, 202, 103, 9, 191, 29,
    148, 18, 27, 243, 116, 136, 1, 180, 15, 111, 92]

def vouchKeyText : Text := text "z6MkvRXNYcE7MMduynWTgeKbDaT1iijDSC8pZqXZc8rHPrf2"

def vouchKey : Bytes :=
  [237, 73, 40, 198, 40, 209, 194, 198, 234, 233, 3, 56, 144, 89, 149, 97, 41, 89, 39, 58, 92,
    99, 249, 54, 54, 193, 70, 20, 172, 135, 55, 209]

/-- The buyer's credential. -/
def buyerToken : Text :=
  text "eyJhbGciOiJFZERTQSIsInR5cCI6InNoYWRvd25ldC1jcmVkK2p3dCJ9.eyJpc3MiOiJiLmNvIiwic3V" ++
    text "iIjoiejZNa29uM05lY2Q2TmtreWZvR29IeGlkMnpuR2M1OUxVM0s3bXViYVJjRmJMZkxYIiwia2luZCI" ++
    text "6Im9yZ19hZmZpbGlhdGlvbiIsIm9yZyI6ImIuY28iLCJpYXQiOjEwMCwiZXhwIjoxMDAwLCJyZXYiOns" ++
    text "iZXBvY2giOiJlIiwiaWR4IjowfX0.zJyB-j6Ysfu7w2Msw2lQl4EmH1EgevqclQR7J-ge1ZB7XjnqEj7" ++
    text "Xu3EOxpi1kg4aIp4H1NdRPFaR3aYqwTOvBQ"

def buyerSignature : Bytes :=
  [204, 156, 129, 250, 62, 152, 177, 251, 187, 195, 99, 44, 195, 105, 80, 151, 129, 38, 31, 81,
    32, 122, 250, 156, 149, 4, 123, 39, 232, 30, 213, 144, 123, 94, 57, 234, 18, 62, 215, 187,
    113, 14, 198, 152, 181, 146, 14, 26, 34, 158, 7, 212, 215, 81, 60, 86, 145, 221, 166, 42,
    193, 51, 175, 5]

def buyerClaims : Dict :=
  let rev := (Dict.empty.set (text "epoch") (.str (text "e")) trivial).set
    (text "idx") (.num (.int 0)) trivial
  ((((((Dict.empty.set (text "iss") (.str (text "b.co")) trivial).set (text "sub")
    (.str buyer) trivial).set (text "kind") (.str orgAffiliation)
    trivial).set (text "org") (.str (text "b.co")) trivial).set
    (text "iat") (.num (.int 100)) trivial).set (text "exp") (.num (.int 1000)) trivial).set
    (text "rev") (.obj rev.members) rev.distinct

/-- Two nonces. -/
def ticketNonce (second : Bool) : Text :=
  text "AAAAAAAAAAAAAAAAAAAAA" ++ if second then text "Q" else text "A"

/-- The buyer's proof of possession over each of them. -/
def ticketPop (second : Bool) : Text :=
  text "eyJhbGciOiJFZERTQSIsImtpZCI6Ino2TWtvbjNOZWNkNk5ra3lmb0dvSHhpZDJ6bkdjNTlMVTNLN211" ++
    text "YmFSY0ZiTGZMWCIsInR5cCI6InNoYWRvd25ldC14NDAyLXBvcCtqd3QifQ.eyJzdWIiOiJ6Nk1rb24zT" ++
    text "mVjZDZOa2t5Zm9Hb0h4aWQyem5HYzU5TFUzSzdtdWJhUmNGYkxmTFgiLCJhdWQiOiJodHRwczovL3YuY" ++
    text "28vdCIsIm5vbmNlIjoiQUFBQUFBQUFBQUFBQUFBQUFBQUFB" ++
  if second then
    text "USIsImlhdCI6MjAwLCJleHAiOjMyMH0.O6Wd1D7oUgQBouvTyMjA7EoIA3Fu7SGtix83mL6-YG-jTD8x" ++
      text "Oa2QHz6ZnucEkdr76lZt-emzfBC12WU80IOyBA"
  else
    text "QSIsImlhdCI6MjAwLCJleHAiOjMyMH0.P1xTyNsCMRV0oyW--tK-6gKOei5ZGQBeSqrbUUP0oqHq8lir" ++
      text "4h4wFTvx55LhHAxtSodRiHoPrREqlm7YoCUhAA"

def ticketUrl : Text := text "https://v.co/t"

def ticketPopHeader : Dict :=
  ((Dict.empty.set (text "alg") (.str (text "EdDSA")) trivial).set (text "kid")
    (.str buyer) trivial).set (text "typ") (.str popTyp) trivial

def ticketPopClaims (second : Bool) : Dict :=
  ((((Dict.empty.set (text "sub") (.str buyer) (Json.distinct_str _)).set (text "aud")
    (.str ticketUrl) (Json.distinct_str _)).set (text "nonce") (.str (ticketNonce second))
    (Json.distinct_str _)).set (text "iat") (.num (.int 200)) trivial).set (text "exp")
    (.num (.int 320)) trivial

def ticketCredHeader : Dict :=
  (Dict.empty.set (text "alg") (.str (text "EdDSA")) trivial).set (text "typ")
    (.str credentialTyp) trivial

/-- PyJWT and Ed25519 as they are on these tokens. -/
def ticketRuntime : Runtime where
  py := { bareRuntime with
    getUnverifiedHeader := fun token =>
      if token = buyerToken then .ok ticketCredHeader
      else if token = ticketPop false ∨ token = ticketPop true then .ok ticketPopHeader
      else .error ⟨.pyJwtError, []⟩
    decodeUnverified := fun token =>
      if token = buyerToken then .ok buyerClaims
      else if token = ticketPop false then .ok (ticketPopClaims false)
      else if token = ticketPop true then .ok (ticketPopClaims true)
      else .error ⟨.pyJwtError, []⟩
    ed25519Verify := fun key sig msg =>
      decide (key = vouchKey ∧ sig = buyerSignature ∧
        msg = (buyerToken.take (buyerToken.length - 87)).map fun c => UInt8.ofNat c.val) }
  json := ⟨fun _ _ => .error ⟨.unicodeDecodeError, []⟩, fun _ => 0, fun _ => []⟩
  jwtDecode := fun token key audience leeway _ t =>
    if key = buyerKey ∧ audience = ticketUrl ∧ 200 ≤ t + leeway ∧ t < 320 + leeway then
      if token = ticketPop false then .ok (ticketPopClaims false)
      else if token = ticketPop true then .ok (ticketPopClaims true)
      else .error ⟨.pyJwtError, []⟩
    else .error ⟨.pyJwtError, []⟩
  decimalDigit _ := none
  later t ttl := t + ttl

def ticketPaywall : Paywall where
  settings := ⟨text "algorand:testnet", 10458941, some (text "VENUEADDR"), 5000, 300⟩
  trustStore := none
  resolvesSubjectKey := false

def ticketPayment : Text :=
  text "eyJuZXR3b3JrIjogImFsZ29yYW5kOnRlc3RuZXQiLCAiYXNzZXQiOiAiMTA0NTg5NDEiLCAiYW1vdW50IjogNT" ++
    text "AwMCwgInBheVRvIjogIlZFTlVFQUREUiIsICJwYXllciI6IG51bGx9"

def ticketTerms : PaidTerms :=
  ⟨text "algorand:testnet", text "10458941", 5000, text "VENUEADDR", .null⟩

def ticketRequirements : PaymentRequirements :=
  ⟨text "exact", text "algorand:testnet", text "10458941", 5000, text "VENUEADDR", ticketUrl, 60⟩

def buyerPayload : CredentialPayload :=
  ⟨text "b.co", buyer, orgAffiliation, text "b.co", 100, 1000, ⟨text "e", 0⟩, []⟩

def buyerCredential : VerifiedCredential := ⟨buyerPayload, vouchKeyText, buyerToken⟩

def buyerIdentity : ShadowIdentity := ⟨buyer, text "b.co", buyerCredential⟩

set_option maxRecDepth 2000 in
theorem ticket_checks :
    checkClaims ticketRuntime.py buyerToken 200 60 = .ok buyerPayload ∧
    checkIssuerSignature ticketRuntime.py buyerToken vouchKeyText = .ok () ∧
    buildPaymentRequirements ticketPaywall.settings ticketUrl =
      .ok ticketRequirements ∧
    defaultResolveSubjectKey ticketRuntime buyer = .ok buyerKey := by
  decide

set_option maxRecDepth 2000 in
theorem ticket_pop_checks (second : Bool) :
    popNonce ticketRuntime (ticketPop second) = .ok (ticketNonce second) ∧
    decodeHeader ticketRuntime.py (ticketPop second) = .ok ticketPopHeader ∧
    isStr (ticketPopHeader.get? (text "typ")) popTyp = true ∧
    verifyJwt ticketRuntime (ticketPop second) buyerKey ticketUrl 60 popClaims 200 =
      .ok (ticketPopClaims second) ∧
    isStr ((ticketPopClaims second).get? (text "sub")) buyer = true ∧
    isStr ((ticketPopClaims second).get? (text "nonce")) (ticketNonce second) = true := by
  cases second <;> decide +kernel

set_option maxRecDepth 2000 in
theorem ticket_payment : parseXPayment ticketRuntime ticketPayment = .ok ticketTerms ∧
    enforceAgreedEqualsPaid ticketTerms ticketRequirements = .ok () := by
  decide +kernel

/-- The buyer's two requests: for a challenge, and with a payment. -/
def ticketRequest : Request := ⟨ticketPaywall, ticketUrl, some buyerToken, none, none⟩

def ticketPayRequest (second : Bool) : Request :=
  ⟨ticketPaywall, ticketUrl, some buyerToken, some (ticketPop second), some ticketPayment⟩

def ticketOutcome : SettleOutcome :=
  ⟨true, some (text "STUBTXID"), none, text "algorand:testnet", none⟩

def ticketVerifying : Calls Op Ans :=
  [⟨.now, (200 : Int)⟩, ⟨.resolveIssuerKey (text "b.co"), .ok vouchKeyText⟩,
    ⟨.checkIssuerAuthorizedForOrg (text "b.co") (text "b.co"), .ok ()⟩]

def ticketChallengeCalls (second : Bool) : Calls Op Ans :=
  ticketVerifying ++ [⟨.allowed buyer, true⟩, ⟨.checkRevoked buyerCredential, .ok ()⟩,
    ⟨.issue 300 (some buyer), ticketNonce second⟩]

/-- The calls of the identity gate. -/
def ticketGateCalls : Calls Op Ans :=
  ticketVerifying ++ [⟨.checkRevoked buyerCredential, .ok ()⟩, ⟨.timestamp, (200 : ℚ)⟩]

def ticketPayCalls (second : Bool) : Calls Op Ans :=
  ticketGateCalls ++ [⟨.consume (ticketNonce second) (some buyer), .ok ()⟩,
    ⟨.reserve buyer 5000, .ok ()⟩, ⟨.settle ticketPayment ticketRequirements, .ok ticketOutcome⟩,
    ⟨.record buyer 5000, ()⟩]

theorem ticket_verified :
    Fallible.Path (verifyPresented ticketRuntime buyerToken) ticketVerifying
      (.ok buyerCredential) :=
  path_verifyPresented ticket_checks.1 ticket_checks.2.1

theorem ticket_challenge_path (second : Bool) :
    Fallible.Path (process ticketRuntime ticketRequest) (ticketChallengeCalls second)
      (.ok (.challenge ticketRequirements (ticketNonce second))) := by
  have hne : buyerToken ≠ [] := by decide +kernel
  exact path_challenge (q := ticketRequest) rfl rfl hne ticket_verified ticket_checks.2.2.1

theorem ticket_pay_path (second : Bool) :
    Fallible.Path (process ticketRuntime (ticketPayRequest second)) (ticketPayCalls second)
      (.ok (.settled buyerIdentity ticketOutcome)) := by
  obtain ⟨hnonce, hheader, htyp, hpop, hsub, hn⟩ := ticket_pop_checks second
  have hgate : Fallible.Path (runIdentityGate ticketRuntime ticketPaywall buyerToken
      (ticketPop second) ticketUrl (ticketNonce second)) ticketGateCalls (.ok buyerIdentity) :=
    path_runIdentityGate rfl rfl ticket_verified rfl hheader htyp ticket_checks.2.2.2 hpop hsub hn
  have hne : ticketPop second ≠ [] := by
    cases second <;> decide +kernel
  have hcred : buyerToken ≠ [] := by decide +kernel
  exact path_settle (q := ticketPayRequest second) rfl rfl hcred rfl hne hnonce hgate
    ticket_checks.2.2.1 ticket_payment.1 ticket_payment.2 rfl

/-- The stores once the first nonce is issued, and once it is settled. -/
def ticketIssued (cap : Int) : Stores :=
  (Stores.fresh 200 cap).issue ticketRuntime 200 300 (some buyer) (ticketNonce false)

def ticketSettled (cap : Int) : Stores :=
  ((ticketIssued cap).pop 200 (ticketNonce false)).record buyer 5000

theorem ticket_issued (cap : Int) : Evolves (handle ticketRuntime (· ≤ ·)) (.fresh 200 cap)
    (ticketChallengeCalls false) (ticketIssued cap) :=
  .cons rfl (.cons rfl (.cons rfl (.cons ⟨rfl, rfl⟩ (.cons rfl
    (.cons ⟨200, le_refl _, rfl⟩ (.nil _))))))

theorem ticket_settled : Evolves (handle ticketRuntime (· ≤ ·)) (ticketIssued 5000)
    (ticketPayCalls false) (ticketSettled 5000) := by
  have hentry : (ticketIssued 5000).entries (ticketNonce false) = some (some buyer, 500) := by
    simp [ticketIssued, Stores.issue, ticketRuntime]
    norm_num
  have hconsume : handle ticketRuntime (· ≤ ·) (ticketIssued 5000)
      (.consume (ticketNonce false) (some buyer)) (.ok ())
      ((ticketIssued 5000).pop 200 (ticketNonce false)) := by
    simp only [handle, hentry]
    refine ⟨200, le_refl _, ?_, rfl⟩
    rw [checkEntry, if_neg (by norm_num), if_neg (by simp)]
    rfl
  refine .cons rfl (.cons rfl (.cons rfl (.cons rfl (.cons rfl (.cons hconsume
    (.cons ⟨?_, rfl⟩ (.cons rfl (.cons rfl (.nil _)))))))))
  exact (reserve_eq_ok.mpr ⟨by simp [ticketIssued, Stores.issue, Stores.pop, Stores.fresh],
    by simp [ticketIssued, Stores.issue, Stores.pop, Stores.fresh]⟩).symm

def ticketLog : List Entry :=
  [.processed ticketRequest (ticketChallengeCalls false)
      (.ok (.challenge ticketRequirements (ticketNonce false))) 200,
    .processed (ticketPayRequest false) (ticketPayCalls false)
      (.ok (.settled buyerIdentity ticketOutcome)) 200]

theorem ticket_served :
    Served ticketRuntime (· ≤ ·) (.fresh 200 5000) ticketLog (ticketSettled 5000) :=
  .process (.process .start (ticket_challenge_path false) (ticket_issued 5000))
    (ticket_pay_path false) ticket_settled

/-- The buyer pays once and is then revoked. -/
theorem kill_switch_and_budget_ticket :
    (settledTotal buyer (ticketLog ++ [.revoked buyer]) = 5000 ∧
      ((ticketSettled 5000).revoke buyer).spent buyer ≤ 5000) ∧
    ∀ q calls r s', Fallible.Path (process ticketRuntime q) calls r →
      Evolves (handle ticketRuntime (· ≤ ·)) ((ticketSettled 5000).revoke buyer) calls s' →
        ¬ GrantedTo ticketRuntime q buyer r := by
  have h := kill_switch_and_budget (by norm_num) (ticket_served.revoke buyer)
  refine ⟨⟨?_, (h.1 buyer).2⟩, fun q calls r s' hp he => (h.2 q calls r s' hp he).1 buyer ?_⟩
  · rw [(h.1 buyer).1]
    simp [ticketSettled, ticketIssued, Stores.issue, Stores.pop, Stores.fresh, Stores.record,
      Stores.revoke]
  · exact ⟨ticketLog, [], rfl, nofun⟩

end Shadownet.X402
