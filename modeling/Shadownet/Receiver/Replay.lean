import Shadownet.Receiver.Runs

/-!
# No replay over time

An envelope can pass `verify_envelope` until `exp` plus the leeway. `Kept` says that the
replay cache holds its message id at least that long; every call and every passing of time
keeps it, because the cache retains each entry for longer than an envelope may live, leeway
included on both ends. `no_replay_over_time` follows by induction over runs in which the
clock stands still within each request.
-/

namespace Shadownet.Receiver

open Foundation Python

/-! ## What is retained -/

/-- An entry is retained for 600 seconds. -/
def Op.Retains : Op → Prop
  | .remember _ _ retention => retention = 600
  | _ => True

section
variable {G : Runtime} {cfg : ReceiverConfig} {body : Dict} {calls : List Call}
  {d : AcceptedDecision} {s s' : Stores}

theorem receive_retains : Fallible.Only Op.Retains (receive G cfg body) := by
  have hauth : Fallible.Only Op.Retains (authenticate G cfg body) :=
    authenticate_only.mono fun o ho => by cases o <;> trivial
  have hvalidate : ∀ env x, Fallible.Only Op.Retains (validateCreds G cfg env x) := by
    intro env x calls r hp c hc
    rcases validateCreds_path hp with ⟨hv, -⟩ | ⟨creds, rfl, -⟩
    · have ho := hv.ops c hc
      generalize c.1 = o at ho
      cases o <;> trivial
    · rw [List.mem_singleton.mp hc]
      trivial
  have hclassify : ∀ x record creds ctx,
      Fallible.Only Op.Retains (classify G cfg x record creds ctx) :=
    fun _ _ _ _ => classify_only.mono fun o ho => by cases o <;> trivial
  refine hauth.bind fun a => Fallible.Only.bind ?_ fun _ => ?_
  · refine (only_ask trivial).bind fun seen => (Fallible.only_throw _).ite ?_
    exact only_ask (o := .remember a.sender a.messageId 600) rfl
  · refine (hvalidate _ _).bind fun _ => (only_py _).bind fun _ => ?_
    exact (hclassify _ _ _ _).bind fun _ => Fallible.only_pure _

/-- An envelope that expires at `exp` under the key `k` of the replay cache: the cache holds
the key as long as the envelope can pass. -/
structure Kept (leeway : Int) (k : Text × Text) (exp : Int) (s : Stores) : Prop where
  window : exp + leeway < s.clock + 600
  entry : s.clock ≤ exp + leeway → ∃ v, s.replay k = some v ∧ exp + leeway < v

variable {leeway exp : Int} {k : Text × Text}

/-- Time may pass, and what else the stores hold may change. -/
theorem Kept.later (h : Kept leeway k exp s) (hclock : s.clock ≤ s'.clock)
    (hreplay : s'.replay = s.replay) : Kept leeway k exp s' where
  window := by have := h.window; omega
  entry hle := by
    rw [hreplay]
    exact h.entry (by omega)

/-- No call drops an entry whose envelope can still pass. -/
theorem Kept.handle {o : Op} {a : Ans o} (hret : o.Retains) (hs : handle Eq s o a s')
    (h : Kept leeway k exp s) : Kept leeway k exp s' := by
  have heff := handle_effect hs
  have hclock : s'.clock = s.clock := heff.clock.elim id Eq.symm
  rcases heff.replay with heq | heq | ⟨x, m, r, rfl, heq⟩
  · exact h.later hclock.ge heq
  · refine ⟨hclock ▸ h.window, fun hle => ?_⟩
    obtain ⟨v, hv, hlt⟩ := h.entry (hclock ▸ hle)
    have hlive : s'.clock < v := by omega
    exact ⟨v, by simp [heq, ReplayEntries.prune, hv, hlive], hlt⟩
  · obtain rfl : r = 600 := hret
    have hwindow : exp + leeway < s'.clock + 600 := hclock ▸ h.window
    refine ⟨hwindow, fun hle => ?_⟩
    by_cases hk : k = (x, m)
    · exact ⟨s'.clock + 600, by simp [heq, ReplayEntries.remember, hk], hwindow⟩
    · obtain ⟨v, hv, hlt⟩ := h.entry (hclock ▸ hle)
      exact ⟨v, by simp [heq, ReplayEntries.remember, hk, hv], hlt⟩

theorem Kept.evolves (h : Kept leeway k exp s) (he : Evolves (Receiver.handle Eq) s calls s')
    (hret : ∀ c ∈ calls, c.1.Retains) : Kept leeway k exp s' :=
  he.keeps (fun c hc _ _ hk hs => hk.handle (hret c hc) hs) h

theorem evolves_clock_eq (he : Evolves (handle Eq) s calls s') : s'.clock = s.clock :=
  he.keeps (I := fun u => u.clock = s.clock)
    (fun _ _ _ _ hs hh => ((handle_effect hh).clock.elim id Eq.symm).trans hs) rfl

/-! ## One envelope, one message id -/

theorem checkMessage_ok {env : EnvelopePayload} {message : Dict} {messageId : Text}
    (h : checkMessage G env message = .ok messageId) :
    computeMsgHash G message = .ok env.msgHash ∧
      message.get? (text "messageId") = some (.str messageId) := by
  simp only [checkMessage, bind_eq_ok, guard_eq_ok, not_not] at h
  obtain ⟨hash, hhash, rfl, h⟩ := h
  refine ⟨hhash, ?_⟩
  split at h
  · next hm =>
    cases h
    exact hm
  · cases h

theorem Accepted.verified (A : Accepted G cfg body calls d) :
    verifyEnvelope G A.preparsed.envelopeJws A.senderKey cfg.subject A.time cfg.leewaySeconds =
      .ok d.envelope := by
  simpa only [openEnvelope, reraise_eq_ok] using A.envelope_ok

/-- Two accepted requests with one envelope have the same sender, payload and message id:
the payload's hash fixes the message id. -/
theorem Accepted.agree {b₁ b₂ : Dict} {c₁ c₂ : List Call} {d₁ d₂ : AcceptedDecision}
    (hsha : Function.Injective G.sha256) (A₁ : Accepted G cfg b₁ c₁ d₁)
    (A₂ : Accepted G cfg b₂ c₂ d₂)
    (hjws : A₁.preparsed.envelopeJws = A₂.preparsed.envelopeJws) :
    d₁.sender = d₂.sender ∧ d₁.envelope = d₂.envelope ∧ A₁.messageId = A₂.messageId := by
  obtain ⟨-, claims₁, raw₁, hc₁, hraw₁, hs₁⟩ := preparse_parts A₁.preparse_ok
  obtain ⟨-, claims₂, raw₂, hc₂, hraw₂, hs₂⟩ := preparse_parts A₂.preparse_ok
  rw [hjws, hc₂] at hc₁
  cases hc₁
  rw [hraw₂] at hraw₁
  cases hraw₁
  have hsender : A₁.preparsed.sender = A₂.preparsed.sender :=
    Except.ok.inj (hs₁.symm.trans hs₂)
  have henv : d₁.envelope = d₂.envelope := by
    obtain ⟨⟨e₁, hd₁, hv₁⟩, -⟩ := verifyEnvelope_ok A₁.verified
    obtain ⟨⟨e₂, hd₂, hv₂⟩, -⟩ := verifyEnvelope_ok A₂.verified
    rw [hjws, hd₂] at hd₁
    cases hd₁
    exact Except.ok.inj (hv₁.symm.trans hv₂)
  obtain ⟨hhash₁, hid₁⟩ := checkMessage_ok A₁.message_ok
  obtain ⟨hhash₂, hid₂⟩ := checkMessage_ok A₂.message_ok
  rw [henv] at hhash₁
  have hsame := (computeMsgHash_agrees hsha hhash₁ hhash₂).1 (text "messageId")
    (by simp [hashedKeys])
  rw [hid₁, hid₂] at hsame
  have hid : A₁.messageId = A₂.messageId := by
    cases hsame with
    | some h => simpa [Json.Agrees] using h
  exact ⟨by rw [A₁.sender_eq, A₂.sender_eq, hsender], henv, hid⟩

/-! ## A request in a run -/

/-- The stores around the two calls of step 8, and the time of the request. -/
theorem Accepted.admitted (A : Accepted G cfg body calls d)
    (he : Evolves (handle Eq) s calls s') :
    A.time = s.clock ∧ ∃ s₁ s₂ s₃, s₁.clock = s.clock ∧ s₃.clock = s.clock ∧
      Evolves (handle Eq) s A.resolving s₁ ∧
      handle Eq s₁ (.seen d.sender A.messageId) false s₂ ∧
      handle Eq s₂ (.remember d.sender A.messageId 600) () s₃ ∧
      Evolves (handle Eq) s₃ (A.validating ++ A.classifying) s' := by
  have hcalls : Evolves (handle Eq) s (A.resolving ++ ⟨.now, A.time⟩ ::
      ⟨.seen d.sender A.messageId, false⟩ :: ⟨.remember d.sender A.messageId 600, ()⟩ ::
      (A.validating ++ A.classifying)) s' := A.calls_eq ▸ he
  obtain ⟨s₁, h₁, hrest⟩ := evolves_append.mp hcalls
  obtain ⟨u, ⟨ht, rfl⟩, hrest⟩ := evolves_cons.mp hrest
  obtain ⟨s₂, h₂, hrest⟩ := evolves_cons.mp hrest
  obtain ⟨s₃, h₃, h₄⟩ := evolves_cons.mp hrest
  have hc₁ : s₁.clock = s.clock := evolves_clock_eq h₁
  have hu : { s₁ with clock := A.time } = s₁ := by
    rw [← ht]
  rw [hu] at h₂
  have hc₂ : s₂.clock = s₁.clock := (handle_effect h₂).clock.elim id Eq.symm
  have hc₃ : s₃.clock = s₂.clock := (handle_effect h₃).clock.elim id Eq.symm
  exact ⟨ht.symm.trans hc₁, s₁, s₂, s₃, hc₁, by rw [hc₃, hc₂, hc₁], h₁, h₂, h₃, h₄⟩

/-- After its request the envelope's entry is kept. -/
theorem Accepted.kept (hp : Fallible.Path (receive G cfg body) calls (.ok d))
    (A : Accepted G cfg body calls d) (hl : cfg.leewaySeconds ≤ 60)
    (he : Evolves (handle Eq) s calls s') :
    Kept cfg.leewaySeconds (d.sender, A.messageId) d.envelope.exp s' := by
  obtain ⟨htime, s₁, s₂, s₃, -, hc₃, -, -, ⟨t, ht, rfl⟩, h₄⟩ := A.admitted he
  obtain ⟨-, hlife, -, hiat, -⟩ := verifyEnvelope_ok A.verified
  have hret : ∀ c ∈ A.validating ++ A.classifying, c.1.Retains := by
    intro c hc
    refine receive_retains _ _ hp c ?_
    rw [A.calls_eq]
    simp only [List.mem_append, List.mem_cons]
    exact .inr (.inr (.inr (.inr (List.mem_append.mp hc))))
  have hwindow : d.envelope.exp + cfg.leewaySeconds < t + 600 := by
    have hnow : t = s.clock := hc₃
    omega
  refine Kept.evolves ⟨hwindow, fun _ => ⟨t + 600, ?_, hwindow⟩⟩ h₄ hret
  simp [ReplayEntries.remember]

/-- A kept entry answers the replay cache while the envelope can pass. -/
theorem Kept.seen {sender messageId : Text} {b : Bool}
    (h : Kept leeway (sender, messageId) exp s) (hle : s.clock ≤ exp + leeway)
    (hs : Receiver.handle Eq s (.seen sender messageId) b s') : b = true := by
  obtain ⟨v, hv, hlt⟩ := h.entry hle
  obtain ⟨t, rfl, rfl, -⟩ := hs
  have hlive : s.clock < v := by omega
  simp [ReplayEntries.contains, ReplayEntries.prune, hv, hlive]

/-! ## Replay over runs -/

variable {h : List Happened} {t₀ : Int}

/-- In every state of a run the entries of all accepted requests are kept. -/
theorem Runs.kept (hl : cfg.leewaySeconds ≤ 60) (hr : Runs G cfg Eq t₀ h s)
    (hm : .received body calls (.ok d) ∈ h) (A : Accepted G cfg body calls d) :
    Kept cfg.leewaySeconds (d.sender, A.messageId) d.envelope.exp s := by
  induction hr with
  | start => cases hm
  | pass hr ht ih => exact (ih hm).later ht rfl
  | @receive h s s' b cs r hr hp he ih =>
    rcases List.mem_append.mp hm with hm | hm
    · exact (ih hm).evolves he (receive_retains _ _ hp)
    · cases List.mem_singleton.mp hm
      exact A.kept hp hl he
  | addContact hr ih | removeContact hr ih => exact (ih (by simpa using hm)).later le_rfl rfl
  | recordOutbound hr ht ih => exact (ih (by simpa using hm)).later ht.le rfl

/-- The envelope of an accepted request. -/
def acceptedJws (G : Runtime) : Happened → Option Text
  | .received body _ (.ok _) => (extractEnvelopeJws G body).toOption.map Prod.fst
  | _ => none

theorem acceptedJws_eq_some {e : Happened} {jws : Text} (he : acceptedJws G e = some jws) :
    ∃ body calls d message, e = .received body calls (.ok d) ∧
      extractEnvelopeJws G body = .ok (jws, message) := by
  unfold acceptedJws at he
  split at he
  · next body calls d =>
    cases hx : extractEnvelopeJws G body with
    | error e =>
      rw [hx] at he
      cases he
    | ok p =>
      rw [hx] at he
      cases he
      exact ⟨body, calls, d, p.2, rfl, hx⟩
  · cases he

theorem Accepted.jws_eq (A : Accepted G cfg body calls d) {jws : Text} {message : Dict}
    (hx : extractEnvelopeJws G body = .ok (jws, message)) :
    A.preparsed.envelopeJws = jws ∧ A.preparsed.message = message := by
  obtain ⟨hext, -⟩ := preparse_parts A.preparse_ok
  exact Prod.mk.inj (Except.ok.inj (hext.symm.trans hx))

/-- A request with the envelope of an earlier accepted request is not accepted. -/
theorem Runs.rejects_replay (hsha : Function.Injective G.sha256) (hl : cfg.leewaySeconds ≤ 60)
    (hr : Runs G cfg Eq t₀ h s) (hp : Fallible.Path (Receiver.receive G cfg body) calls (.ok d))
    (he : Evolves (handle Eq) s calls s') {jws : Text}
    (hjws : jws ∈ h.filterMap (acceptedJws G)) (message : Dict) :
    extractEnvelopeJws G body ≠ .ok (jws, message) := by
  intro hx
  obtain ⟨e, hmem, haccepted⟩ := List.mem_filterMap.mp hjws
  obtain ⟨b, cs, d', message', rfl, hx'⟩ := acceptedJws_eq_some haccepted
  obtain ⟨A⟩ := receive_ok hp
  obtain ⟨A'⟩ := receive_ok (hr.path hmem)
  have hsame : A'.preparsed.envelopeJws = A.preparsed.envelopeJws :=
    (A'.jws_eq hx').1.trans (A.jws_eq hx).1.symm
  obtain ⟨hsender, henv, hid⟩ := A'.agree hsha A hsame
  have hkept := hr.kept hl hmem A'
  rw [hsender, henv, hid] at hkept
  obtain ⟨htime, s₁, s₂, s₃, hc₁, -, hres, hseen, -⟩ := A.admitted he
  have hret : ∀ c ∈ A.resolving, c.1.Retains := by
    intro c hc
    refine receive_retains _ _ hp c ?_
    rw [A.calls_eq]
    exact List.mem_append_left _ hc
  obtain ⟨-, -, hexp, -⟩ := verifyEnvelope_ok A.verified
  have hpass : s₁.clock ≤ d.envelope.exp + cfg.leewaySeconds := by omega
  cases (hkept.evolves hres hret).seen hpass hseen

/-- Each envelope is accepted at most once, and while an accepted one can still pass, the
replay cache holds its message id. -/
theorem no_replay_over_time (hsha : Function.Injective G.sha256) (hl : cfg.leewaySeconds ≤ 60)
    (hr : Runs G cfg Eq t₀ h s) :
    (h.filterMap (acceptedJws G)).Nodup ∧
    ∀ body calls d jws message key env, .received body calls (.ok d) ∈ h →
      extractEnvelopeJws G body = .ok (jws, message) →
      verifyEnvelope G jws key cfg.subject s.clock cfg.leewaySeconds = .ok env →
      ∃ messageId v, message.get? (text "messageId") = some (.str messageId) ∧
        s.replay (d.sender, messageId) = some v ∧ s.clock < v := by
  constructor
  · induction hr with
    | start => exact List.nodup_nil
    | pass hr ht ih => exact ih
    | @receive h s s' b cs r hr hp he ih =>
      rw [List.filterMap_append]
      refine List.nodup_append.mpr ⟨ih, ?_, ?_⟩
      · rw [List.filterMap_cons, List.filterMap_nil]
        split <;> simp
      · rintro jws hold _ hnew rfl
        obtain ⟨e, he', haccepted⟩ := List.mem_filterMap.mp hnew
        obtain ⟨b', cs', d', message, hb, hx⟩ := acceptedJws_eq_some haccepted
        rw [List.mem_singleton.mp he'] at hb
        cases hb
        exact hr.rejects_replay hsha hl hp he hold message hx
    | addContact hr ih | removeContact hr ih | recordOutbound hr ht ih =>
      rw [List.filterMap_append]
      exact (List.append_nil _).symm ▸ ih
  · intro body calls d jws message key env hmem hx hv
    obtain ⟨A⟩ := receive_ok (hr.path hmem)
    obtain ⟨rfl, rfl⟩ := A.jws_eq hx
    have henv : env = d.envelope := by
      obtain ⟨⟨c₁, hc₁, hv₁⟩, -⟩ := verifyEnvelope_ok hv
      obtain ⟨⟨c₂, hc₂, hv₂⟩, -⟩ := verifyEnvelope_ok A.verified
      cases hc₁.symm.trans hc₂
      exact Except.ok.inj (hv₁.symm.trans hv₂)
    obtain ⟨-, -, hexp, -⟩ := verifyEnvelope_ok hv
    rw [henv] at hexp
    have hpass : s.clock ≤ d.envelope.exp + cfg.leewaySeconds := by omega
    obtain ⟨v, hentry, hlt⟩ := (hr.kept hl hmem A).entry hpass
    exact ⟨A.messageId, v, (checkMessage_ok A.message_ok).2, hentry, by omega⟩

end

/-- The request of `hello_path`, sent again, is refused by the replay cache. -/
theorem hello_again : ∃ e s,
    Fallible.Path (receive contactRuntime contactConfig helloBody)
      (helloResolving ++ [⟨.now, (200 : Int)⟩] ++ [⟨.seen (text "a@b.co") (text "m1"), true⟩])
      (.error e) ∧
    Evolves (handle Eq) helloAfter
      (helloResolving ++ [⟨.now, (200 : Int)⟩] ++ [⟨.seen (text "a@b.co") (text "m1"), true⟩])
      s := by
  have hseen : true = (helloAfter.replay.prune 200).contains (text "a@b.co") (text "m1") := by
    simp [helloAfter, ReplayEntries.prune, ReplayEntries.remember, ReplayEntries.contains]
  have hrefused : ∃ e, Fallible.Path (admitMessage contactRuntime (text "a@b.co") (text "m1"))
      [⟨.seen (text "a@b.co") (text "m1"), true⟩] (.error e) :=
    ⟨_, Fallible.path_bind.mpr (.inr ⟨[_], [], true, rfl, path_ask.mpr ⟨true, rfl, rfl⟩,
      Fallible.path_throw.mpr ⟨rfl, rfl⟩⟩)⟩
  obtain ⟨e, hrefused⟩ := hrefused
  have hstores : Evolves (handle Eq) helloAfter
      (helloResolving ++ [⟨.now, (200 : Int)⟩] ++ [⟨.seen (text "a@b.co") (text "m1"), true⟩])
      { helloAfter with replay := helloAfter.replay.prune 200 } :=
    .cons rfl (.cons rfl (.cons ⟨rfl, rfl⟩ (.cons ⟨200, rfl, hseen, rfl⟩ (.nil _))))
  exact ⟨e, _, Fallible.path_bind.mpr (.inr ⟨_, _, _, rfl, hello_authenticated,
    Fallible.path_bind.mpr (.inl ⟨e, hrefused, rfl⟩)⟩), hstores⟩

theorem no_replay_over_time_hello : ∃ h s, Runs contactRuntime contactConfig Eq 200 h s ∧
    (∃ calls e, h = [.contactAdded (text "a@b.co"), .received helloBody helloCalls
      (.ok helloDecision), .received helloBody calls (.error e)]) ∧
    (h.filterMap (acceptedJws contactRuntime)).Nodup := by
  obtain ⟨e, s, hp, he⟩ := hello_again
  have hr₁ : Runs contactRuntime contactConfig Eq 200 [.contactAdded (text "a@b.co"),
      .received helloBody helloCalls (.ok helloDecision)] helloAfter :=
    .receive (.addContact .start) hello_path (hello_evolves fun _ => rfl)
  have hr₂ := hr₁.receive hp he
  have hsha : Function.Injective contactRuntime.sha256 := helloRuntime_sha256
  exact ⟨_, s, hr₂, ⟨_, e, rfl⟩, (no_replay_over_time hsha (by decide) hr₂).1⟩

end Shadownet.Receiver
