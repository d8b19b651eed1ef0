import Shadownet.Receiver.Replay

/-!
# Replay under concurrency

`AsyncReceiverPipeline.receive` awaits `seen` and `remember` one after the other, so that
another request may run in between. `concurrent_replay` are two requests with one message
id that are both accepted. `no_concurrent_replay` says that nothing else goes wrong: when
no request asks for a message id while another one is between its two calls, at most one is
accepted. It holds for every store whose two operations are atomic and keep what they are
told (`RemembersReplays`); `inMemory_remembers` is the in-memory store at a fixed clock.
-/

namespace Shadownet.Receiver

open Foundation Python

/-! ## The stores -/

/-- A store that answers `seen` with true once a message id was remembered. `Known` is what
it knows in a state, `env` what happens to it between the calls. -/
structure RemembersReplays {σ : Type} (handle : σ → (o : Op) → Ans o → σ → Prop)
    (env : σ → σ → Prop) (Known : σ → Text → Text → Prop) : Prop where
  remember : ∀ s s' x m, handle s (.remember x m 600) () s' → Known s' x m
  keeps : ∀ s s' o a x m, o.Retains → handle s o a s' → Known s x m → Known s' x m
  env : ∀ s s' x m, env s s' → Known s x m → Known s' x m
  seen : ∀ s s' x m b, handle s (.seen x m) b s' → Known s x m → b = true

/-- The entry is live at the time of the clock. -/
def Stores.Knows (s : Stores) (x m : Text) : Prop := Kept 0 (x, m) s.clock s

/-- What the owner may do while requests are running: anything but the replay cache. -/
def OwnerStep (s s' : Stores) : Prop := s'.replay = s.replay ∧ s'.clock = s.clock

theorem inMemory_remembers : RemembersReplays (handle Eq) OwnerStep Stores.Knows where
  remember s s' x m hs := by
    obtain ⟨t, -, rfl⟩ := hs
    refine ⟨by simp, fun _ => ⟨t + 600, ?_, by simp⟩⟩
    simp [ReplayEntries.remember]
  keeps s s' o a x m hret hs hk := by
    have hclock : s'.clock = s.clock := (handle_effect hs).clock.elim id Eq.symm
    rw [Stores.Knows, hclock]
    exact Kept.handle hret hs hk
  env s s' x m he hk := by
    rw [Stores.Knows, he.2]
    exact hk.later he.2.ge he.1
  seen s s' x m b hs hk := hk.seen (by simp) hs

/-! ## Requests -/

/-- The sender and the message id of a request. -/
def requestKey (G : Runtime) (body : Dict) : Option (Text × Text) := do
  let (jws, message) ← (extractEnvelopeJws G body).toOption
  let claims ← (decodeUnverifiedClaims G jws).toOption
  match claims.get? (text "from"), message.get? (text "messageId") with
  | some (.str raw), some (.str messageId) =>
    (canonicalizeIdentifier G raw).toOption.map (·, messageId)
  | _, _ => none

theorem Accepted.requestKey_eq {G : Runtime} {cfg : ReceiverConfig} {body : Dict}
    {calls : List Call} {d : AcceptedDecision} (A : Accepted G cfg body calls d) :
    requestKey G body = some (d.sender, A.messageId) := by
  obtain ⟨hext, claims, raw, hclaims, hfrom, hsender⟩ := preparse_parts A.preparse_ok
  obtain ⟨-, hid⟩ := checkMessage_ok A.message_ok
  simp [requestKey, hext, hclaims, hfrom, hid, hsender, Except.toOption, A.sender_eq]

/-- An accepted request was told that its message id is new. -/
theorem Accepted.seen_mem {G : Runtime} {cfg : ReceiverConfig} {body : Dict}
    {calls : List Call} {d : AcceptedDecision} (A : Accepted G cfg body calls d) :
    ⟨.seen d.sender A.messageId, false⟩ ∈ calls :=
  Eq.subst (motive := fun l => ⟨.seen d.sender A.messageId, false⟩ ∈ l) A.calls_eq.symm (by simp)

theorem nonempty_ans (o : Op) : Nonempty (Ans o) := by
  cases o with
  | now => exact ⟨(0 : Int)⟩
  | providerLookup | fetchAgentCard | revocationCheck => exact ⟨.error ⟨.other, []⟩⟩
  | seen | isContact | hasRecentOutbound => exact ⟨false⟩
  | remember | cache | addContact => exact ⟨()⟩
  | forSender => exact ⟨[]⟩

/-! ## Runs -/

section
variable {ι σ : Type} [DecidableEq ι] {handle : σ → (o : Op) → Ans o → σ → Prop}
  {env : σ → σ → Prop} {Known : σ → Text → Text → Prop} {G : Runtime} {cfg : ReceiverConfig}
  {bodies : ι → Dict} {s₀ s : σ} {tr : List (Event ι Op Ans)}
  {pool : ι → Prog Op Ans (Py AcceptedDecision)}

/-- No request asks for a message id while another one was told that it is new and has not
remembered it yet. -/
def NoOverlap (tr : List (Event ι Op Ans)) (e : Event ι Op Ans) : Prop :=
  ∀ x m j, e.op = .seen x m → j ≠ e.thread → ⟨j, .seen x m, false⟩ ∈ tr →
    ⟨j, .remember x m 600, ()⟩ ∈ tr

/-- Everything a request calls retains its entries long enough. -/
theorem Run.retains (hr : Run handle env s₀ (fun i => (receive G cfg (bodies i)).run) tr s pool)
    {i : ι} {o : Op} {k : Ans o → Prog Op Ans (Py AcceptedDecision)}
    (hc : pool i = .call o k) : o.Retains := by
  obtain ⟨a⟩ := nonempty_ans o
  obtain ⟨rest, r, hrest⟩ := Prog.exists_path nonempty_ans (k a)
  have hcall : Prog.Path (pool i) (⟨o, a⟩ :: rest) r := by
    rw [hc]
    exact .call o k a rest r hrest
  exact receive_retains _ _ (hr.path hcall) ⟨o, a⟩ (by simp)

/-- What is remembered is known, and at most one request is told that an id is new. -/
structure OnceNew (Known : σ → Text → Text → Prop) (tr : List (Event ι Op Ans)) (s : σ) :
    Prop where
  known : ∀ i x m, ⟨i, .remember x m 600, ()⟩ ∈ tr → Known s x m
  once : ∀ i j x m, ⟨i, .seen x m, false⟩ ∈ tr → ⟨j, .seen x m, false⟩ ∈ tr → i = j

theorem onceNew_run (law : RemembersReplays handle env Known)
    (hr : Run handle env s₀ (fun i => (receive G cfg (bodies i)).run) tr s pool)
    (hguard : Admits NoOverlap tr) : OnceNew Known tr s := by
  induction hr with
  | start => exact ⟨by simp, by simp⟩
  | env hr he ih =>
    obtain ⟨hknown, honce⟩ := ih hguard
    exact ⟨fun i x m hm => law.env _ _ x m he (hknown i x m hm), honce⟩
  | @step tr s s' pool i o k a hr hc hs ih =>
    obtain ⟨hknown, honce⟩ := ih hguard.prefix
    have hret : o.Retains := Run.retains hr hc
    refine ⟨fun j x m hm => ?_, ?_⟩
    · rcases List.mem_append.mp hm with hm | hm
      · exact law.keeps _ _ _ _ x m hret hs (hknown j x m hm)
      · cases List.mem_singleton.mp hm
        exact law.remember _ _ x m hs
    · -- Two requests told so: one of them by this very call, so the other has remembered.
      have hnew : ∀ j x m, ⟨j, .seen x m, false⟩ ∈ tr →
          (⟨i, .seen x m, false⟩ : Event ι Op Ans) = ⟨i, o, a⟩ → j = i := by
        intro j x m hj heq
        by_contra hne
        cases heq
        have hmem := hguard.last x m j rfl hne hj
        cases law.seen _ _ x m _ hs (hknown j x m hmem)
      intro j j' x m hj hj'
      rcases List.mem_append.mp hj with hold | hlast <;>
        rcases List.mem_append.mp hj' with hold' | hlast'
      · exact honce j j' x m hold hold'
      · have heq := List.mem_singleton.mp hlast'
        obtain rfl : j' = i := congrArg Event.thread heq
        exact hnew j x m hold heq
      · have heq := List.mem_singleton.mp hlast
        obtain rfl : j = i := congrArg Event.thread heq
        exact (hnew j' x m hold' heq).symm
      · exact (congrArg Event.thread (List.mem_singleton.mp hlast)).trans
          (congrArg Event.thread (List.mem_singleton.mp hlast')).symm

/-- Of any number of concurrent requests with one sender and message id at most one gets
past the replay cache, and when one is accepted the others end in an error. -/
theorem no_concurrent_replay (law : RemembersReplays handle env Known)
    (hr : Run handle env s₀ (fun i => (receive G cfg (bodies i)).run) tr s pool)
    (hguard : Admits NoOverlap tr) :
    (∀ i j x m, ⟨i, .seen x m, false⟩ ∈ tr → ⟨j, .seen x m, false⟩ ∈ tr → i = j) ∧
    ∀ i j d r, pool i = .ret (.ok d) → pool j = .ret r →
      requestKey G (bodies j) = requestKey G (bodies i) → j ≠ i → ∃ e, r = .error e := by
  have honce := (onceNew_run law hr hguard).once
  have haccepted : ∀ i d, pool i = .ret (.ok d) →
      Nonempty (Accepted G cfg (bodies i) (callsOf i tr) d) := by
    intro i d hi
    have hpath : Prog.Path (pool i) [] (.ok d) := by
      rw [hi]
      exact .ret _
    have hcalls := hr.path hpath
    rw [List.append_nil] at hcalls
    exact receive_ok hcalls
  refine ⟨honce, fun i j d r hi hj hkey hne => ?_⟩
  cases r with
  | error e => exact ⟨e, rfl⟩
  | ok d' =>
    obtain ⟨A⟩ := haccepted i d hi
    obtain ⟨A'⟩ := haccepted j d' hj
    rw [A.requestKey_eq, A'.requestKey_eq, Option.some.injEq, Prod.mk.injEq] at hkey
    have hseen := mem_callsOf.mp A.seen_mem
    have hseen' := mem_callsOf.mp A'.seen_mem
    rw [hkey.1, hkey.2] at hseen'
    exact absurd (honce j i _ _ hseen' hseen) hne

end

/-! ## Two requests at once -/

/-- The calls up to `seen`, and the rest. -/
def helloAsking : List Call :=
  helloResolving ++ [⟨.now, (200 : Int)⟩, ⟨.seen (text "a@b.co") (text "m1"), false⟩]

def helloAdmitted : List Call :=
  ⟨.remember (text "a@b.co") (text "m1") 600, ()⟩ :: helloClassifying

theorem hello_asking : Evolves (handle Eq) helloStores helloAsking helloStores :=
  .cons rfl (.cons rfl (.cons ⟨rfl, rfl⟩ (.cons ⟨200, rfl, rfl, rfl⟩ (.nil _))))

/-- The rest may run from any state that knows the contact. -/
theorem hello_rest {s : Stores} (hclock : s.clock = 200) (hcreds : s.credentials = fun _ => [])
    (hcontact : text "a@b.co" ∈ s.contacts) :
    ∃ s', Evolves (handle Eq) s helloAdmitted s' ∧ s'.clock = 200 ∧
      (s'.credentials = fun _ => []) ∧ text "a@b.co" ∈ s'.contacts := by
  refine ⟨_, .cons ⟨200, hclock, rfl⟩ (.cons ⟨200, rfl, ?_, rfl⟩ (.cons ⟨?_, rfl⟩ (.nil _))), rfl,
    ?_, hcontact⟩
  · simp [Stores.live, hcreds]
  · simp [Stores.keepLive, hcontact]
  · simp [Stores.keepLive, Stores.live, hcreds]

/-- Two concurrent requests with one message id, both accepted: both ask before either
remembers. -/
theorem concurrent_replay : ∃ tr s pool,
    Run (handle Eq) OwnerStep helloStores
      (fun _ : Bool => (receive contactRuntime contactConfig helloBody).run) tr s pool ∧
    ∀ i, pool i = .ret (.ok helloDecision) := by
  obtain ⟨s₁, he₁, hclock, hcreds, hcontact⟩ :=
    hello_rest (s := helloStores) rfl rfl (by simp [helloStores, Stores.addContact])
  obtain ⟨s₂, he₂, -⟩ := hello_rest hclock hcreds hcontact
  have hstart : Run (handle Eq) OwnerStep helloStores
      (fun _ : Bool => (receive contactRuntime contactConfig helloBody).run) [] helloStores _ :=
    .start
  have hpath : Prog.Path (receive contactRuntime contactConfig helloBody).run
      (helloAsking ++ helloAdmitted) (.ok helloDecision) := hello_path
  obtain ⟨pool, hr, htrue, hfalse⟩ := hstart.overlap (i := true) (j := false) (by decide) hpath
    hpath hello_asking hello_asking he₁ he₂
  refine ⟨_, s₂, pool, hr, fun i => ?_⟩
  cases i with
  | true => exact htrue
  | false => exact hfalse

/-- Two requests one after the other do not overlap, when the first has done both calls. -/
theorem noOverlap_sequential {ι : Type} {i j : ι} {c₁ c₂ : List Call}
    (hdone : ∀ x m, ⟨.seen x m, false⟩ ∈ c₁ → ⟨.remember x m 600, ()⟩ ∈ c₁) :
    Admits NoOverlap ((c₁.map fun c => (⟨i, c.1, c.2⟩ : Event ι Op Ans)) ++
      c₂.map fun c => ⟨j, c.1, c.2⟩) := by
  have hthread : ∀ {k l : ι} {c : List Call} {x m : Text},
      (⟨l, .seen x m, false⟩ : Event ι Op Ans) ∈ c.map (fun c => ⟨k, c.1, c.2⟩) →
        l = k ∧ ⟨.seen x m, false⟩ ∈ c := by
    rintro k l c x m hm
    obtain ⟨⟨o, a⟩, hc, heq⟩ := List.mem_map.mp hm
    cases heq
    exact ⟨rfl, hc⟩
  intro pre e post heq x m l hop hl hseen
  rcases List.append_eq_append_iff.mp heq with ⟨mid, rfl, hc₂⟩ | ⟨mid, hc₁, hrest⟩
  · -- The call is the second request's.
    have he : e.thread = j := by
      have hmem : e ∈ c₂.map fun c => (⟨j, c.1, c.2⟩ : Event ι Op Ans) := by simp [hc₂]
      obtain ⟨c, -, rfl⟩ := List.mem_map.mp hmem
      rfl
    rcases List.mem_append.mp hseen with hm | hm
    · obtain ⟨rfl, hm'⟩ := hthread hm
      exact List.mem_append_left _ (List.mem_map.mpr ⟨_, hdone x m hm', rfl⟩)
    · have hin : (⟨l, .seen x m, false⟩ : Event ι Op Ans) ∈ c₂.map fun c => ⟨j, c.1, c.2⟩ := by
        rw [hc₂]
        exact List.mem_append_left _ hm
      exact absurd ((hthread hin).1.trans he.symm) hl
  · have hin : (⟨l, .seen x m, false⟩ : Event ι Op Ans) ∈ c₁.map fun c => ⟨i, c.1, c.2⟩ := by
      rw [hc₁]
      exact List.mem_append_left _ hseen
    cases mid with
    | nil =>
      rw [List.append_nil] at hc₁
      obtain ⟨rfl, hm⟩ := hthread hin
      rw [← hc₁]
      exact List.mem_map.mpr ⟨_, hdone x m hm, rfl⟩
    | cons f mid =>
      -- The call is the first request's, and so are all before it.
      obtain rfl : e = f := (List.cons.inj hrest).1
      have hmem : e ∈ c₁.map fun c => (⟨i, c.1, c.2⟩ : Event ι Op Ans) := by simp [hc₁]
      obtain ⟨c, -, rfl⟩ := List.mem_map.mp hmem
      exact absurd (hthread hin).1 hl

theorem no_concurrent_replay_hello : ∃ tr s pool,
    Run (handle Eq) OwnerStep helloStores
      (fun _ : Bool => (receive contactRuntime contactConfig helloBody).run) tr s pool ∧
    pool true = .ret (.ok helloDecision) ∧ ∃ r, pool false = .ret r ∧ ∃ e, r = .error e := by
  obtain ⟨e, s, hagain, hagainStores⟩ := hello_again
  have hfirst : Prog.Path (receive contactRuntime contactConfig helloBody).run (helloCalls ++ [])
      (.ok helloDecision) := by
    rw [List.append_nil]
    exact hello_path
  obtain ⟨p, hf, hp⟩ := (hello_evolves fun _ => rfl).follows hfirst
  cases hp
  have hsecond : Prog.Path (receive contactRuntime contactConfig helloBody).run
      (helloResolving ++ [⟨.now, (200 : Int)⟩] ++ [⟨.seen (text "a@b.co") (text "m1"), true⟩] ++ [])
      (.error e) := by
    rw [List.append_nil]
    exact hagain
  obtain ⟨q, hg, hq⟩ := hagainStores.follows hsecond
  cases hq
  have hstart : Run (handle Eq) OwnerStep helloStores
      (fun _ : Bool => (receive contactRuntime contactConfig helloBody).run) [] helloStores _ :=
    .start
  have h₁ := hstart.follow (i := true) rfl hf
  have h₂ := h₁.follow (i := false) (Function.update_of_ne (by decide) _ _) hg
  have hguard : ∀ x m, (⟨.seen x m, false⟩ : Call) ∈ helloCalls →
      ⟨.remember x m 600, ()⟩ ∈ helloCalls := by
    intro x m hm
    simp only [helloCalls, helloResolving, helloClassifying, List.cons_append, List.nil_append,
      List.mem_cons, Sigma.mk.injEq, reduceCtorEq, false_and, false_or, List.not_mem_nil,
      or_false, Op.seen.injEq] at hm
    obtain ⟨⟨rfl, rfl⟩, -⟩ := hm
    simp [helloCalls]
  have hrefused := (no_concurrent_replay inMemory_remembers h₂
    (noOverlap_sequential hguard)).2 true false helloDecision (.error e)
    (by simp [Function.update]) (by simp [Function.update]) rfl (by decide)
  exact ⟨_, s, _, h₂, by simp [Function.update], .error e, by simp [Function.update], hrefused⟩

end Shadownet.Receiver
