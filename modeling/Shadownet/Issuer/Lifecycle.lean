import Shadownet.Issuer.Ceremony

/-!
# The life of a ceremony

Runs of the issuer with the queue hook, one call at a time: POSTs, `UpdatePendingStatus` and
the operator's calls of the store. The store updates a status whatever it was, the handler
looks for a credential before it asks the hook, and the hook does not look at the clock. So a
rejection is final as long as the operator keeps it so (`rejection_terminal`), and a ceremony
ends at its expiry as long as nobody asks again with a CSR that outlives it (`minted_on_time`).
-/

namespace Shadownet.Issuer

open Foundation Go

/-! ## The runs -/

inductive IssuerOp where
  | post (body : Option Bytes)
  | updatePendingStatus (handleID : Bytes) (status : PendingStatus) (reason : Bytes) (t : Time)
  | admin (c : Call)

/-- What a call returns; a POST, the calls it made and its response. -/
@[reducible] def IssuerAns : IssuerOp → Type
  | .post _ => Calls QueueOp QueueAns × Response
  | .updatePendingStatus _ _ _ _ => Except StoreError Unit
  | .admin _ => Answer

section
variable (G : Runtime) (V : Verifier) (cfg : HandlerConfig) (h : Hook)

inductive IssuerStep : QueueState → (o : IssuerOp) → IssuerAns o → QueueState → Prop
  | post {w w' : QueueState} (body : Option Bytes) (calls : Calls QueueOp QueueAns)
      (r : Response) (hp : Prog.Path (serveQueued G V cfg h body) calls r)
      (he : Evolves QueueFaulty w calls w') : IssuerStep w (.post body) (calls, r) w'
  | update (w : QueueState) (handleID : Bytes) (status : PendingStatus) (reason : Bytes)
      (t now : Time) :
      IssuerStep w (.updatePendingStatus handleID status reason t)
        (w.commit (updatePendingStatus w.pendings handleID status reason t now)).1
        (w.commit (updatePendingStatus w.pendings handleID status reason t now)).2
  | admin (w : QueueState) (c : Call) :
      IssuerStep w (.admin c) (w.store.step c).2 { w with store := (w.store.step c).1 }

/-- The POST is a valid one for the key: at its clock reading the CSR is accepted, its subject
has a key, and the issuer is authorized. -/
def Accepted (body : Option Bytes) (idem : Bytes) (calls : Calls QueueOp QueueAns) : Prop :=
  ∃ t parsed pub rest, calls = ⟨.issue .now, t⟩ :: rest ∧ Verified G V cfg body t parsed idem ∧
    subjectPubFromCSR G parsed = .ok pub ∧
    ∀ iss org e, ⟨.issue (.authorize iss org), .error e⟩ ∉ rest

/-- The body is a CSR with the given idempotency key. -/
def Requests (body : Option Bytes) (idem : Bytes) : Prop :=
  ∃ t parsed, Verified G V cfg body t parsed idem

end

/-- The state of a run: the tables keep their constraints. -/
structure Desk (w : QueueState) : Prop where
  sound : w.store.Sound
  keys : (w.pendings.map Pending.idempotencyKey).Nodup
  handles : (w.pendings.map Pending.handleID).Nodup

variable {G : Runtime} {V : Verifier} {cfg : HandlerConfig} {h : Hook} {body : Option Bytes}
  {w w' : QueueState}

theorem updatePendingStatus_ok {rows rows' : List Pending} {handleID : Bytes}
    {status : PendingStatus} {reason : Bytes} {t now : Time}
    (hu : updatePendingStatus rows handleID status reason t now = .ok rows') :
    rows' = rows.map fun r =>
      if r.handleID = handleID then
        { r with status, reason, updatedAt := Time.ofUnix (t.orNow now).unix }
      else r := by
  unfold updatePendingStatus at hu
  split at hu
  · exact (pure_eq_ok.mp hu).symm
  · cases hu

/-- A change of status keeps the handles and the keys. -/
theorem updatePendingStatus_fields {rows rows' : List Pending} {handleID : Bytes}
    {status : PendingStatus} {reason : Bytes} {t now : Time}
    (hu : updatePendingStatus rows handleID status reason t now = .ok rows') :
    rows'.map Pending.idempotencyKey = rows.map Pending.idempotencyKey ∧
      rows'.map Pending.handleID = rows.map Pending.handleID := by
  rw [updatePendingStatus_ok hu, List.map_map, List.map_map]
  constructor <;> refine List.map_congr_left fun p _ => ?_ <;> simp only [Function.comp_apply] <;>
    split <;> rfl

theorem Desk.append {p : Pending} (hw : Desk w) (hs : w'.store.Sound)
    (hp : w'.pendings = w.pendings ++ [p])
    (hk : p.idempotencyKey ∉ w.pendings.map Pending.idempotencyKey)
    (hh : p.handleID ∉ w.pendings.map Pending.handleID) : Desk w' := by
  refine ⟨hs, ?_, ?_⟩
  · rw [hp, List.map_append, List.map_singleton, ← List.concat_eq_append]
    exact hw.keys.concat hk
  · rw [hp, List.map_append, List.map_singleton, ← List.concat_eq_append]
    exact hw.handles.concat hh

theorem Desk.step {o : IssuerOp} {a : IssuerAns o} (hw : Desk w)
    (hs : IssuerStep G V cfg h w o a w') : Desk w' := by
  cases hs with
  | post body calls r hp he =>
    have heffect := post_effect hw.sound (path_serveQueued_ways hp) he
    rcases heffect.pendings with hsame | ⟨p, hp, hk, hh⟩
    · exact ⟨heffect.sound, hsame ▸ hw.keys, hsame ▸ hw.handles⟩
    · exact hw.append heffect.sound hp hk hh
  | update handleID status reason t now =>
    cases hu : updatePendingStatus w.pendings handleID status reason t now with
    | error e => exact hw
    | ok rows =>
      obtain ⟨hkeys, hhandles⟩ := updatePendingStatus_fields hu
      exact ⟨hw.sound, hkeys ▸ hw.keys, hhandles ▸ hw.handles⟩
  | admin c => exact ⟨hw.sound.step c, hw.keys, hw.handles⟩

theorem Desk.fresh {m : Nat} {now t₀ : Time} {s₀ : Store}
    (ho : Store.openStore .empty m now = .ok s₀) : Desk ⟨s₀, [], t₀⟩ :=
  ⟨(openStore_empty ho).1, List.nodup_nil, List.nodup_nil⟩

/-- The key of a request does not depend on the clock. -/
theorem Verified.key_unique {t t' : Time} {parsed parsed' : CsrPayload} {idem idem' : Bytes}
    (hv : Verified G V cfg body t parsed idem) (hv' : Verified G V cfg body t' parsed' idem') :
    idem = idem' := by
  obtain ⟨data, hb, -, hp, hi⟩ := hv
  obtain ⟨data', hb', -, hp', hi'⟩ := hv'
  exact RequestKey.unique ⟨data, t, hb, hp, hi⟩ ⟨data', t', hb', hp', hi'⟩

/-! ## Rejection -/

/-- A rejected ceremony stays rejected, and none is rejected whose credential is stored. -/
def KeepsRejected (w : QueueState) : IssuerOp → Prop
  | .updatePendingStatus handleID status _ _ => ∀ p ∈ w.pendings, p.handleID = handleID →
      (p.status = .rejected → status = .rejected) ∧
      (status = .rejected → ∀ c ∈ w.store.db.credentials, c.idempotencyKey ≠ p.idempotencyKey)
  | _ => True

/-- The steps that meet the condition. -/
def RejectingStep (G : Runtime) (V : Verifier) (cfg : HandlerConfig) (h : Hook) (w : QueueState)
    (o : IssuerOp) (a : IssuerAns o) (w' : QueueState) : Prop :=
  IssuerStep G V cfg h w o a w' ∧ KeepsRejected w o

/-- The ceremony with the given handle is rejected, and its key has no credential. -/
def Rejected (w : QueueState) (handleID : Bytes) (p : Pending) : Prop :=
  p ∈ w.pendings ∧ p.handleID = handleID ∧ p.status = .rejected ∧
    ∀ c ∈ w.store.db.credentials, c.idempotencyKey ≠ p.idempotencyKey

theorem Rejected.update {handleID handle : Bytes} {status : PendingStatus} {reason : Bytes}
    {t now : Time} {p : Pending} {rows : List Pending} (hr : Rejected w handle p)
    (hu : updatePendingStatus w.pendings handleID status reason t now = .ok rows)
    (hk : p.handleID = handleID → status = .rejected) :
    ∃ q, q.idempotencyKey = p.idempotencyKey ∧ Rejected { w with pendings := rows } handle q := by
  obtain ⟨hp, hh, hstatus, hnone⟩ := hr
  have hrows := updatePendingStatus_ok hu
  by_cases heq : p.handleID = handleID
  · refine ⟨{ p with status, reason, updatedAt := Time.ofUnix (t.orNow now).unix }, rfl, ?_, hh,
      hk heq, hnone⟩
    rw [hrows]
    exact List.mem_map.mpr ⟨p, hp, if_pos heq⟩
  · refine ⟨p, rfl, ?_, hh, hstatus, hnone⟩
    rw [hrows]
    exact List.mem_map.mpr ⟨p, hp, if_neg heq⟩

/-- A step that meets the condition keeps a rejection. -/
theorem Rejected.step {o : IssuerOp} {a : IssuerAns o} {handle : Bytes} {p : Pending}
    (hw : Desk w) (hr : Rejected w handle p) (hs : RejectingStep G V cfg h w o a w') :
    ∃ q, q.idempotencyKey = p.idempotencyKey ∧ Rejected w' handle q := by
  obtain ⟨hs, hk⟩ := hs
  cases hs with
  | post body calls r hpath he =>
    obtain ⟨hp, hh, hstatus, hnone⟩ := hr
    have heffect := post_effect hw.sound (path_serveQueued_ways hpath) he
    refine ⟨p, rfl, ?_, hh, hstatus, ?_⟩
    · rcases heffect.pendings with hsame | ⟨q, hq, -⟩
      · exact hsame ▸ hp
      · exact hq ▸ List.mem_append_left _ hp
    · rcases heffect.credentials with hsame | ⟨c, q, hc, hq, hkey, happroved⟩
      · exact hsame ▸ hnone
      · -- a credential is only stored for an approved ceremony
        intro d hd
        rw [hc] at hd
        rcases List.mem_append.mp hd with hd | hd
        · exact hnone d hd
        · rw [List.mem_singleton.mp hd, ← hkey]
          intro heq
          rw [List.inj_on_of_nodup_map hw.keys hq hp heq, hstatus] at happroved
          cases happroved
  | update handleID status reason t now =>
    cases hu : updatePendingStatus w.pendings handleID status reason t now with
    | error e => exact ⟨p, rfl, hr⟩
    | ok rows => exact hr.update hu fun heq => (hk p hr.1 heq).1 hr.2.2.1
  | admin c =>
    obtain ⟨hp, hh, hstatus, hnone⟩ := hr
    exact ⟨p, rfl, hp, hh, hstatus, step_credentials hw.sound c ▸ hnone⟩

theorem Rejected.run {es : Calls IssuerOp IssuerAns} {handle : Bytes} {p : Pending}
    (hw : Desk w) (hr : Rejected w handle p)
    (he : Evolves (RejectingStep G V cfg h) w es w') :
    Desk w' ∧ ∃ q, q.idempotencyKey = p.idempotencyKey ∧ Rejected w' handle q := by
  induction he generalizing p with
  | nil w => exact ⟨hw, p, rfl, hr⟩
  | cons hs he ih =>
    obtain ⟨q, hq, hr'⟩ := hr.step hw hs
    obtain ⟨hw', q', hq', hr''⟩ := ih (hw.step hs.1) hr'
    exact ⟨hw', q', hq'.trans hq, hr''⟩

theorem getByIdempotencyKey_error {db : Database} {key : Bytes} {e : StoreError}
    (hg : db.getByIdempotencyKey key = .error e) : e = .notFound := by
  unfold Database.getByIdempotencyKey at hg
  split at hg
  · cases hg
  · cases hg
    rfl

section
variable {calls : Calls QueueOp QueueAns} {r : Response} {handle : Bytes} {p : Pending}

/-- A POST that reaches the hook looks its ceremony up in the rows it started with. -/
theorem decided_lookup {H : QueueState → (o : QueueOp) → QueueAns o → QueueState → Prop}
    (hH : ∀ w o a w', H w o a w' → QueueFaulty w o a w') (hs : w.store.Sound) {t : Time}
    {parsed : CsrPayload} {idem pub : Bytes} {d : GoM Decision}
    {hook rest : Calls QueueOp QueueAns} (hh : HookPath h (csrView parsed) pub idem hook d)
    (he : Evolves H w (⟨.issue .now, t⟩ ::
      ⟨.issue (.getByIdempotencyKey idem), .error .notFound⟩ ::
      ⟨.issue (.authorize cfg.issuerIdentifier parsed.req.org), .ok ()⟩ :: (hook ++ rest)) w') :
    ∃ w₁ w₂ a more, Unchanged w w₁ ∧ hook = ⟨.getPendingByIdempotencyKey idem, a⟩ :: more ∧
      H w₁ (.getPendingByIdempotencyKey idem) a w₂ := by
  obtain ⟨w₁, hnow, he₁⟩ := evolves_cons.mp he
  obtain ⟨w₂, hget, he₂⟩ := evolves_cons.mp he₁
  obtain ⟨w₃, hauth, he₃⟩ := evolves_cons.mp he₂
  have hthree : Evolves QueueFaulty w [⟨.issue .now, t⟩,
      ⟨.issue (.getByIdempotencyKey idem), .error .notFound⟩,
      ⟨.issue (.authorize cfg.issuerIdentifier parsed.req.org), .ok ()⟩] w₃ :=
    .cons (hH _ _ _ _ hnow) (.cons (hH _ _ _ _ hget) (.cons (hH _ _ _ _ hauth) (.nil _)))
  obtain ⟨a, more, rfl⟩ := hh.lookup
  obtain ⟨w₄, hpend, -⟩ := evolves_cons.mp he₃
  exact ⟨w₃, w₄, a, more, evolves_quiet hs (by simp [Quiet]) hthree, rfl, hpend⟩

/-- On a rejected ceremony the hook rejects. -/
theorem HookPath.rejected {parsed : CsrPayload} {idem pub : Bytes} {d : GoM Decision}
    {more : Calls QueueOp QueueAns} {rest : Calls IssueOp IssueAns}
    (hh : HookPath h (csrView parsed) pub idem
      (⟨.getPendingByIdempotencyKey idem, .ok p⟩ :: more) d)
    (hd : DecisionPath G cfg parsed idem d rest r) (hstatus : p.status = .rejected) :
    r = writeCeremonyFailed p.reason := by
  obtain rfl := hh.of_found
  have hdecision : decisionForPending p = ⟨.reject, p.reason, []⟩ := by
    simp only [decisionForPending, hstatus]
  rw [hdecision] at hd
  cases hd with
  | rejected d hout => rfl
  | pending d hout => cases hout
  | unknown d n hout => cases hout
  | unallocated d hout t e => cases hout
  | unminted d hout t p => cases hout
  | stored d hout t c hc => cases hout
  | reread d hout t c c' hc e => cases hout
  | lost d hout t c hc e e' => cases hout

/-- While the ceremony is rejected, a POST for its key is not answered with a credential. -/
theorem Rejected.not_served (hw : Desk w) (hr : Rejected w handle p)
    (hpath : PostPath G V cfg h body calls r) (he : Evolves QueueFaulty w calls w')
    (hreq : Requests G V cfg body p.idempotencyKey) : r.status ≠ 200 := by
  obtain ⟨hp, -, hstatus, hnone⟩ := hr
  obtain ⟨t₀, parsed₀, hv₀⟩ := hreq
  cases hpath with
  | early calls r hpath hc =>
    cases hpath with
    | unread r hr => exact fun h200 => absurd (hr.symm.trans h200) (by decide)
    | unverified t r hr hv => exact fun h200 => absurd (hr.symm.trans h200) (by decide)
    | served t parsed idem hv c =>
      -- the lookup would have found a credential under the key
      obtain rfl := hv.key_unique hv₀
      obtain ⟨w₁, hnow, he₁⟩ := evolves_cons.mp he
      obtain ⟨w₂, hget, -⟩ := evolves_cons.mp he₁
      have hu := evolves_quiet hw.sound (by simp [Quiet]) (.cons hnow (.nil _))
      obtain ⟨-, hfound | ⟨msg, hfound⟩⟩ := hget.get
      · obtain ⟨hc, hkey⟩ := getByIdempotencyKey_ok hfound.symm
        exact absurd hkey (hnone c (hu.credentials ▸ hc))
      · cases hfound
    | unavailable t parsed idem hv e he => exact (by decide : (500 : Nat) ≠ 200)
    | unauthorized t parsed idem hv e => exact (by decide : (403 : Nat) ≠ 200)
    | subjectless t parsed idem hv e hs => exact (by decide : (400 : Nat) ≠ 200)
    | decided t parsed idem hv pub hs d rest r hd =>
      exact absurd (by simp) (hc (csrView parsed) pub d)
  | decided t parsed idem hv pub hs d hook hh rest r hd =>
    obtain rfl := hv.key_unique hv₀
    obtain ⟨w₁, w₂, a, more, hu, rfl, hlook⟩ :=
      decided_lookup (fun _ _ _ _ hq => hq) hw.sound hh he
    obtain ⟨-, rfl | ⟨msg, rfl⟩⟩ := hlook.getPending
    · rw [hu.pendings, getPending_of_mem hw.keys hp] at hh
      rw [hh.rejected hd hstatus]
      exact (by decide : (403 : Nat) ≠ 200)
    · obtain ⟨e, rfl⟩ := hh.of_failure
      cases hd
      exact (by decide : (500 : Nat) ≠ 200)

/-- A valid one is answered with the failure of the ceremony. -/
theorem Rejected.answered (hw : Desk w) (hr : Rejected w handle p)
    (hpath : PostPath G V cfg h body calls r) (he : Evolves QueueHandle w calls w')
    (hacc : Accepted G V cfg body p.idempotencyKey calls) :
    r = writeCeremonyFailed p.reason := by
  have hH : ∀ w o a w', QueueHandle w o a w' → QueueFaulty w o a w' := fun _ _ _ _ hq => .fine hq
  have hserved := hr.not_served hw hpath (he.map hH)
  obtain ⟨hp, -, hstatus, hnone⟩ := hr
  obtain ⟨t₀, parsed₀, pub₀, rest₀, hcalls, hv₀, hsub₀, hauth₀⟩ := hacc
  cases hpath with
  | early calls r hpath hc =>
    cases hpath with
    | unread r hr => cases hcalls
    | unverified t r hr hv =>
      cases hcalls
      exact absurd hv₀ (hv parsed₀ _)
    | served t parsed idem hv c =>
      -- the lookup would have found a credential under the key
      exact absurd rfl (hserved ⟨t₀, parsed₀, hv₀⟩)
    | unavailable t parsed idem hv e hne =>
      obtain ⟨w₁, hnow, he₁⟩ := evolves_cons.mp he
      obtain ⟨w₂, hget, -⟩ := evolves_cons.mp he₁
      generalize hans : (Except.error e : IssueAns (.getByIdempotencyKey idem)) = a at hget
      cases hget
      exact absurd (getByIdempotencyKey_error hans.symm) hne
    | unauthorized t parsed idem hv e =>
      cases hcalls
      exact absurd (by simp) (hauth₀ cfg.issuerIdentifier parsed.req.org e)
    | subjectless t parsed idem hv e hs =>
      cases hcalls
      obtain ⟨rfl, -⟩ := hv.unique hv₀
      rw [hsub₀] at hs
      cases hs
    | decided t parsed idem hv pub hs d rest r hd =>
      exact absurd (by simp) (hc (csrView parsed) pub d)
  | decided t parsed idem hv pub hs d hook hh rest r hd =>
    obtain rfl := hv.key_unique hv₀
    obtain ⟨w₁, w₂, a, more, hu, rfl, hlook⟩ := decided_lookup hH hw.sound hh he
    cases hlook
    rw [hu.pendings, getPending_of_mem hw.keys hp] at hh
    exact hh.rejected hd hstatus

end

/-- What `reject` leaves behind. -/
theorem rejected_of_update {handle reason : Bytes} {t : Time}
    (hs : RejectingStep G V cfg h w (.updatePendingStatus handle .rejected reason t) (.ok ()) w') :
    ∃ p, Rejected w' handle p := by
  obtain ⟨hs, hk⟩ := hs
  generalize ha : (Except.ok () : IssuerAns (.updatePendingStatus handle .rejected reason t)) = a
    at hs
  cases hs with
  | update _ _ _ _ now =>
    cases hu : updatePendingStatus w.pendings handle .rejected reason t now with
    | error e =>
      rw [hu] at ha
      cases ha
    | ok rows =>
      have hany : ∃ p ∈ w.pendings, p.handleID = handle := by
        unfold updatePendingStatus at hu
        split at hu
        · rename_i hmem
          simpa using hmem
        · cases hu
      obtain ⟨p, hp, hh⟩ := hany
      refine ⟨{ p with status := .rejected, reason := reason
                       updatedAt := Time.ofUnix (t.orNow now).unix }, ?_, hh, rfl,
        (hk p hp hh).2 rfl⟩
      show _ ∈ rows
      rw [updatePendingStatus_ok hu]
      exact List.mem_map.mpr ⟨p, hp, if_pos hh⟩

/-- In every run of POSTs, status updates and operator's calls in which a rejected ceremony is
not set to another status and none is rejected whose credential is stored: once a ceremony is
rejected it stays rejected, no later POST for its key is answered 200, and every valid one is
answered 403 `ceremony_failed`. -/
theorem rejection_terminal {m : Nat} {now t₀ t : Time} {s₀ : Store}
    (ho : Store.openStore .empty m now = .ok s₀) {before after : Calls IssuerOp IssuerAns}
    {w₁ w₂ w₃ : QueueState} {handle reason : Bytes}
    (hbefore : Evolves (RejectingStep G V cfg h) ⟨s₀, [], t₀⟩ before w₁)
    (hreject : RejectingStep G V cfg h w₁ (.updatePendingStatus handle .rejected reason t)
      (.ok ()) w₂)
    (hafter : Evolves (RejectingStep G V cfg h) w₂ after w₃) :
    ∃ p ∈ w₃.pendings, p.handleID = handle ∧ p.status = .rejected ∧
      ∀ body calls r w₄, IssuerStep G V cfg h w₃ (.post body) (calls, r) w₄ →
        (Requests G V cfg body p.idempotencyKey → r.status ≠ 200) ∧
        (Accepted G V cfg body p.idempotencyKey calls → Evolves QueueHandle w₃ calls w₄ →
          r = writeCeremonyFailed p.reason) := by
  have hw₁ : Desk w₁ := hbefore.keeps (fun _ _ _ _ hw hs => hw.step hs.1) (.fresh ho)
  have hw₂ : Desk w₂ := hw₁.step hreject.1
  obtain ⟨p, hr⟩ := rejected_of_update hreject
  obtain ⟨hw₃, q, -, hq⟩ := hr.run hw₂ hafter
  refine ⟨q, hq.1, hq.2.1, hq.2.2.1, fun body calls r w₄ hpost => ?_⟩
  cases hpost with
  | post body calls r hp he =>
    have hways := path_serveQueued_ways hp
    exact ⟨fun hreq => hq.not_served hw₃ hways he hreq,
      fun hacc hfine => hq.answered hw₃ hways hfine hacc⟩

/-! ## Expiry -/

/-- The POST reached `handleApprove` on the strength of the ceremony `p`, and read the time
`t` there. -/
def MintsOn (calls : Calls QueueOp QueueAns) (p : Pending) (t : Time) : Prop :=
  (∃ key, ⟨.getPendingByIdempotencyKey key, .ok p⟩ ∈ calls) ∧
    ∃ a, ⟨.issue (.allocateIndex (t.addSeconds 604800)), a⟩ ∈ calls

/-- A POST that finds an approved ceremony without a credential under the key of its CSR brings
a CSR that expires no later than the ceremony, and is handled while that CSR is accepted. -/
def OnTime (G : Runtime) (V : Verifier) (cfg : HandlerConfig) (w : QueueState) :
    (o : IssuerOp) → IssuerAns o → Prop
  | .post body, (calls, _) => ∀ p ∈ w.pendings, ∀ t₀ rest parsed,
      calls = ⟨.issue .now, t₀⟩ :: rest → Verified G V cfg body t₀ parsed p.idempotencyKey →
      p.status = .approved →
      (∀ c ∈ w.store.db.credentials, c.idempotencyKey ≠ p.idempotencyKey) →
      parsed.exp ≤ p.ceremonyExpiry.unix ∧
        ∀ t, ⟨.issue .now, t⟩ ∈ rest → t.nanos ≤ ((Time.ofUnix parsed.exp).addSeconds 60).nanos
  | _, _ => True

/-- The steps that meet the condition. -/
def TimelyStep (G : Runtime) (V : Verifier) (cfg : HandlerConfig) (h : Hook) (w : QueueState)
    (o : IssuerOp) (a : IssuerAns o) (w' : QueueState) : Prop :=
  IssuerStep G V cfg h w o a w' ∧ OnTime G V cfg w o a

theorem addSeconds_inj {t t' : Time} {d : Int} (heq : t.addSeconds d = t'.addSeconds d) :
    t = t' := by
  obtain ⟨sec, nsec, hlt⟩ := t
  obtain ⟨sec', nsec', hlt'⟩ := t'
  simp only [Time.addSeconds, Time.mk.injEq] at heq ⊢
  exact ⟨by omega, heq.2⟩

/-- The handler allocates after an approval, for the time it has just read. -/
theorem DecisionPath.of_allocate {parsed : CsrPayload} {idem : Bytes} {d : GoM Decision}
    {rest : Calls IssueOp IssueAns} {r : Response} {t : Time} {a : Except StoreError (Nat × Nat)}
    (hd : DecisionPath G cfg parsed idem d rest r)
    (hm : ⟨.allocateIndex (t.addSeconds 604800), a⟩ ∈ rest) :
    ⟨.now, t⟩ ∈ rest ∧ ∃ dec, d = .ok dec ∧ dec.outcome = .approve := by
  cases hd <;> simp only [List.mem_cons, List.not_mem_nil, Sigma.mk.injEq, reduceCtorEq, false_and,
    IssueOp.allocateIndex.injEq, or_false, false_or] at hm
  case unallocated dec hout t' e =>
    rw [addSeconds_inj hm.1]
    exact ⟨List.mem_cons_self, dec, rfl, hout⟩
  case unminted dec hout t' p =>
    rw [addSeconds_inj hm.1]
    exact ⟨List.mem_cons_self, dec, rfl, hout⟩
  case stored dec hout t' c hc =>
    rw [addSeconds_inj hm.1]
    exact ⟨List.mem_cons_self, dec, rfl, hout⟩
  case reread dec hout t' c c' hc e =>
    rw [addSeconds_inj hm.1]
    exact ⟨List.mem_cons_self, dec, rfl, hout⟩
  case lost dec hout t' c hc e e' =>
    rw [addSeconds_inj hm.1]
    exact ⟨List.mem_cons_self, dec, rfl, hout⟩

theorem getByIdempotencyKey_none {db : Database} {key : Bytes} {e : StoreError}
    (hg : db.getByIdempotencyKey key = .error e) :
    ∀ c ∈ db.credentials, c.idempotencyKey ≠ key := by
  unfold Database.getByIdempotencyKey at hg
  split at hg
  · cases hg
  · rename_i hnone
    intro c hc heq
    exact absurd (List.find?_eq_none.mp hnone c hc) (by simp [heq])

/-- A ceremony a POST mints on was found approved in the table, without a credential. -/
theorem MintsOn.approved {calls : Calls QueueOp QueueAns} {r : Response} {p : Pending} {t : Time}
    (hm : MintsOn calls p t) (hw : Desk w) (hpath : PostPath G V cfg h body calls r)
    (he : Evolves QueueFaulty w calls w') :
    p ∈ w.pendings ∧ p.status = .approved ∧
      (∀ c ∈ w.store.db.credentials, c.idempotencyKey ≠ p.idempotencyKey) ∧
      ∃ t₀ rest parsed, calls = ⟨.issue .now, t₀⟩ :: rest ∧
        Verified G V cfg body t₀ parsed p.idempotencyKey ∧ ⟨.issue .now, t⟩ ∈ rest := by
  obtain ⟨⟨key, hfound⟩, a, halloc⟩ := hm
  cases hpath with
  | early calls r hp hc => simp [issueCalls] at hfound
  | decided t₁ parsed idem hv pub hs d hook hh rest r hd =>
    have hrest : ⟨.allocateIndex (t.addSeconds 604800), a⟩ ∈ rest := by
      simp only [List.mem_cons, Sigma.mk.injEq, QueueOp.issue.injEq, reduceCtorEq, false_and,
        false_or, List.mem_append] at halloc
      rcases halloc with hin | hin
      · cases hh <;> simp at hin
      · obtain ⟨⟨o, b⟩, hx, heq⟩ := List.mem_map.mp hin
        cases heq
        exact hx
    obtain ⟨hnow, dec, hdec, hout⟩ := hd.of_allocate hrest
    obtain ⟨w₁, hclock, he₁⟩ := evolves_cons.mp he
    obtain ⟨w₂, hget, he₂⟩ := evolves_cons.mp he₁
    obtain ⟨w₃, hauth, he₃⟩ := evolves_cons.mp he₂
    obtain ⟨w₄, hhook, -⟩ := evolves_append.mp he₃
    have hu₁ := evolves_quiet hw.sound (by simp [Quiet]) (.cons hclock (.nil _))
    have hu₂ := evolves_quiet hu₁.sound (by simp [Quiet]) (.cons hget (.cons hauth (.nil _)))
    obtain ⟨-, -, happrove⟩ := hook_effect hu₂.sound hh hhook
    obtain ⟨-, q, hq, hstatus, rfl⟩ := happrove dec hdec hout
    -- the only ceremony among the answers is the one the hook found
    have hpq : p = q := by
      simp only [List.mem_cons, Sigma.mk.injEq, reduceCtorEq, false_and, false_or, issueCalls,
        List.mem_append, List.not_mem_nil, or_false, List.mem_map, and_false, exists_false,
        QueueOp.getPendingByIdempotencyKey.injEq] at hfound
      obtain ⟨rfl, heq⟩ := hfound
      cases heq
      rfl
    subst hpq
    rw [hu₂.pendings, hu₁.pendings] at hq
    obtain ⟨hmem, rfl⟩ := getPending_ok hq
    refine ⟨hmem, hstatus, ?_, t₁, _, parsed, rfl, hv, ?_⟩
    · obtain ⟨-, hnone | ⟨msg, hnone⟩⟩ := hget.get
      · rw [← hu₁.credentials]
        exact getByIdempotencyKey_none hnone.symm
      · cases hnone
    · have hin : ⟨.issue .now, t⟩ ∈ issueCalls rest := List.mem_map.mpr ⟨_, hnow, rfl⟩
      simp [hin]

/-- In every run in which the POSTs for an approved ceremony without a credential bring CSRs that
expire no later than the ceremony, no credential is minted on a ceremony after its expiry and the
leeway. -/
theorem minted_on_time {m : Nat} {now t₀ : Time} {s₀ : Store}
    (ho : Store.openStore .empty m now = .ok s₀) {es : Calls IssuerOp IssuerAns}
    (hr : Evolves (TimelyStep G V cfg h) ⟨s₀, [], t₀⟩ es w) {calls : Calls QueueOp QueueAns}
    {r : Response} (hpost : ⟨.post body, (calls, r)⟩ ∈ es) {p : Pending} {t : Time}
    (hm : MintsOn calls p t) : t.nanos ≤ (p.ceremonyExpiry.addSeconds 60).nanos := by
  obtain ⟨es₁, es₂, w₁, w₂, rfl, hbefore, ⟨hs, htime⟩, -⟩ := hr.mem hpost
  have hw₁ : Desk w₁ := hbefore.keeps (fun _ _ _ _ hw hs => hw.step hs.1) (.fresh ho)
  cases hs with
  | post body calls r hp he =>
    obtain ⟨hmem, hstatus, hnone, t₁, rest, parsed, rfl, hv, hin⟩ :=
      hm.approved hw₁ (path_serveQueued_ways hp) he
    obtain ⟨hexp, hhandled⟩ := htime p hmem t₁ rest parsed rfl hv hstatus hnone
    have hlast := hhandled t hin
    simp only [Time.nanos, Time.addSeconds, Time.ofUnix, Time.unix] at hexp hlast ⊢
    omega

/-! ## A ceremony that is rejected, approved and asked for too late -/

/-- A later request of the same subject for the same credential. -/
def lateToken : Bytes :=
  compactToken csrHeaderJson
    (bytes "\x7b\"iss\":\"z6Mkon3Necd6NkkyfoGoHxid2znGc59LU3K7mubaRcFbLfLX\",\"aud\":\"a.co\"," ++
      bytes "\"iat\":1000,\"exp\":1300,\"req\":\x7b\"kind\":\"k\",\"org\":\"a.co\"\x7d\x7d")
    [207, 243, 200, 37, 132, 171, 64, 151, 80, 223, 186, 109, 84, 235, 102, 136, 85, 193, 72, 56,
      59, 88, 199, 97, 16, 30, 234, 76, 165, 164, 32, 55, 8, 41, 29, 98, 212, 14, 94, 79, 114,
      122, 219, 164, 222, 0, 15, 252, 196, 75, 209, 72, 147, 58, 97, 166, 81, 244, 188, 7, 62,
      72, 79, 10]

def latePayload : CsrPayload := { racePayload with iat := 1000, exp := 1300 }

/-- The issuer's signature over the credential minted at second 1000. -/
def lateSignature : Bytes :=
  [19, 61, 213, 24, 2, 228, 246, 232, 220, 53, 216, 120, 23, 40, 17, 9, 246, 178, 123, 230, 35,
    121, 196, 202, 161, 6, 86, 128, 148, 217, 246, 109, 87, 152, 225, 98, 144, 134, 5, 173, 139,
    238, 157, 197, 249, 118, 95, 58, 53, 42, 210, 81, 77, 120, 156, 211, 105, 140, 135, 112,
    244, 44, 134, 4]

def deskSigner (priv kid typ payload : Bytes) : GoM Bytes :=
  if payload = (approvedPayload raceConfig latePayload (Time.ofUnix 1000) 1 0).marshal then
    pure (utf8 (base64Url (bytes "\x7b\"alg\":\"EdDSA\",\"kid\":\"shadownet@a.co\"," ++
      bytes "\"typ\":\"shadownet-cred+jwt\"\x7d"))
      ++ 0x2E :: (utf8 (base64Url payload) ++ 0x2E :: utf8 (base64Url lateSignature)))
  else raceSigner priv kid typ payload

def deskRuntime : Runtime := sampleRuntime (fun _ => raceDigest) deskSigner

/-- Ed25519 on the subject's two signatures. -/
def deskVerifier : Verifier := fun key msg sig =>
  key == attackerKey && [raceToken, lateToken].any fun token =>
    (compactJws deskRuntime token).toOption.any fun obj =>
      obj.signingInput == msg && obj.signature == sig

def deskHook : Hook := ⟨bytes "https://a.co/.well-known/shadownet/issue"⟩

def deskHandle : Bytes := bytes "00112233445566778899aabbccddeeff"

theorem first_verified : Verified deskRuntime deskVerifier raceConfig (some raceToken)
    (Time.ofUnix 200) racePayload raceKey :=
  .of_token race_request (by decide +kernel) (by decide)

theorem late_verified : Verified deskRuntime deskVerifier raceConfig (some lateToken)
    (Time.ofUnix 1000) latePayload raceKey :=
  .of_token (by decide +kernel) (by decide +kernel) (by decide)

/-- The ceremony of the first request, in a given state. -/
def deskPending (status : PendingStatus) (reason : Bytes) : Pending :=
  { deskHook.pending (csrView racePayload) raceKey racePayload.iss deskHandle (Time.ofUnix 200) with
    status, reason }

/-- Before the first request. -/
def deskStart : QueueState := ⟨raceStore 0 [], [], Time.ofUnix 150⟩

/-- With the ceremony of the first request. -/
def deskParked (p : Pending) : QueueState := ⟨raceStore 0 [], [p], Time.ofUnix 200⟩

/-- The first request is parked. -/
theorem park_step : ∃ calls, IssuerStep deskRuntime deskVerifier raceConfig deskHook deskStart
    (.post (some raceToken)) (calls, writeCeremonyPending deskHook.nextURL)
    (deskParked (deskPending .new [])) := by
  have hsub : subjectPubFromCSR deskRuntime racePayload = .ok attackerKey := by decide
  have henc : encodePubKey attackerKey = .ok racePayload.iss := by decide +kernel
  obtain ⟨-, -, -, -, hk⟩ := first_verified
  have hhook : Prog.Path (deskHook.evaluate deskRuntime (csrView racePayload) attackerKey) _ _ :=
    path_of_parked deskHandle (Time.ofUnix 200) (.ok ()) hk henc
  have hpath := path_of_hook first_verified hsub hhook
    (.ret (writeCeremonyPending deskHook.nextURL))
  have hnow : QueueFaulty deskStart (.issue .now) (Time.ofUnix 200)
      ⟨raceStore 0 [], [], Time.ofUnix 200⟩ := .fine (.now _ _ (by decide))
  have hnew : QueueFaulty ⟨raceStore 0 [], [], Time.ofUnix 200⟩ .newHandleID (.ok deskHandle)
      ⟨raceStore 0 [], [], Time.ofUnix 200⟩ := .fine (.newHandle _ _ List.not_mem_nil)
  have hclock : QueueFaulty ⟨raceStore 0 [], [], Time.ofUnix 200⟩ .hookNow (Time.ofUnix 200)
      ⟨raceStore 0 [], [], Time.ofUnix 200⟩ := .fine (.hookNow _ _ le_rfl)
  have hput : QueueFaulty ⟨raceStore 0 [], [], Time.ofUnix 200⟩
      (.putPending (deskPending .new [])) (.ok ()) (deskParked (deskPending .new [])) :=
    .fine (.putPending ⟨raceStore 0 [], [], Time.ofUnix 200⟩ (deskPending .new [])
      (Time.ofUnix 200))
  refine ⟨_, .post _ _ _ hpath ?_⟩
  exact .cons hnow (.cons (.fine (.get _ _)) (.cons (.fine (.authorize _ _ _ _))
    (.cons (.fine (.getPending _ _)) (.cons hnew (.cons hclock (.cons hput (.nil _)))))))

/-- A change of status by the operator. -/
theorem desk_update (status status' : PendingStatus) (reason reason' : Bytes) :
    IssuerStep deskRuntime deskVerifier raceConfig deskHook (deskParked (deskPending status reason))
      (.updatePendingStatus deskHandle status' reason' (Time.ofUnix 200)) (.ok ())
      (deskParked (deskPending status' reason')) :=
  .update (deskParked (deskPending status reason)) deskHandle status' reason' (Time.ofUnix 200)
    (Time.ofUnix 200)

/-- The store with the first index given out at time `t`. -/
def deskStore (t : Int) (rows : List CredentialRow) : Store :=
  ⟨⟨[{ Database.newEpochRow 1 5 (Time.ofUnix 100) with nextIdx := 1, lastIssued := t + 604800 }],
    [], rows⟩, 5⟩

/-- A request for the approved ceremony is answered with a credential, whenever it comes. -/
theorem mint_step {data : Bytes} {parsed : CsrPayload} {sec : Int} {jws : Bytes}
    (hsec : (Time.ofUnix 200).nanos ≤ (Time.ofUnix sec).nanos)
    (hv : Verified deskRuntime deskVerifier raceConfig (some data) (Time.ofUnix sec) parsed raceKey)
    (hs : subjectPubFromCSR deskRuntime parsed = .ok attackerKey)
    (hm : mint deskRuntime raceConfig.signerPrivate raceConfig.signerPublic
      (approvedPayload raceConfig parsed (Time.ofUnix sec) 1 0) = .ok jws)
    (halloc : (raceStore 0 []).allocateIndex ((Time.ofUnix sec).addSeconds 604800)
      (Time.ofUnix sec) = (deskStore sec [], .ok (1, 0))) :
    ∃ calls w, IssuerStep deskRuntime deskVerifier raceConfig deskHook
      (deskParked (deskPending .approved [])) (.post (some data)) (calls, writeCredential jws) w ∧
      (∀ t, ⟨.issue .now, t⟩ ∈ calls → t = Time.ofUnix sec) ∧
      MintsOn calls (deskPending .approved []) (Time.ofUnix sec) := by
  obtain ⟨-, -, -, -, hk⟩ := id hv
  have hc : MintedAt deskRuntime raceConfig parsed raceKey (Time.ofUnix sec)
      (approvedRow raceConfig parsed raceKey jws (Time.ofUnix sec) 1 0) := ⟨hm, rfl⟩
  have hhook : Prog.Path (deskHook.evaluate deskRuntime (csrView parsed) attackerKey) _ _ :=
    path_of_found (deskPending .approved []) hk
  have hpath := path_of_hook hv hs hhook (path_of_approval hc rfl)
  let row := approvedRow raceConfig parsed raceKey jws (Time.ofUnix sec) 1 0
  let p := deskPending .approved []
  have hfirst : QueueFaulty (deskParked p) (.issue .now) (Time.ofUnix sec)
      ⟨raceStore 0 [], [p], Time.ofUnix sec⟩ := .fine (.now _ _ hsec)
  have hlook : QueueFaulty ⟨raceStore 0 [], [p], Time.ofUnix sec⟩
      (.getPendingByIdempotencyKey raceKey) (.ok p) ⟨raceStore 0 [], [p], Time.ofUnix sec⟩ := by
    have hmem : getPendingByIdempotencyKey [p] raceKey = .ok p :=
      @getPending_of_mem [p] p (List.nodup_singleton _) (List.mem_singleton.mpr rfl)
    rw [← hmem]
    exact .fine (.getPending ⟨raceStore 0 [], [p], Time.ofUnix sec⟩ raceKey)
  have hsecond : QueueFaulty ⟨raceStore 0 [], [p], Time.ofUnix sec⟩ (.issue .now)
      (Time.ofUnix sec) ⟨raceStore 0 [], [p], Time.ofUnix sec⟩ := .fine (.now _ _ le_rfl)
  have htake : QueueFaulty ⟨raceStore 0 [], [p], Time.ofUnix sec⟩
      (.issue (.allocateIndex ((Time.ofUnix sec).addSeconds 604800))) (.ok (1, 0))
      ⟨deskStore sec [], [p], Time.ofUnix sec⟩ := by
    have hstep := QueueHandle.allocate ⟨raceStore 0 [], [p], Time.ofUnix sec⟩
      ((Time.ofUnix sec).addSeconds 604800) (Time.ofUnix sec)
    rw [halloc] at hstep
    exact .fine hstep
  have hput : QueueFaulty ⟨deskStore sec [], [p], Time.ofUnix sec⟩ (.issue (.putCredential row))
      (.ok ()) ⟨deskStore sec [row], [p], Time.ofUnix sec⟩ :=
    .fine (.put ⟨deskStore sec [], [p], Time.ofUnix sec⟩ row)
  have hstep : IssuerStep deskRuntime deskVerifier raceConfig deskHook (deskParked p)
      (.post (some data)) _ ⟨deskStore sec [row], [p], Time.ofUnix sec⟩ :=
    .post _ _ _ hpath (.cons hfirst (.cons (.fine (.get _ raceKey))
      (.cons (.fine (.authorize _ _ _ _))
      (.cons hlook (.cons hsecond (.cons htake (.cons hput (.nil _))))))))
  exact ⟨_, _, hstep, by simp [issueCalls], ⟨raceKey, by simp⟩, .ok (1, 0),
    by simp [issueCalls, approvedRow]⟩

theorem first_mint : ∃ jws calls w, IssuerStep deskRuntime deskVerifier raceConfig deskHook
      (deskParked (deskPending .approved [])) (.post (some raceToken))
      (calls, writeCredential jws) w ∧
    (∀ t, ⟨.issue .now, t⟩ ∈ calls → t = Time.ofUnix 200) ∧
    MintsOn calls (deskPending .approved []) (Time.ofUnix 200) := by
  have hok : (mint deskRuntime raceConfig.signerPrivate raceConfig.signerPublic
      (approvedPayload raceConfig racePayload (Time.ofUnix 200) 1 0)).isOk = true := by
    decide
  obtain ⟨jws, hm⟩ := isOk_iff.mp hok
  exact ⟨jws, mint_step le_rfl first_verified (by decide) hm (by decide)⟩

theorem late_mint : ∃ jws calls w, IssuerStep deskRuntime deskVerifier raceConfig deskHook
      (deskParked (deskPending .approved [])) (.post (some lateToken))
      (calls, writeCredential jws) w ∧
    (∀ t, ⟨.issue .now, t⟩ ∈ calls → t = Time.ofUnix 1000) ∧
    MintsOn calls (deskPending .approved []) (Time.ofUnix 1000) := by
  have hok : (mint deskRuntime raceConfig.signerPrivate raceConfig.signerPublic
      (approvedPayload raceConfig latePayload (Time.ofUnix 1000) 1 0)).isOk = true := by
    decide +kernel
  obtain ⟨jws, hm⟩ := isOk_iff.mp hok
  exact ⟨jws, mint_step (by decide) late_verified (by decide) hm (by decide)⟩

/-- A rejected ceremony is approved, and the next POST is answered with a credential. -/
theorem approved_after_rejection : ∃ before w₁ w₂ after w₃ calls r w₄,
    Evolves (IssuerStep deskRuntime deskVerifier raceConfig deskHook) deskStart before w₁ ∧
    IssuerStep deskRuntime deskVerifier raceConfig deskHook w₁
      (.updatePendingStatus deskHandle .rejected (bytes "fraud") (Time.ofUnix 200)) (.ok ()) w₂ ∧
    Evolves (IssuerStep deskRuntime deskVerifier raceConfig deskHook) w₂ after w₃ ∧
    (∃ p ∈ w₃.pendings, p.handleID = deskHandle ∧ p.idempotencyKey = raceKey ∧
      p.status = .approved) ∧
    IssuerStep deskRuntime deskVerifier raceConfig deskHook w₃ (.post (some raceToken)) (calls, r)
      w₄ ∧
    Requests deskRuntime deskVerifier raceConfig (some raceToken) raceKey ∧ r.status = 200 := by
  obtain ⟨parkCalls, hpark⟩ := park_step
  obtain ⟨jws, calls, w, hmint, -, -⟩ := first_mint
  refine ⟨_, _, _, _, _, _, _, _, .cons hpark (.nil _), desk_update .new .rejected []
    (bytes "fraud"),
    .cons (desk_update .rejected .approved (bytes "fraud") []) (.nil _), ?_, hmint,
    ⟨_, _, first_verified⟩, rfl⟩
  exact ⟨_, List.mem_singleton.mpr rfl, rfl, rfl, rfl⟩

theorem rejection_terminal_fraud : ∃ p : Pending, p.handleID = deskHandle ∧ p.status = .rejected ∧
    ∀ body calls r w, IssuerStep deskRuntime deskVerifier raceConfig deskHook
        (deskParked (deskPending .rejected (bytes "fraud"))) (.post body) (calls, r) w →
      Requests deskRuntime deskVerifier raceConfig body p.idempotencyKey → r.status ≠ 200 := by
  obtain ⟨parkCalls, hpark⟩ := park_step
  have ho : Store.openStore .empty 5 (Time.ofUnix 100) = .ok (raceStore 0 []) := rfl
  have hreject : RejectingStep deskRuntime deskVerifier raceConfig deskHook
      (deskParked (deskPending .new []))
      (.updatePendingStatus deskHandle .rejected (bytes "fraud") (Time.ofUnix 200)) (.ok ())
      (deskParked (deskPending .rejected (bytes "fraud"))) :=
    ⟨desk_update .new .rejected [] (bytes "fraud"), fun _ _ _ => ⟨fun _ => rfl, fun _ _ => nofun⟩⟩
  obtain ⟨p, -, hh, hstatus, hposts⟩ := rejection_terminal ho (.cons ⟨hpark, trivial⟩ (.nil _))
    hreject (.nil _)
  exact ⟨p, hh, hstatus, fun body calls r w hpost => (hposts body calls r w hpost).1⟩

/-- The ceremony expires at second 400; a later CSR of the same request is answered with a
credential at second 1000. -/
theorem minted_late : ∃ es w body calls r p t,
    Evolves (IssuerStep deskRuntime deskVerifier raceConfig deskHook) deskStart es w ∧
    ⟨.post body, (calls, r)⟩ ∈ es ∧ MintsOn calls p t ∧ r.status = 200 ∧
    ¬ t.nanos ≤ (p.ceremonyExpiry.addSeconds 60).nanos := by
  obtain ⟨parkCalls, hpark⟩ := park_step
  obtain ⟨jws, calls, w, hmint, -, hon⟩ := late_mint
  have hrun : Evolves (IssuerStep deskRuntime deskVerifier raceConfig deskHook) deskStart
      [⟨.post (some raceToken), _⟩, ⟨.updatePendingStatus _ _ _ _, _⟩,
        ⟨.post (some lateToken), (calls, writeCredential jws)⟩] w :=
    .cons hpark (.cons (desk_update .new .approved [] []) (.cons hmint (.nil _)))
  exact ⟨_, _, _, _, _, _, _, hrun, List.mem_cons_of_mem _ (List.mem_cons_of_mem _
    List.mem_cons_self), hon, rfl, by decide⟩

/-- The first request is parked and approved; repeated in time, it is answered with a
credential. -/
theorem minted_on_time_first : ∃ parkCalls calls jws w,
    Evolves (TimelyStep deskRuntime deskVerifier raceConfig deskHook) deskStart
      [⟨.post (some raceToken), (parkCalls, writeCeremonyPending deskHook.nextURL)⟩,
        ⟨.updatePendingStatus deskHandle .approved [] (Time.ofUnix 200), .ok ()⟩,
        ⟨.post (some raceToken), (calls, writeCredential jws)⟩] w ∧
    MintsOn calls (deskPending .approved []) (Time.ofUnix 200) ∧
    (Time.ofUnix 200).nanos ≤
      ((deskPending .approved []).ceremonyExpiry.addSeconds 60).nanos := by
  obtain ⟨parkCalls, hpark⟩ := park_step
  obtain ⟨jws, calls, w, hmint, hreadings, hon⟩ := first_mint
  have ho : Store.openStore .empty 5 (Time.ofUnix 100) = .ok (raceStore 0 []) := rfl
  have hnone : OnTime deskRuntime deskVerifier raceConfig deskStart (.post (some raceToken))
      (parkCalls, writeCeremonyPending deskHook.nextURL) :=
    fun p hp => absurd hp List.not_mem_nil
  have htime : OnTime deskRuntime deskVerifier raceConfig (deskParked (deskPending .approved []))
      (.post (some raceToken)) (calls, writeCredential jws) := by
    rintro p hp t₀ rest parsed rfl hv - -
    obtain rfl := hreadings t₀ List.mem_cons_self
    obtain ⟨rfl, -⟩ := hv.unique first_verified
    refine ⟨?_, fun t ht => ?_⟩
    · rw [List.mem_singleton.mp hp]
      decide
    · rw [hreadings t (List.mem_cons_of_mem _ ht)]
      decide
  have hrun : Evolves (TimelyStep deskRuntime deskVerifier raceConfig deskHook) deskStart
      [⟨.post (some raceToken), (parkCalls, writeCeremonyPending deskHook.nextURL)⟩,
        ⟨.updatePendingStatus deskHandle .approved [] (Time.ofUnix 200), .ok ()⟩,
        ⟨.post (some raceToken), (calls, writeCredential jws)⟩] w :=
    .cons ⟨hpark, hnone⟩ (.cons ⟨desk_update .new .approved [] [], trivial⟩
      (.cons ⟨hmint, htime⟩ (.nil _)))
  exact ⟨parkCalls, calls, jws, w, hrun, hon, minted_on_time ho hrun
    (List.mem_cons_of_mem _ (List.mem_cons_of_mem _ List.mem_cons_self)) hon⟩

end Shadownet.Issuer
