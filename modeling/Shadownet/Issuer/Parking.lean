import Shadownet.Issuer.Lifecycle

/-!
# First requests at the same time

Any number of POSTs with one idempotency key that is new to the issuer, in any interleaving.
The hook looks for a ceremony and parks one in two separate calls, and the upsert of
`PutPending` only resolves a conflict of handles. So one ceremony is created and every POST
is answered with it as long as no POST parks between the lookup and the insert of another
(`parked_once`); otherwise the second insert fails and its POST ends in a 500
(`parked_twice`).
-/

namespace Shadownet.Issuer

open Foundation Go

/-- No ceremony is parked while there is one for its key. -/
def ParksFirst (w : QueueState) : QueueOp → Prop
  | .putPending p => p.idempotencyKey ∉ w.pendings.map Pending.idempotencyKey
  | _ => True

/-- The calls that meet the condition. -/
def ParkHandle (w : QueueState) (o : QueueOp) (a : QueueAns o) (w' : QueueState) : Prop :=
  QueueHandle w o a w' ∧ ParksFirst w o

section
variable (h : Hook) (w₀ : QueueState) (idem : Bytes)

/-- The answers the POSTs get. -/
def ParkEvent : (o : QueueOp) → QueueAns o → Prop
  | .issue (.getByIdempotencyKey key), a => key = idem → a = .error .notFound
  | .issue (.allocateIndex _), _ => False
  | .issue (.putCredential _), _ => False
  | .getPendingByIdempotencyKey key, a => key = idem →
      a = .error .notFound ∨ ∃ p, a = .ok p ∧ p.status = .new ∧ p.nextURL = h.nextURL
  | .newHandleID, a => ∃ handle, a = .ok handle ∧ handle ∉ w₀.pendings.map Pending.handleID
  | .putPending _, a => a = .ok ()
  | _, _ => True

/-- The answers that show a ceremony for the key. -/
def ShowsPending : (o : QueueOp) → QueueAns o → Prop
  | .getPendingByIdempotencyKey key, a => key = idem ∧ ∃ p, a = .ok p
  | .putPending _, _ => True
  | _, _ => False

/-- The issuer during the POSTs: it has stored nothing but at most one ceremony. -/
structure Parking {ι : Type} (tr : List (Event ι QueueOp QueueAns)) (w : QueueState) : Prop where
  store : w.store = w₀.store
  events : ∀ e ∈ tr, ParkEvent h w₀ idem e.op e.ans
  rows : (w.pendings = w₀.pendings ∧ ∀ e ∈ tr, ¬ ShowsPending idem e.op e.ans) ∨
    ∃ p, w.pendings = w₀.pendings ++ [p] ∧ p.idempotencyKey = idem ∧ p.status = .new ∧
      p.nextURL = h.nextURL

end

variable {G : Runtime} {V : Verifier} {cfg : HandlerConfig} {h : Hook} {body : Option Bytes}
  {w₀ w w' : QueueState} {idem : Bytes}

/-! ## What a POST may call next -/

/-- What stands before an element that is not among the first ones. -/
theorem mem_of_append_eq {α : Type} {l r pre post : List α} {x : α}
    (heq : l ++ x :: r = pre ++ post) (hx : x ∉ pre) : ∀ y ∈ pre, y ∈ l := by
  rcases List.append_eq_append_iff.mp heq with ⟨as, rfl, hcons⟩ | ⟨as, rfl, -⟩
  · cases as with
    | nil => simp
    | cons a as =>
      obtain ⟨rfl, -⟩ := List.cons.inj hcons
      simp at hx
  · exact fun y hy => List.mem_append_left _ hy

/-- Before the hook the handler only reads. -/
theorem IssuePath.early_calls {calls : Calls IssueOp IssueAns} {r : Response}
    (hp : IssuePath G V cfg body calls r) (hc : ∀ view pub a, ⟨.evaluate view pub, a⟩ ∉ calls) :
    ∀ x ∈ calls, (∀ exp, x.1 ≠ .allocateIndex exp) ∧ ∀ c, x.1 ≠ .putCredential c := by
  cases hp with
  | decided t parsed idem hv pub hs d rest r hd =>
    exact absurd (by simp) (hc (csrView parsed) pub d)
  | _ => simp

/-- A POST that has got such answers so far reads, looks up, or parks under a handle it has
been given; it neither allocates nor stores. -/
theorem next_call {l rest : Calls QueueOp QueueAns} {o : QueueOp} {a : QueueAns o} {r : Response}
    (hp : PostPath G V cfg h body (l ++ ⟨o, a⟩ :: rest) r)
    (hkey : ∀ key, Requests G V cfg body key → key = idem)
    (hl : ∀ c ∈ l, ParkEvent h w₀ idem c.1 c.2) :
    (∀ exp, o ≠ .issue (.allocateIndex exp)) ∧ (∀ c, o ≠ .issue (.putCredential c)) ∧
      ∀ p, o = .putPending p → ∃ view pubMB handle now,
        p = h.pending view idem pubMB handle now ∧ ⟨.newHandleID, .ok handle⟩ ∈ l := by
  generalize hcalls : l ++ ⟨o, a⟩ :: rest = calls at hp
  have hmem : ⟨o, a⟩ ∈ calls := by
    rw [← hcalls]
    exact List.mem_append_right _ List.mem_cons_self
  cases hp with
  | early calls r hp hc =>
    obtain ⟨⟨o', b⟩, hin, heq⟩ := List.mem_map.mp hmem
    cases heq
    obtain ⟨halloc, hput⟩ := hp.early_calls hc _ hin
    exact ⟨fun exp heq => halloc exp (QueueOp.issue.inj heq),
      fun c heq => hput c (QueueOp.issue.inj heq), nofun⟩
  | decided t parsed key hv pub hs d hook hh rest' r hd =>
    obtain rfl := hkey key ⟨t, parsed, hv⟩
    have hsplit : l ++ ⟨o, a⟩ :: rest = ([⟨.issue .now, t⟩,
        ⟨.issue (.getByIdempotencyKey key), .error .notFound⟩,
        ⟨.issue (.authorize cfg.issuerIdentifier parsed.req.org), .ok ()⟩] ++ hook) ++
          issueCalls rest' := by
      rw [hcalls]
      simp
    -- nothing is approved here, so the POST does not go on after the hook
    have hpre : ⟨o, a⟩ ∈ [⟨.issue .now, t⟩,
        ⟨.issue (.getByIdempotencyKey key), .error .notFound⟩,
        ⟨.issue (.authorize cfg.issuerIdentifier parsed.req.org), .ok ()⟩] ++ hook := by
      by_contra hout
      have hrest : rest' ≠ [] := by
        rintro rfl
        exact hout (by simpa [issueCalls] using hmem)
      obtain ⟨dec, rfl, hdec⟩ := hd.of_ne_nil hrest
      obtain ⟨p, rfl, hstatus⟩ := hh.of_approve hdec
      have hevent := hl _ (mem_of_append_eq hsplit hout
        ⟨.getPendingByIdempotencyKey key, .ok p⟩ (by simp))
      rcases hevent rfl with hmiss | ⟨q, hq, hnew, -⟩
      · cases hmiss
      · cases hq
        rw [hstatus] at hnew
        cases hnew
    refine ⟨?_, ?_, ?_⟩
    · rintro exp rfl
      cases hh <;> simp at hpre
    · rintro c rfl
      cases hh <;> simp at hpre
    · rintro p rfl
      cases hh with
      | parked pubMB handle now b he =>
        have hsix : l ++ ⟨.putPending p, a⟩ :: rest = [⟨.issue .now, t⟩,
            ⟨.issue (.getByIdempotencyKey key), .error .notFound⟩,
            ⟨.issue (.authorize cfg.issuerIdentifier parsed.req.org), .ok ()⟩,
            ⟨.getPendingByIdempotencyKey key, .error .notFound⟩, ⟨.newHandleID, .ok handle⟩,
            ⟨.hookNow, now⟩] ++
          (⟨.putPending (h.pending (csrView parsed) key pubMB handle now), b⟩ ::
            issueCalls rest') :=
          hsplit
        have hp : p = h.pending (csrView parsed) key pubMB handle now := by
          simp only [List.cons_append, List.nil_append, List.mem_cons, Sigma.mk.injEq, reduceCtorEq,
            false_and, false_or, QueueOp.putPending.injEq, List.not_mem_nil, or_false] at hpre
          exact hpre.1
        exact ⟨_, pubMB, handle, now, hp,
          mem_of_append_eq hsix (by simp) ⟨.newHandleID, .ok handle⟩ (by simp)⟩
      | _ => simp at hpre

/-! ## Over whole runs -/

theorem getByIdempotencyKey_of_none {db : Database} {key : Bytes}
    (hn : ∀ c ∈ db.credentials, c.idempotencyKey ≠ key) :
    db.getByIdempotencyKey key = .error .notFound := by
  have hnone : db.credentials.find? (·.idempotencyKey == key) = none := by
    rw [List.find?_eq_none]
    intro c hc heq
    exact hn c hc (by simpa using heq)
  simp only [Database.getByIdempotencyKey, hnone]
  rfl

theorem getPending_append {rows : List Pending} {p : Pending} {key : Bytes}
    (hn : ∀ q ∈ rows, q.idempotencyKey ≠ key) (hp : p.idempotencyKey = key) :
    getPendingByIdempotencyKey (rows ++ [p]) key = .ok p := by
  have hnone : rows.find? (·.idempotencyKey == key) = none := by
    rw [List.find?_eq_none]
    intro q hq heq
    exact hn q hq (by simpa using heq)
  have hfind : (rows ++ [p]).find? (·.idempotencyKey == key) = some p := by
    rw [List.find?_append, hnone]
    simp [hp]
  simp only [getPendingByIdempotencyKey, hfind]
  rfl

section
variable {ι : Type} {tr : List (Event ι QueueOp QueueAns)}

theorem Parking.concat {i : ι} {o : QueueOp} {a : QueueAns o} (hp : Parking h w₀ idem tr w)
    (hstore : w'.store = w.store) (hevent : ParkEvent h w₀ idem o a)
    (hrows : w'.pendings = w.pendings) (hshow : ShowsPending idem o a → w.pendings ≠ w₀.pendings) :
    Parking h w₀ idem (tr ++ [⟨i, o, a⟩]) w' := by
  refine ⟨hstore.trans hp.store, ?_, ?_⟩
  · intro e he
    rcases List.mem_append.mp he with he | he
    · exact hp.events e he
    · rw [List.mem_singleton.mp he]
      exact hevent
  · rw [hrows]
    rcases hp.rows with ⟨hsame, hnone⟩ | hone
    · refine .inl ⟨hsame, fun e he => ?_⟩
      rcases List.mem_append.mp he with he | he
      · exact hnone e he
      · rw [List.mem_singleton.mp he]
        exact fun hs => hshow hs hsame
    · exact .inr hone

/-- One call of a POST. -/
theorem Parking.step {i : ι} {o : QueueOp} {a : QueueAns o} (hp : Parking h w₀ idem tr w)
    (hcred : ∀ c ∈ w₀.store.db.credentials, c.idempotencyKey ≠ idem)
    (hpend : ∀ p ∈ w₀.pendings, p.idempotencyKey ≠ idem)
    (hnext : (∀ exp, o ≠ .issue (.allocateIndex exp)) ∧ (∀ c, o ≠ .issue (.putCredential c)) ∧
      ∀ p, o = .putPending p → ∃ view pubMB handle now,
        p = h.pending view idem pubMB handle now ∧ handle ∉ w₀.pendings.map Pending.handleID)
    (hh : ParkHandle w o a w') : Parking h w₀ idem (tr ++ [⟨i, o, a⟩]) w' := by
  obtain ⟨hq, hfirst⟩ := hh
  cases hq with
  | now t ht => exact hp.concat rfl trivial rfl nofun
  | authorize iss org a => exact hp.concat rfl trivial rfl nofun
  | hookNow t ht => exact hp.concat rfl trivial rfl nofun
  | allocate exp now => exact absurd rfl (hnext.1 exp)
  | put c => exact absurd rfl (hnext.2.1 c)
  | get key =>
    refine hp.concat rfl ?_ rfl nofun
    rintro rfl
    rw [hp.store]
    exact getByIdempotencyKey_of_none hcred
  | newHandle handle hfresh =>
    refine hp.concat rfl ⟨handle, rfl, fun hm => hfresh ?_⟩ rfl nofun
    rcases hp.rows with ⟨hsame, -⟩ | ⟨p, hone, -⟩
    · exact hsame ▸ hm
    · rw [hone, List.map_append]
      exact List.mem_append_left _ hm
  | getPending key =>
    rcases hp.rows with ⟨hsame, -⟩ | ⟨p, hone, hkey, hstatus, hurl⟩
    · have hmiss : key = idem →
          getPendingByIdempotencyKey w.pendings key = .error .notFound := by
        rintro rfl
        rw [hsame]
        refine getPending_of_not_mem fun hm => ?_
        obtain ⟨q, hq, hqk⟩ := List.mem_map.mp hm
        exact hpend q hq hqk
      refine hp.concat rfl (fun heq => .inl (hmiss heq)) rfl ?_
      rintro ⟨heq, p, hfound⟩
      rw [hmiss heq] at hfound
      cases hfound
    · refine hp.concat rfl (fun heq => .inr ⟨p, ?_, hstatus, hurl⟩) rfl fun _ hsame => ?_
      · rw [hone, heq]
        exact getPending_append hpend hkey
      · rw [hone] at hsame
        simp at hsame
  | putPending p now =>
    obtain ⟨view, pubMB, handle, t, rfl, hfresh⟩ := hnext.2.2 p rfl
    have hsame : w.pendings = w₀.pendings := by
      rcases hp.rows with ⟨hsame, -⟩ | ⟨q, hone, hkey, -⟩
      · exact hsame
      · refine absurd ?_ hfirst
        rw [hone]
        exact List.mem_map.mpr ⟨q, by simp, hkey⟩
    have hput : putPending w.pendings (h.pending view idem pubMB handle t) now =
        .ok (w.pendings ++ [(h.pending view idem pubMB handle t).row now]) := by
      rw [putPending_fresh (by rw [hsame]; exact hfresh), if_neg hfirst]
    rw [hput]
    refine ⟨hp.store, ?_, .inr ⟨_, by rw [← hsame]; rfl, rfl, rfl, rfl⟩⟩
    intro e he
    rcases List.mem_append.mp he with he | he
    · exact hp.events e he
    · rw [List.mem_singleton.mp he]
      rfl

variable [DecidableEq ι] {bodies : ι → Option Bytes} {pool : ι → QueueProg Response}

theorem queueAns_nonempty (o : QueueOp) : Nonempty (QueueAns o) := by
  cases o with
  | issue o => exact issueAns_nonempty o
  | getPendingByIdempotencyKey key => exact ⟨.error .notFound⟩
  | newHandleID => exact ⟨.error []⟩
  | hookNow => exact ⟨Time.zero⟩
  | putPending p => exact ⟨.ok ()⟩

/-- Every state the POSTs reach. -/
theorem parking_run (hkeys : ∀ i key, Requests G V cfg (bodies i) key → key = idem)
    (hcred : ∀ c ∈ w₀.store.db.credentials, c.idempotencyKey ≠ idem)
    (hpend : ∀ p ∈ w₀.pendings, p.idempotencyKey ≠ idem)
    (hr : Run ParkHandle (fun _ _ => False) w₀ (fun i => serveQueued G V cfg h (bodies i)) tr w
      pool) : Parking h w₀ idem tr w := by
  induction hr with
  | start => exact ⟨rfl, nofun, .inl ⟨rfl, nofun⟩⟩
  | env hr he ih => exact he.elim
  | @step tr w w' pool i o k a hr hc hs ih =>
    obtain ⟨rest, r, hrest⟩ := Prog.exists_path queueAns_nonempty (k a)
    have hevents : ∀ c ∈ callsOf i tr, ParkEvent h w₀ idem c.1 c.2 :=
      fun c hm => ih.events _ (mem_callsOf.mp hm)
    obtain ⟨halloc, hput, hpark⟩ :=
      next_call (path_serveQueued_ways (hr.path_call hc hrest)) (hkeys i) hevents
    refine ih.step hcred hpend ⟨halloc, hput, fun p hp => ?_⟩ hs
    obtain ⟨view, pubMB, handle, now, hpe, hm⟩ := hpark p hp
    obtain ⟨handle', heq, hfresh⟩ := hevents _ hm
    cases heq
    exact ⟨view, pubMB, handle, now, hpe, hfresh⟩

omit [DecidableEq ι] in
/-- A valid POST with such answers is told that its ceremony is pending, and has seen one. -/
theorem accepted_pending {calls : Calls QueueOp QueueAns} {r : Response}
    (hpath : PostPath G V cfg h body calls r)
    (hevents : ∀ c ∈ calls, ParkEvent h w₀ idem c.1 c.2)
    (hacc : Accepted G V cfg body idem calls) :
    r = writeCeremonyPending h.nextURL ∧ ∃ c ∈ calls, ShowsPending idem c.1 c.2 := by
  obtain ⟨t₀, parsed₀, pub₀, rest₀, hcalls, hv₀, hsub₀, hauth₀⟩ := hacc
  cases hpath with
  | early calls r hpath hc =>
    cases hpath with
    | unread r hr => cases hcalls
    | unverified t r hr hv =>
      cases hcalls
      exact absurd hv₀ (hv parsed₀ _)
    | served t parsed key hv c =>
      obtain rfl := hv.key_unique hv₀
      have hmiss := hevents ⟨.issue (.getByIdempotencyKey key), .ok c⟩ (by simp [issueCalls]) rfl
      cases hmiss
    | unavailable t parsed key hv e hne =>
      obtain rfl := hv.key_unique hv₀
      have hmiss := hevents ⟨.issue (.getByIdempotencyKey key), .error e⟩
        (by simp [issueCalls]) rfl
      cases hmiss
      exact absurd rfl hne
    | unauthorized t parsed key hv e =>
      cases hcalls
      exact absurd (by simp) (hauth₀ cfg.issuerIdentifier parsed.req.org e)
    | subjectless t parsed key hv e hs =>
      cases hcalls
      obtain ⟨rfl, -⟩ := hv.unique hv₀
      rw [hsub₀] at hs
      cases hs
    | decided t parsed key hv pub hs d rest r hd =>
      exact absurd (by simp) (hc (csrView parsed) pub d)
  | decided t parsed key hv pub hs d hook hh rest r hd =>
    obtain rfl := hv.key_unique hv₀
    have hhook : ∀ c ∈ hook, ParkEvent h w₀ key c.1 c.2 := fun c hc =>
      hevents c (by simp [hc])
    suffices hpending : d = .ok ⟨.pending, [], h.nextURL⟩ ∧
        ∃ c ∈ hook, ShowsPending key c.1 c.2 by
      obtain ⟨rfl, c, hc, hshow⟩ := hpending
      refine ⟨?_, c, by simp [hc], hshow⟩
      cases hd with
      | pending d hout => rfl
      | rejected d hout => cases hout
      | unknown d n hout => cases hout
      | unallocated d hout t e => cases hout
      | unminted d hout t p => cases hout
      | stored d hout t c hc => cases hout
      | reread d hout t c c' hc e => cases hout
      | lost d hout t c hc e e' => cases hout
    cases hh with
    | found p =>
      rcases hhook _ List.mem_cons_self rfl with hmiss | ⟨q, hq, hnew, hurl⟩
      · cases hmiss
      · cases hq
        refine ⟨?_, _, List.mem_cons_self, rfl, p, rfl⟩
        simp only [decisionForPending, hnew, hurl]
    | unavailable e hne msg =>
      rcases hhook _ List.mem_cons_self rfl with hmiss | ⟨q, hq, -⟩
      · cases hmiss
        exact absurd rfl hne
      · cases hq
    | unencodable e he msg =>
      have hlen : pub.length = 32 := by
        unfold subjectPubFromCSR at hs
        split at hs
        · exact decodePubKey_length hs
        · cases hs
      simp only [encodePubKey, hlen, ne_eq, not_true_eq_false, if_false] at he
      cases he
    | handleless e msg =>
      obtain ⟨handle, heq, -⟩ := hhook ⟨.newHandleID, .error e⟩ (by simp)
      cases heq
    | parked pubMB handle now a he =>
      have hput := hhook ⟨.putPending (h.pending (csrView parsed) key pubMB handle now), a⟩
        (by simp)
      obtain rfl : a = .ok () := hput
      exact ⟨rfl, ⟨.putPending (h.pending (csrView parsed) key pubMB handle now), .ok ()⟩, by simp,
        trivial⟩

/-- In every interleaving of any number of POSTs with one idempotency key, new to the issuer,
in which no POST parks a ceremony between the lookup and the insert of another: there is never
more than one ceremony for the key, and once a valid POST has finished it was answered 409
`ceremony_pending` and there is exactly one. -/
theorem parked_once (hkeys : ∀ i key, Requests G V cfg (bodies i) key → key = idem)
    (hcred : ∀ c ∈ w₀.store.db.credentials, c.idempotencyKey ≠ idem)
    (hpend : ∀ p ∈ w₀.pendings, p.idempotencyKey ≠ idem)
    (hr : Run ParkHandle (fun _ _ => False) w₀ (fun i => serveQueued G V cfg h (bodies i)) tr w
      pool) :
    (w.pendings.filter (·.idempotencyKey == idem)).length ≤ 1 ∧
      ∀ i r, pool i = .ret r → Accepted G V cfg (bodies i) idem (callsOf i tr) →
        r = writeCeremonyPending h.nextURL ∧
          (w.pendings.filter (·.idempotencyKey == idem)).length = 1 := by
  have hp := parking_run hkeys hcred hpend hr
  have hempty : w₀.pendings.filter (·.idempotencyKey == idem) = [] := by
    rw [List.filter_eq_nil_iff]
    intro p hm heq
    exact hpend p hm (by simpa using heq)
  have hone : ∀ p, w.pendings = w₀.pendings ++ [p] → p.idempotencyKey = idem →
      (w.pendings.filter (·.idempotencyKey == idem)).length = 1 := by
    intro p hrows hkey
    rw [hrows, List.filter_append, hempty]
    simp [hkey]
  refine ⟨?_, fun i r hret hacc => ?_⟩
  · rcases hp.rows with ⟨hsame, -⟩ | ⟨p, hrows, hkey, -⟩
    · rw [hsame, hempty]
      exact Nat.zero_le _
    · exact (hone p hrows hkey).le
  · have hdone : Prog.Path (pool i) [] r := by
      rw [hret]
      exact .ret r
    have hpath := hr.path hdone
    rw [List.append_nil] at hpath
    obtain ⟨hresponse, c, hc, hshow⟩ := accepted_pending (path_serveQueued_ways hpath)
      (fun c hm => hp.events _ (mem_callsOf.mp hm)) hacc
    refine ⟨hresponse, ?_⟩
    rcases hp.rows with ⟨-, hnone⟩ | ⟨p, hrows, hkey, -⟩
    · exact absurd hshow (hnone _ (mem_callsOf.mp hc))
    · exact hone p hrows hkey

end

/-! ## Two first requests -/

theorem desk_sub : subjectPubFromCSR deskRuntime racePayload = .ok attackerKey := by
  decide

/-- The calls of a first request up to the hook. -/
def openCalls (key org : Bytes) : Calls QueueOp QueueAns :=
  [⟨.issue .now, Time.ofUnix 200⟩, ⟨.issue (.getByIdempotencyKey key), .error .notFound⟩,
    ⟨.issue (.authorize raceConfig.issuerIdentifier org), .ok ()⟩]

/-- And up to the lookup of its ceremony. -/
def lookupCalls : Calls QueueOp QueueAns :=
  openCalls raceKey racePayload.req.org ++
    [⟨.getPendingByIdempotencyKey raceKey, .error .notFound⟩]

/-- And from there to the answer of its insert. -/
def parkCalls (handle : Bytes) (a : Except StoreError Unit) : Calls QueueOp QueueAns :=
  [⟨.newHandleID, .ok handle⟩, ⟨.hookNow, Time.ofUnix 200⟩,
    ⟨.putPending (deskHook.pending (csrView racePayload) raceKey racePayload.iss handle
      (Time.ofUnix 200)), a⟩]

theorem desk_accepted (handle : Bytes) (a : Except StoreError Unit) :
    Accepted deskRuntime deskVerifier raceConfig (some raceToken) raceKey
      (lookupCalls ++ parkCalls handle a) := by
  refine ⟨_, _, _, _, rfl, first_verified, desk_sub, ?_⟩
  simp [parkCalls]

theorem desk_path (handle : Bytes) (a : Except StoreError Unit) {r : Response}
    (hact : Prog.Path (actOnDecision deskRuntime raceConfig racePayload raceKey
      (deskHook.afterPark a)) [] r) :
    Prog.Path (serveQueued deskRuntime deskVerifier raceConfig deskHook (some raceToken))
      (lookupCalls ++ parkCalls handle a) r := by
  have henc : encodePubKey attackerKey = .ok racePayload.iss := by decide +kernel
  obtain ⟨-, -, -, -, hk⟩ := first_verified
  have hhook : Prog.Path (deskHook.evaluate deskRuntime (csrView racePayload) attackerKey) _ _ :=
    path_of_parked handle (Time.ofUnix 200) a hk henc
  exact path_of_hook first_verified desk_sub hhook hact

/-- Both requests have looked for a ceremony. -/
def deskLooked : QueueState := ⟨raceStore 0 [], [], Time.ofUnix 200⟩

theorem looked_evolves {w : QueueState} (hw : w.store = raceStore 0 [] ∧ w.pendings = [])
    (ht : w.clock.nanos ≤ (Time.ofUnix 200).nanos) :
    Evolves QueueHandle w lookupCalls deskLooked := by
  obtain ⟨store, pendings, clock⟩ := w
  obtain ⟨rfl, rfl⟩ := hw
  have hnow : QueueHandle ⟨raceStore 0 [], [], clock⟩ (.issue .now) (Time.ofUnix 200) deskLooked :=
    .now _ _ ht
  exact .cons hnow (.cons (.get deskLooked raceKey) (.cons (.authorize deskLooked _ _ _)
    (.cons (.getPending deskLooked raceKey) (.nil _))))

theorem park_evolves : Evolves ParkHandle deskLooked (parkCalls deskHandle (.ok ()))
    (deskParked (deskPending .new [])) := by
  have hnew : ParkHandle deskLooked .newHandleID (.ok deskHandle) deskLooked :=
    ⟨.newHandle _ _ List.not_mem_nil, trivial⟩
  have hnow : ParkHandle deskLooked .hookNow (Time.ofUnix 200) deskLooked :=
    ⟨.hookNow _ _ le_rfl, trivial⟩
  have hput : ParkHandle deskLooked (.putPending (deskPending .new [])) (.ok ())
      (deskParked (deskPending .new [])) :=
    ⟨.putPending deskLooked (deskPending .new []) (Time.ofUnix 200), List.not_mem_nil⟩
  exact .cons hnew (.cons hnow (.cons hput (.nil _)))

/-- A second handle, and the error of the insert under it. -/
def otherHandle : Bytes := bytes "ffeeddccbbaa99887766554433221100"

def takenKey : StoreError :=
  .failure "sqlitestore: upsert pending: UNIQUE constraint failed: issuer_pendings.idempotency_key"

theorem refused_evolves : Evolves QueueHandle (deskParked (deskPending .new []))
    (parkCalls otherHandle (.error takenKey)) (deskParked (deskPending .new [])) := by
  have hnew : QueueHandle (deskParked (deskPending .new [])) .newHandleID (.ok otherHandle)
      (deskParked (deskPending .new [])) := .newHandle _ _ (by decide)
  have hnow : QueueHandle (deskParked (deskPending .new [])) .hookNow (Time.ofUnix 200)
      (deskParked (deskPending .new [])) := .hookNow _ _ le_rfl
  have hput := QueueHandle.putPending (deskParked (deskPending .new []))
    (deskHook.pending (csrView racePayload) raceKey racePayload.iss otherHandle (Time.ofUnix 200))
    (Time.ofUnix 200)
  have htaken : putPending (deskParked (deskPending .new [])).pendings
      (deskHook.pending (csrView racePayload) raceKey racePayload.iss otherHandle
        (Time.ofUnix 200)) (Time.ofUnix 200) = .error takenKey := by
    decide
  rw [htaken] at hput
  exact .cons hnew (.cons hnow (.cons hput (.nil _)))

/-- Two first requests both miss the lookup; the insert of the second fails and it is answered
with a 500. -/
theorem parked_twice : deskStart.store.db.credentials = [] ∧ deskStart.pendings = [] ∧
    ∃ tr w pool r, Run QueueHandle (fun _ _ => False) deskStart
      (fun _ : Bool => serveQueued deskRuntime deskVerifier raceConfig deskHook (some raceToken)) tr
      w pool ∧
    (∀ i, Accepted deskRuntime deskVerifier raceConfig (some raceToken) raceKey (callsOf i tr)) ∧
    pool false = .ret r ∧ r.status = 500 := by
  have hfirst := desk_path deskHandle (.ok ()) (.ret _)
  have hsecond := desk_path otherHandle (.error takenKey) (.ret _)
  have hpark : Evolves QueueHandle deskLooked (parkCalls deskHandle (.ok ()))
      (deskParked (deskPending .new [])) := park_evolves.map (f := id) fun _ _ _ _ hh => hh.1
  -- Both requests look up.
  have hlook₁ : Evolves QueueHandle deskStart lookupCalls deskLooked :=
    looked_evolves ⟨rfl, rfl⟩ (by decide)
  have hlook₂ : Evolves QueueHandle deskLooked lookupCalls deskLooked :=
    looked_evolves ⟨rfl, rfl⟩ le_rfl
  have hstart : Run QueueHandle (fun _ _ => False) deskStart
      (fun _ : Bool => serveQueued deskRuntime deskVerifier raceConfig deskHook (some raceToken)) []
      deskStart _ := .start
  -- Then the first parks its ceremony, and the second fails to.
  obtain ⟨pool, hr, -, hret⟩ := hstart.overlap (i := true) (j := false) (by decide) hfirst hsecond
    hlook₁ hlook₂ hpark refused_evolves
  refine ⟨rfl, rfl, _, _, _, _, hr, fun i => ?_, hret, rfl⟩
  cases i with
  | true => exact desk_accepted deskHandle (.ok ())
  | false => exact desk_accepted otherHandle (.error takenKey)

/-- The lookup that finds the ceremony. -/
def findCalls : Calls QueueOp QueueAns :=
  [⟨.getPendingByIdempotencyKey raceKey, .ok (deskPending .new [])⟩]

theorem found_path :
    Prog.Path (serveQueued deskRuntime deskVerifier raceConfig deskHook (some raceToken))
      (openCalls raceKey racePayload.req.org ++ findCalls)
      (writeCeremonyPending deskHook.nextURL) := by
  obtain ⟨-, -, -, -, hk⟩ := first_verified
  have hhook : Prog.Path (deskHook.evaluate deskRuntime (csrView racePayload) attackerKey) _ _ :=
    path_of_found (deskPending .new []) hk
  exact path_of_hook first_verified desk_sub hhook (.ret (writeCeremonyPending deskHook.nextURL))

/-- Two first requests that overlap: one looks for a ceremony, the other comes up to the hook,
the first parks, and the second finds the ceremony. -/
def overlapTrace : List (Event Bool QueueOp QueueAns) :=
  lookupCalls.map (fun c => ⟨true, c.1, c.2⟩) ++
    (openCalls raceKey racePayload.req.org).map (fun c => ⟨false, c.1, c.2⟩) ++
    (parkCalls deskHandle (.ok ())).map (fun c => ⟨true, c.1, c.2⟩) ++
    findCalls.map fun c => ⟨false, c.1, c.2⟩

theorem parked_once_overlap : ∃ pool,
    Run ParkHandle (fun _ _ => False) deskStart
      (fun _ : Bool => serveQueued deskRuntime deskVerifier raceConfig deskHook (some raceToken))
      overlapTrace (deskParked (deskPending .new [])) pool ∧
    (∀ i, pool i = .ret (writeCeremonyPending deskHook.nextURL)) ∧
    ((deskParked (deskPending .new [])).pendings.filter
      (·.idempotencyKey == raceKey)).length = 1 := by
  have hlook : Evolves ParkHandle deskStart lookupCalls deskLooked := by
    have hnow : ParkHandle deskStart (.issue .now) (Time.ofUnix 200) deskLooked :=
      ⟨.now _ _ (by decide), trivial⟩
    exact .cons hnow (.cons ⟨.get deskLooked raceKey, trivial⟩ (.cons ⟨.authorize deskLooked _ _ _,
      trivial⟩ (.cons ⟨.getPending deskLooked raceKey, trivial⟩ (.nil _))))
  have hopen : Evolves ParkHandle deskLooked (openCalls raceKey racePayload.req.org)
      deskLooked := by
    have hnow : ParkHandle deskLooked (.issue .now) (Time.ofUnix 200) deskLooked :=
      ⟨.now _ _ le_rfl, trivial⟩
    exact .cons hnow (.cons ⟨.get deskLooked raceKey, trivial⟩ (.cons ⟨.authorize deskLooked _ _ _,
      trivial⟩ (.nil _)))
  have hfind : Evolves ParkHandle (deskParked (deskPending .new [])) findCalls
      (deskParked (deskPending .new [])) := by
    have hget := QueueHandle.getPending (deskParked (deskPending .new [])) raceKey
    rw [show getPendingByIdempotencyKey (deskParked (deskPending .new [])).pendings raceKey =
      .ok (deskPending .new []) by decide] at hget
    exact .cons ⟨hget, trivial⟩ (.nil _)
  have hstart : Run ParkHandle (fun _ _ => False) deskStart
      (fun _ : Bool => serveQueued deskRuntime deskVerifier raceConfig deskHook (some raceToken)) []
      deskStart _ := .start
  obtain ⟨pool, hr, htrue, hfalse⟩ := hstart.overlap (i := true) (j := false) (by decide)
    (desk_path deskHandle (.ok ()) (.ret _)) found_path hlook hopen park_evolves hfind
  have hkeys : ∀ (_ : Bool) key, Requests deskRuntime deskVerifier raceConfig (some raceToken) key →
      key = raceKey := by
    rintro - key ⟨t, parsed, hv⟩
    exact hv.key_unique first_verified
  obtain ⟨-, hall⟩ := parked_once hkeys (fun _ hc => absurd hc List.not_mem_nil)
    (fun _ hp => absurd hp List.not_mem_nil) hr
  refine ⟨pool, hr, fun i => ?_, (hall true _ htrue (desk_accepted deskHandle (.ok ()))).2⟩
  cases i with
  | true => exact htrue
  | false => exact hfalse

end Shadownet.Issuer
