import Shadownet.Issuer.Issuance
import Shadownet.Issuer.Paths
import Shadownet.Issuer.Queue

/-!
# The issuer with the queue hook

The state of the issuer, what each call of a POST does to it, and the ways through a POST: the
calls of `serveIssue` with those of the hook in place of its answer. `PostEffect` says what a
whole POST leaves behind: nothing, a parked ceremony under a new key, or a credential under a
key whose ceremony is approved.
-/

namespace Shadownet.Issuer

open Foundation Go

/-! ## The system -/

/-- The store, its table `issuer_pendings` and the time. -/
structure QueueState where
  store : Store
  pendings : List Pending
  clock : Time
  deriving DecidableEq

/-- The state after a write to the table of ceremonies. -/
def QueueState.commit (w : QueueState) :
    Except StoreError (List Pending) → Except StoreError Unit × QueueState
  | .ok rows => (.ok (), { w with pendings := rows })
  | .error e => (.error e, w)

/-- What a call of a POST may answer and do. A reading of the clock moves it on, and a new
handle is not in the table. -/
inductive QueueHandle : QueueState → (o : QueueOp) → QueueAns o → QueueState → Prop
  | now (w : QueueState) (t : Time) (ht : w.clock.nanos ≤ t.nanos) :
      QueueHandle w (.issue .now) t { w with clock := t }
  | authorize (w : QueueState) (iss org : Bytes) (a : GoM Unit) :
      QueueHandle w (.issue (.authorize iss org)) a w
  | get (w : QueueState) (key : Bytes) :
      QueueHandle w (.issue (.getByIdempotencyKey key)) (w.store.db.getByIdempotencyKey key) w
  | allocate (w : QueueState) (exp now : Time) :
      QueueHandle w (.issue (.allocateIndex exp)) (w.store.allocateIndex exp now).2
        { w with store := (w.store.allocateIndex exp now).1 }
  | put (w : QueueState) (c : CredentialRow) :
      QueueHandle w (.issue (.putCredential c)) (w.store.putCredential c).2
        { w with store := (w.store.putCredential c).1 }
  | getPending (w : QueueState) (key : Bytes) :
      QueueHandle w (.getPendingByIdempotencyKey key)
        (getPendingByIdempotencyKey w.pendings key) w
  | newHandle (w : QueueState) (handle : Bytes)
      (hfresh : handle ∉ w.pendings.map Pending.handleID) :
      QueueHandle w .newHandleID (.ok handle) w
  | hookNow (w : QueueState) (t : Time) (ht : w.clock.nanos ≤ t.nanos) :
      QueueHandle w .hookNow t { w with clock := t }
  | putPending (w : QueueState) (p : Pending) (now : Time) :
      QueueHandle w (.putPending p) (w.commit (putPending w.pendings p now)).1
        (w.commit (putPending w.pendings p now)).2

/-- The answers of a store or a source of randomness that failed. -/
def Faulted : (o : QueueOp) → QueueAns o → Prop
  | .issue (.getByIdempotencyKey _), .error (.failure _) => True
  | .issue (.allocateIndex _), .error (.failure _) => True
  | .issue (.putCredential _), .error (.failure _) => True
  | .getPendingByIdempotencyKey _, .error (.failure _) => True
  | .newHandleID, .error _ => True
  | .putPending _, .error (.failure _) => True
  | _, _ => False

/-- A call may also fail without effect. -/
inductive QueueFaulty : QueueState → (o : QueueOp) → QueueAns o → QueueState → Prop
  | fine {w w' : QueueState} {o : QueueOp} {a : QueueAns o} (h : QueueHandle w o a w') :
      QueueFaulty w o a w'
  | fault (w : QueueState) (o : QueueOp) (a : QueueAns o) (h : Faulted o a) :
      QueueFaulty w o a w

/-! ## The ways through a POST -/

section
variable (G : Runtime) (V : Verifier) (cfg : HandlerConfig) (h : Hook)

/-- The ways through `Hook.Evaluate` for a request with the key `idem`. -/
inductive HookPath (view : CsrView) (pub idem : Bytes) :
    Calls QueueOp QueueAns → GoM Decision → Prop
  | found (p : Pending) :
      HookPath view pub idem [⟨.getPendingByIdempotencyKey idem, .ok p⟩]
        (.ok (decisionForPending p))
  | unavailable (e : StoreError) (he : e ≠ .notFound) (msg : Bytes) :
      HookPath view pub idem [⟨.getPendingByIdempotencyKey idem, .error e⟩] (.error msg)
  | unencodable (e : Bytes) (he : encodePubKey pub = .error e) (msg : Bytes) :
      HookPath view pub idem [⟨.getPendingByIdempotencyKey idem, .error .notFound⟩] (.error msg)
  | handleless (e msg : Bytes) :
      HookPath view pub idem
        [⟨.getPendingByIdempotencyKey idem, .error .notFound⟩, ⟨.newHandleID, .error e⟩]
        (.error msg)
  | parked (pubMB handle : Bytes) (now : Time) (a : Except StoreError Unit)
      (he : encodePubKey pub = .ok pubMB) :
      HookPath view pub idem
        [⟨.getPendingByIdempotencyKey idem, .error .notFound⟩, ⟨.newHandleID, .ok handle⟩,
          ⟨.hookNow, now⟩, ⟨.putPending (h.pending view idem pubMB handle now), a⟩]
        (h.afterPark a)

/-- The calls of the handler, as calls of the issuer. -/
def issueCalls (calls : Calls IssueOp IssueAns) : Calls QueueOp QueueAns :=
  calls.map fun c => ⟨.issue c.1, c.2⟩

/-- The ways through a POST: one that ends before the hook, or one through the hook. -/
inductive PostPath (body : Option Bytes) : Calls QueueOp QueueAns → Response → Prop
  | early (calls : Calls IssueOp IssueAns) (r : Response) (hp : IssuePath G V cfg body calls r)
      (hc : ∀ view pub a, ⟨.evaluate view pub, a⟩ ∉ calls) :
      PostPath body (issueCalls calls) r
  | decided (t : Time) (parsed : CsrPayload) (idem : Bytes)
      (hv : Verified G V cfg body t parsed idem) (pub : Bytes)
      (hs : subjectPubFromCSR G parsed = .ok pub) (d : GoM Decision)
      (hook : Calls QueueOp QueueAns) (hh : HookPath h (csrView parsed) pub idem hook d)
      (rest : Calls IssueOp IssueAns) (r : Response)
      (hd : DecisionPath G cfg parsed idem d rest r) :
      PostPath body
        (⟨.issue .now, t⟩ :: ⟨.issue (.getByIdempotencyKey idem), .error .notFound⟩ ::
          ⟨.issue (.authorize cfg.issuerIdentifier parsed.req.org), .ok ()⟩ ::
          (hook ++ issueCalls rest)) r

end

variable {G : Runtime} {V : Verifier} {cfg : HandlerConfig} {h : Hook} {body : Option Bytes}
  {calls : Calls QueueOp QueueAns} {r : Response}

theorem path_evaluate_ways {view : CsrView} {pub idem : Bytes} {d : GoM Decision}
    (hk : idempotencyKey G view.iss view.aud ⟨view.kind, view.org⟩ = .ok idem)
    (hp : Prog.Path (h.evaluate G view pub) calls d) : HookPath h view pub idem calls d := by
  rw [Hook.evaluate, hk] at hp
  obtain ⟨found, rest, rfl, hfound⟩ := Prog.path_call.mp hp
  unfold Hook.afterLookup at hfound
  split at hfound
  · obtain ⟨rfl, rfl⟩ := Prog.path_ret.mp hfound
    exact .found _
  · split at hfound
    · obtain ⟨rfl, rfl⟩ := Prog.path_ret.mp hfound
      exact .unencodable _ ‹_› _
    · obtain ⟨handle, rest, rfl, hhandle⟩ := Prog.path_call.mp hfound
      cases handle with
      | error e =>
        obtain ⟨rfl, rfl⟩ := Prog.path_ret.mp hhandle
        exact .handleless e _
      | ok handle =>
        obtain ⟨now, rest, rfl, hnow⟩ := Prog.path_call.mp hhandle
        obtain ⟨a, rest, rfl, hput⟩ := Prog.path_call.mp hnow
        obtain ⟨rfl, rfl⟩ := Prog.path_ret.mp hput
        exact .parked _ handle now a ‹_›
  · rename_i e he
    obtain ⟨rfl, rfl⟩ := Prog.path_ret.mp hfound
    exact .unavailable e (fun hnf => he (hnf ▸ rfl)) _

/-- A call other than the hook's stays one call. -/
theorem expands_issue {o : IssueOp} {a : IssueAns o} {outer : Calls IssueOp IssueAns}
    (ho : ∀ view pub, o ≠ .evaluate view pub)
    (he : Prog.Expands (h.answers G) (⟨o, a⟩ :: outer) calls) :
    ∃ rest, calls = ⟨.issue o, a⟩ :: rest ∧ Prog.Expands (h.answers G) outer rest := by
  cases he with
  | cons hp hrest =>
    have hone : ∀ {o : IssueOp} {c : Calls QueueOp QueueAns} {a : IssueAns o},
        Prog.Path (.call (.issue o) .ret : QueueProg (IssueAns o)) c a → c = [⟨.issue o, a⟩] := by
      intro o c a hp
      obtain ⟨b, rest, rfl, hret⟩ := Prog.path_call.mp hp
      obtain ⟨rfl, rfl⟩ := Prog.path_ret.mp hret
      rfl
    cases o with
    | evaluate view pub => exact absurd rfl (ho view pub)
    | now => exact ⟨_, by rw [hone hp]; rfl, hrest⟩
    | authorize iss org => exact ⟨_, by rw [hone hp]; rfl, hrest⟩
    | getByIdempotencyKey key => exact ⟨_, by rw [hone hp]; rfl, hrest⟩
    | allocateIndex exp => exact ⟨_, by rw [hone hp]; rfl, hrest⟩
    | putCredential c => exact ⟨_, by rw [hone hp]; rfl, hrest⟩

theorem expands_issueCalls {outer : Calls IssueOp IssueAns}
    (ho : ∀ view pub a, ⟨.evaluate view pub, a⟩ ∉ outer)
    (he : Prog.Expands (h.answers G) outer calls) : calls = issueCalls outer := by
  induction outer generalizing calls with
  | nil =>
    cases he
    rfl
  | cons c outer ih =>
    obtain ⟨o, a⟩ := c
    obtain ⟨rest, rfl, hrest⟩ := expands_issue
      (fun view pub heq => ho view pub (heq ▸ a) (by subst heq; exact List.mem_cons_self)) he
    rw [ih (fun view pub a hm => ho view pub a (List.mem_cons_of_mem _ hm)) hrest]
    rfl

/-- After the hook's answer the handler does not ask it again. -/
theorem DecisionPath.not_evaluate {parsed : CsrPayload} {idem : Bytes} {d : GoM Decision}
    {rest : Calls IssueOp IssueAns} (hd : DecisionPath G cfg parsed idem d rest r)
    (view : CsrView) (pub : Bytes) (a : GoM Decision) : ⟨.evaluate view pub, a⟩ ∉ rest := by
  cases hd <;> simp

/-- A POST takes one of the ways. -/
theorem path_serveQueued_ways (hp : Prog.Path (serveQueued G V cfg h body) calls r) :
    PostPath G V cfg h body calls r := by
  obtain ⟨outer, hpath, he⟩ := Prog.path_interp.mp hp
  have hways := path_serveIssue_ways hpath
  cases hways with
  | decided t parsed idem hv pub hs d rest r hd =>
    obtain ⟨c₁, rfl, he₁⟩ := expands_issue (by simp) he
    obtain ⟨c₂, rfl, he₂⟩ := expands_issue (by simp) he₁
    obtain ⟨c₃, rfl, he₃⟩ := expands_issue (by simp) he₂
    cases he₃ with
    | cons hhook hrest =>
      rw [expands_issueCalls hd.not_evaluate hrest]
      obtain ⟨data, -, -, -, hi⟩ := id hv
      exact .decided t parsed idem hv pub hs d _ (path_evaluate_ways hi hhook) rest r hd
  | _ =>
    rw [expands_issueCalls (by simp) he]
    exact .early _ _ (path_serveIssue_ways hpath) (by simp)

/-! The way to the hook and through it. -/

theorem expands_of_issueCalls {outer : Calls IssueOp IssueAns}
    (ho : ∀ view pub a, ⟨.evaluate view pub, a⟩ ∉ outer) :
    Prog.Expands (h.answers G) outer (issueCalls outer) := by
  induction outer with
  | nil => exact .nil
  | cons c outer ih =>
    obtain ⟨o, a⟩ := c
    have hrest := ih fun view pub a hm => ho view pub a (List.mem_cons_of_mem _ hm)
    have hone : Prog.Path (h.answers G o) [⟨.issue o, a⟩] a := by
      cases o with
      | evaluate view pub => exact absurd List.mem_cons_self (ho view pub a)
      | _ => exact .call _ _ _ _ _ (.ret _)
    exact .cons hone hrest

/-- A verified and authorized request whose key is new goes through the hook. -/
theorem path_of_hook {t : Time} {parsed : CsrPayload} {idem pub : Bytes} {d : GoM Decision}
    {hook : Calls QueueOp QueueAns} {rest : Calls IssueOp IssueAns}
    (hv : Verified G V cfg body t parsed idem) (hs : subjectPubFromCSR G parsed = .ok pub)
    (hh : Prog.Path (h.evaluate G (csrView parsed) pub) hook d)
    (hact : Prog.Path (actOnDecision G cfg parsed idem d) rest r) :
    Prog.Path (serveQueued G V cfg h body)
      (⟨.issue .now, t⟩ :: ⟨.issue (.getByIdempotencyKey idem), .error .notFound⟩ ::
        ⟨.issue (.authorize cfg.issuerIdentifier parsed.req.org), .ok ()⟩ ::
        (hook ++ issueCalls rest)) r := by
  refine Prog.path_interp.mpr ⟨_, path_of_decision hv hs hact, ?_⟩
  have hrest : Prog.Expands (h.answers G) rest (issueCalls rest) :=
    expands_of_issueCalls (path_actOnDecision_ways hact).not_evaluate
  have hnow : Prog.Path (h.answers G .now) [⟨.issue .now, t⟩] t := .call _ _ _ _ _ (.ret _)
  have hget : Prog.Path (h.answers G (.getByIdempotencyKey idem))
      [⟨.issue (.getByIdempotencyKey idem), .error .notFound⟩] (.error .notFound) :=
    .call _ _ _ _ _ (.ret _)
  have hauth : Prog.Path (h.answers G (.authorize cfg.issuerIdentifier parsed.req.org))
      [⟨.issue (.authorize cfg.issuerIdentifier parsed.req.org), .ok ()⟩] (.ok ()) :=
    .call _ _ _ _ _ (.ret _)
  have hask : Prog.Path (h.answers G (.evaluate (csrView parsed) pub)) hook d := hh
  exact .cons hnow (.cons hget (.cons hauth (.cons hask hrest)))

theorem path_of_found {view : CsrView} {pub idem : Bytes} (p : Pending)
    (hk : idempotencyKey G view.iss view.aud ⟨view.kind, view.org⟩ = .ok idem) :
    Prog.Path (h.evaluate G view pub) [⟨.getPendingByIdempotencyKey idem, .ok p⟩]
      (.ok (decisionForPending p)) := by
  rw [Hook.evaluate, hk]
  exact .call _ _ _ _ _ (.ret _)

theorem path_of_parked {view : CsrView} {pub idem pubMB : Bytes} (handle : Bytes) (now : Time)
    (a : Except StoreError Unit)
    (hk : idempotencyKey G view.iss view.aud ⟨view.kind, view.org⟩ = .ok idem)
    (he : encodePubKey pub = .ok pubMB) :
    Prog.Path (h.evaluate G view pub)
      [⟨.getPendingByIdempotencyKey idem, .error .notFound⟩, ⟨.newHandleID, .ok handle⟩,
        ⟨.hookNow, now⟩, ⟨.putPending (h.pending view idem pubMB handle now), a⟩]
      (h.afterPark a) := by
  have hmiss : h.afterLookup view pub idem (.error .notFound) =
      .call .newHandleID (h.afterHandle view idem pubMB) := by
    simp only [Hook.afterLookup, he]
  rw [Hook.evaluate, hk]
  refine .call _ _ _ _ _ ?_
  rw [hmiss]
  exact .call _ _ _ _ _ (.call _ _ _ _ _ (.call _ _ _ _ _ (.ret _)))

/-! ## The table of ceremonies -/

section
variable {rows : List Pending} {key : Bytes} {p : Pending}

theorem getPending_ok (hg : getPendingByIdempotencyKey rows key = .ok p) :
    p ∈ rows ∧ p.idempotencyKey = key := by
  unfold getPendingByIdempotencyKey at hg
  split at hg
  · rename_i q hq
    obtain rfl := pure_eq_ok.mp hg
    exact ⟨List.mem_of_find?_eq_some hq, by simpa using List.find?_some hq⟩
  · exact absurd hg (by simp)

theorem getPending_of_not_mem (hk : key ∉ rows.map Pending.idempotencyKey) :
    getPendingByIdempotencyKey rows key = .error .notFound := by
  have hnone : rows.find? (·.idempotencyKey == key) = none := by
    rw [List.find?_eq_none]
    intro q hq heq
    exact hk (List.mem_map.mpr ⟨q, hq, by simpa using heq⟩)
  simp [getPendingByIdempotencyKey, hnone]
  rfl

/-- Keys are unique, so the lookup finds the row. -/
theorem getPending_of_mem (hn : (rows.map Pending.idempotencyKey).Nodup) (hp : p ∈ rows) :
    getPendingByIdempotencyKey rows p.idempotencyKey = .ok p := by
  cases hg : getPendingByIdempotencyKey rows p.idempotencyKey with
  | ok q =>
    obtain ⟨hq, hkey⟩ := getPending_ok hg
    rw [List.inj_on_of_nodup_map hn hq hp hkey]
  | error e =>
    exfalso
    unfold getPendingByIdempotencyKey at hg
    split at hg
    · cases hg
    · rename_i hnone
      exact absurd (List.find?_eq_none.mp hnone p hp) (by simp)

/-- A park under a new handle appends a row, unless the key is taken. -/
theorem putPending_fresh {now : Time} (hh : p.handleID ∉ rows.map Pending.handleID) :
    putPending rows p now =
      if p.idempotencyKey ∈ rows.map Pending.idempotencyKey then
        .error (.failure ("sqlitestore: upsert pending: UNIQUE constraint failed: " ++
          "issuer_pendings.idempotency_key"))
      else .ok (rows ++ [p.row now]) := by
  have hnone : rows.any (·.handleID == (p.row now).handleID) = false := by
    rw [List.any_eq_false]
    intro q hq heq
    exact hh (List.mem_map.mpr ⟨q, hq, by simpa [Pending.row] using heq⟩)
  have hkey : rows.any (·.idempotencyKey == (p.row now).idempotencyKey) = true ↔
      p.idempotencyKey ∈ rows.map Pending.idempotencyKey := by
    simp [List.any_eq_true, Pending.row]
  simp only [putPending, hnone, Bool.false_eq_true, if_false, hkey]
  rfl

end

/-! ## What a call does -/

/-- The rows, seen from the claims about them: the credentials, the ceremonies, and a clock
that does not go back. -/
structure Unchanged (w w' : QueueState) : Prop where
  sound : w'.store.Sound
  clock : w.clock.nanos ≤ w'.clock.nanos
  credentials : w'.store.db.credentials = w.store.db.credentials
  pendings : w'.pendings = w.pendings

theorem Unchanged.trans {w₁ w₂ w₃ : QueueState} (h₁ : Unchanged w₁ w₂) (h₂ : Unchanged w₂ w₃) :
    Unchanged w₁ w₃ :=
  ⟨h₂.sound, h₁.clock.trans h₂.clock, h₂.credentials.trans h₁.credentials,
    h₂.pendings.trans h₁.pendings⟩

/-- The effect of a call: none on the rows, a new credential, or a write to the ceremonies. -/
inductive QueueEffect (w : QueueState) : (o : QueueOp) → QueueAns o → QueueState → Prop
  | idle (o : QueueOp) (a : QueueAns o) (w' : QueueState) (hu : Unchanged w w') :
      QueueEffect w o a w'
  | stored (c : CredentialRow) (s : Store) (hs : s.Sound)
      (hc : s.db.credentials = w.store.db.credentials ++ [c]) :
      QueueEffect w (.issue (.putCredential c)) (.ok ()) { w with store := s }
  | parked (p : Pending) (now : Time) (rows : List Pending)
      (hp : putPending w.pendings p now = .ok rows) :
      QueueEffect w (.putPending p) (.ok ()) { w with pendings := rows }

theorem queue_effect {w w' : QueueState} {o : QueueOp} {a : QueueAns o} (hs : w.store.Sound)
    (hh : QueueFaulty w o a w') : QueueEffect w o a w' := by
  have hsame : ∀ {o : QueueOp} {a : QueueAns o}, QueueEffect w o a w :=
    .idle _ _ _ ⟨hs, le_rfl, rfl, rfl⟩
  cases hh with
  | fault o a hf => exact hsame
  | fine hq =>
    cases hq with
    | now t ht => exact .idle _ _ _ ⟨hs, ht, rfl, rfl⟩
    | authorize iss org a => exact hsame
    | get key => exact hsame
    | getPending key => exact hsame
    | newHandle handle hfresh => exact hsame
    | hookNow t ht => exact .idle _ _ _ ⟨hs, ht, rfl, rfl⟩
    | allocate exp now =>
      refine .idle _ _ _ ⟨hs.step (.allocateIndex exp now), le_rfl, ?_, rfl⟩
      exact step_credentials hs (.allocateIndex exp now)
    | put c =>
      cases hp : w.store.db.putCredential c with
      | error e =>
        simp only [Store.putCredential, Store.commit, hp, Except.map]
        exact hsame
      | ok db =>
        obtain ⟨hcred, hep, -⟩ := putCredential_ok hp
        simp only [Store.putCredential, Store.commit, hp, Except.map]
        exact .stored c _ ⟨hep ▸ hs.table, hs.max_pos⟩ hcred
    | putPending p now =>
      cases hp : putPending w.pendings p now with
      | error e => exact hsame
      | ok rows => exact .parked p now rows hp

/-- The calls that write no row. -/
def Quiet : QueueOp → Prop
  | .issue (.putCredential _) => False
  | .putPending _ => False
  | _ => True

theorem evolves_quiet {w w' : QueueState} (hs : w.store.Sound) (hq : ∀ c ∈ calls, Quiet c.1)
    (he : Evolves QueueFaulty w calls w') : Unchanged w w' := by
  induction he with
  | nil w => exact ⟨hs, le_rfl, rfl, rfl⟩
  | @cons w w₁ w' o a calls hh he ih =>
    have hfirst : Unchanged w w₁ := by
      have hquiet := hq ⟨o, a⟩ List.mem_cons_self
      cases queue_effect hs hh with
      | idle o a w' hu => exact hu
      | stored c s hs hc => exact hquiet.elim
      | parked p now rows hp => exact hquiet.elim
    exact hfirst.trans (ih hfirst.sound fun c hc => hq c (List.mem_cons_of_mem _ hc))

/-! ## What a POST does -/

/-- The rows of a state after a POST, or a part of it, against those before. -/
structure PostEffect (w w' : QueueState) : Prop where
  sound : w'.store.Sound
  clock : w.clock.nanos ≤ w'.clock.nanos
  pendings : w'.pendings = w.pendings ∨ ∃ p, w'.pendings = w.pendings ++ [p] ∧
    p.idempotencyKey ∉ w.pendings.map Pending.idempotencyKey ∧
    p.handleID ∉ w.pendings.map Pending.handleID
  credentials : w'.store.db.credentials = w.store.db.credentials ∨
    ∃ c p, w'.store.db.credentials = w.store.db.credentials ++ [c] ∧ p ∈ w.pendings ∧
      p.idempotencyKey = c.idempotencyKey ∧ p.status = .approved

theorem Unchanged.effect {w w' : QueueState} (hu : Unchanged w w') : PostEffect w w' :=
  ⟨hu.sound, hu.clock, .inl hu.pendings, .inl hu.credentials⟩

theorem PostEffect.after_unchanged {w₁ w₂ w₃ : QueueState} (h₁ : Unchanged w₁ w₂)
    (h₂ : PostEffect w₂ w₃) : PostEffect w₁ w₃ := by
  obtain ⟨hs, hclock, hp, hc⟩ := h₂
  rw [h₁.pendings] at hp hc
  rw [h₁.credentials] at hc
  exact ⟨hs, h₁.clock.trans hclock, hp, hc⟩

theorem PostEffect.then_unchanged {w₁ w₂ w₃ : QueueState} (h₁ : PostEffect w₁ w₂)
    (h₂ : Unchanged w₂ w₃) : PostEffect w₁ w₃ := by
  obtain ⟨hs, hclock, hp, hc⟩ := h₁
  rw [← h₂.pendings] at hp
  rw [← h₂.credentials] at hc
  exact ⟨h₂.sound, hclock.trans h₂.clock, hp, hc⟩

variable {w w' : QueueState} {parsed : CsrPayload} {idem pub : Bytes} {d : GoM Decision}

/-- The hook starts with the lookup of the ceremony. -/
theorem HookPath.lookup (hh : HookPath h (csrView parsed) pub idem calls d) :
    ∃ a rest, calls = ⟨.getPendingByIdempotencyKey idem, a⟩ :: rest := by
  cases hh <;> exact ⟨_, _, rfl⟩

/-- A ceremony it finds is mirrored. -/
theorem HookPath.of_found {p : Pending} {more : Calls QueueOp QueueAns}
    (hh : HookPath h (csrView parsed) pub idem
      (⟨.getPendingByIdempotencyKey idem, .ok p⟩ :: more) d) : d = .ok (decisionForPending p) := by
  cases hh
  rfl

/-- A lookup that fails makes the hook fail. -/
theorem HookPath.of_failure {msg : String} {more : Calls QueueOp QueueAns}
    (hh : HookPath h (csrView parsed) pub idem
      (⟨.getPendingByIdempotencyKey idem, .error (.failure msg)⟩ :: more) d) :
    ∃ e, d = .error e := by
  cases hh
  exact ⟨_, rfl⟩

/-- The hook approves only a ceremony it found approved. -/
theorem HookPath.of_approve {dec : Decision}
    (hh : HookPath h (csrView parsed) pub idem calls (.ok dec)) (hd : dec.outcome = .approve) :
    ∃ p, calls = [⟨.getPendingByIdempotencyKey idem, .ok p⟩] ∧ p.status = .approved := by
  generalize hans : (Except.ok dec : GoM Decision) = d at hh
  cases hh with
  | found p =>
    cases hans
    refine ⟨p, rfl, ?_⟩
    unfold decisionForPending at hd
    split at hd
    · assumption
    · cases hd
    · cases hd
  | parked pubMB handle now a he =>
    cases a with
    | ok u =>
      cases hans
      cases hd
    | error e => cases hans
  | _ => cases hans

/-- After a decision the handler goes on only when it is an approval. -/
theorem DecisionPath.of_ne_nil {rest : Calls IssueOp IssueAns}
    (hd : DecisionPath G cfg parsed idem d rest r) (hne : rest ≠ []) :
    ∃ dec, d = .ok dec ∧ dec.outcome = .approve := by
  cases hd with
  | failed e => exact absurd rfl hne
  | pending d hd => exact absurd rfl hne
  | rejected d hd => exact absurd rfl hne
  | unknown d n hd => exact absurd rfl hne
  | _ => exact ⟨_, rfl, ‹_›⟩

/-- What the lookup of a ceremony may answer. -/
theorem QueueFaulty.getPending {key : Bytes} {a : Except StoreError Pending}
    (hq : QueueFaulty w (.getPendingByIdempotencyKey key) a w') :
    w' = w ∧ (a = getPendingByIdempotencyKey w.pendings key ∨
      ∃ msg, a = .error (.failure msg)) := by
  cases hq with
  | fine hq =>
    cases hq with
    | getPending key => exact ⟨rfl, .inl rfl⟩
  | fault o a hf =>
    refine ⟨rfl, .inr ?_⟩
    unfold Faulted at hf
    split at hf <;> simp_all

/-- What the lookup of a credential may answer. -/
theorem QueueFaulty.get {key : Bytes} {a : Except StoreError CredentialRow}
    (hq : QueueFaulty w (.issue (.getByIdempotencyKey key)) a w') :
    w' = w ∧ (a = w.store.db.getByIdempotencyKey key ∨ ∃ msg, a = .error (.failure msg)) := by
  cases hq with
  | fine hq =>
    cases hq with
    | get key => exact ⟨rfl, .inl rfl⟩
  | fault o a hf =>
    refine ⟨rfl, .inr ?_⟩
    unfold Faulted at hf
    split at hf <;> simp_all

/-- A new handle is not in the table. -/
theorem QueueFaulty.newHandle {handle : Bytes}
    (hq : QueueFaulty w .newHandleID (.ok handle) w') :
    w' = w ∧ handle ∉ w.pendings.map Pending.handleID := by
  cases hq with
  | fine hq =>
    cases hq with
    | newHandle handle hfresh => exact ⟨rfl, hfresh⟩
  | fault o a hf => exact hf.elim

/-- What the hook does, with the ceremony an approval rests on. -/
theorem hook_effect (hs : w.store.Sound) (hh : HookPath h (csrView parsed) pub idem calls d)
    (he : Evolves QueueFaulty w calls w') :
    PostEffect w w' ∧ w'.store.db.credentials = w.store.db.credentials ∧
      ∀ dec, d = .ok dec → dec.outcome = .approve → Unchanged w w' ∧
        ∃ p, getPendingByIdempotencyKey w.pendings idem = .ok p ∧ p.status = .approved ∧
          calls = [⟨.getPendingByIdempotencyKey idem, .ok p⟩] := by
  -- an approval rests on the lookup alone
  have happrove : ∀ dec, d = .ok dec → dec.outcome = .approve → Unchanged w w' ∧
      ∃ p, getPendingByIdempotencyKey w.pendings idem = .ok p ∧ p.status = .approved ∧
        calls = [⟨.getPendingByIdempotencyKey idem, .ok p⟩] := by
    rintro dec rfl hdec
    obtain ⟨p, rfl, hstatus⟩ := hh.of_approve hdec
    refine ⟨evolves_quiet hs (by simp [Quiet]) he, p, ?_, hstatus, rfl⟩
    obtain ⟨w₁, hq, -⟩ := evolves_cons.mp he
    obtain ⟨-, ha | ⟨msg, ha⟩⟩ := hq.getPending
    · exact ha.symm
    · cases ha
  suffices hrows : PostEffect w w' ∧ w'.store.db.credentials = w.store.db.credentials from
    ⟨hrows.1, hrows.2, happrove⟩
  cases hh with
  | parked pubMB handle now a hkey =>
    obtain ⟨w₁, hget, he₁⟩ := evolves_cons.mp he
    obtain ⟨w₂, hnew, he₂⟩ := evolves_cons.mp he₁
    obtain ⟨w₃, hnow, he₃⟩ := evolves_cons.mp he₂
    obtain ⟨w₄, hput, he₄⟩ := evolves_cons.mp he₃
    obtain rfl := evolves_nil.mp he₄
    obtain ⟨rfl, hmiss | ⟨msg, hmiss⟩⟩ := hget.getPending
    swap
    · cases hmiss
    obtain ⟨rfl, hfresh⟩ := hnew.newHandle
    have hclock : Evolves QueueFaulty _ [⟨.hookNow, now⟩] w₃ := .cons hnow (.nil _)
    have hu := evolves_quiet hs (by simp [Quiet]) hclock
    refine ⟨?_, ?_⟩
    · refine .after_unchanged hu ?_
      cases queue_effect hu.sound hput with
      | idle o a w' hu' => exact hu'.effect
      | parked p now' rows hp =>
        refine ⟨hu.sound, le_rfl, .inr ?_, .inl rfl⟩
        rw [putPending_fresh (hu.pendings ▸ hfresh)] at hp
        split at hp
        · cases hp
        · rename_i hmem
          cases hp
          exact ⟨_, rfl, hmem, hu.pendings ▸ hfresh⟩
    · rw [← hu.credentials]
      cases queue_effect hu.sound hput with
      | idle o a w' hu' => exact hu'.credentials
      | parked p now' rows hp => rfl
  | _ =>
    have hu := evolves_quiet hs (by simp [Quiet]) he
    exact ⟨hu.effect, hu.credentials⟩

/-- One insert among calls that write nothing. -/
theorem evolves_put {c₁ c₂ : Calls QueueOp QueueAns} {c : CredentialRow}
    {a : Except StoreError Unit} (hs : w.store.Sound) (h₁ : ∀ x ∈ c₁, Quiet x.1)
    (h₂ : ∀ x ∈ c₂, Quiet x.1)
    (he : Evolves QueueFaulty w (c₁ ++ ⟨.issue (.putCredential c), a⟩ :: c₂) w') :
    Unchanged w w' ∨ (w'.store.Sound ∧ w.clock.nanos ≤ w'.clock.nanos ∧
      w'.pendings = w.pendings ∧
      w'.store.db.credentials = w.store.db.credentials ++ [c]) := by
  obtain ⟨w₁, he₁, he⟩ := evolves_append.mp he
  obtain ⟨w₂, hput, he₂⟩ := evolves_cons.mp he
  have hu₁ := evolves_quiet hs h₁ he₁
  cases queue_effect hu₁.sound hput with
  | idle o a w₂ hu =>
    exact .inl ((hu₁.trans hu).trans (evolves_quiet hu.sound h₂ he₂))
  | stored c s hs' hc =>
    have hu₂ := evolves_quiet (w := { w₁ with store := s }) hs' h₂ he₂
    refine .inr ⟨hu₂.sound, hu₁.clock.trans hu₂.clock, hu₂.pendings.trans hu₁.pendings, ?_⟩
    rw [hu₂.credentials, hc, hu₁.credentials]

/-- What is done on a decision: at most a credential under the request's key, and only on an
approval. -/
theorem decision_effect {rest : Calls IssueOp IssueAns} (hs : w.store.Sound)
    (hd : DecisionPath G cfg parsed idem d rest r)
    (he : Evolves QueueFaulty w (issueCalls rest) w') :
    Unchanged w w' ∨ (w'.store.Sound ∧ w.clock.nanos ≤ w'.clock.nanos ∧
      w'.pendings = w.pendings ∧ ∃ c dec,
        w'.store.db.credentials = w.store.db.credentials ++ [c] ∧ c.idempotencyKey = idem ∧
        d = .ok dec ∧ dec.outcome = .approve) := by
  have hput : ∀ {dec : Decision} {c : CredentialRow} {t : Time} {a : Except StoreError Unit}
      {c₁ c₂ : Calls IssueOp IssueAns}, dec.outcome = .approve → MintedAt G cfg parsed idem t c →
      (∀ x ∈ issueCalls c₁, Quiet x.1) → (∀ x ∈ issueCalls c₂, Quiet x.1) →
      Evolves QueueFaulty w (issueCalls c₁ ++ ⟨.issue (.putCredential c), a⟩ :: issueCalls c₂) w' →
      Unchanged w w' ∨ (w'.store.Sound ∧ w.clock.nanos ≤ w'.clock.nanos ∧
        w'.pendings = w.pendings ∧ ∃ c dec',
          w'.store.db.credentials = w.store.db.credentials ++ [c] ∧ c.idempotencyKey = idem ∧
          (Except.ok dec : GoM Decision) = .ok dec' ∧ dec'.outcome = .approve) := by
    intro dec c t a c₁ c₂ happrove hc h₁ h₂ he
    refine (evolves_put hs h₁ h₂ he).imp_right ?_
    rintro ⟨hs', hclock, hp, hcred⟩
    exact ⟨hs', hclock, hp, c, dec, hcred, by rw [hc.row]; rfl, rfl, happrove⟩
  cases hd with
  | stored dec happrove t c hc =>
    exact @hput dec c t _ [_, _] [] happrove hc (by simp [issueCalls, Quiet])
      (by simp [issueCalls]) he
  | reread dec happrove t c c' hc e =>
    exact @hput dec c t _ [_, _] [_] happrove hc (by simp [issueCalls, Quiet])
      (by simp [issueCalls, Quiet]) he
  | lost dec happrove t c hc e e' =>
    exact @hput dec c t _ [_, _] [_] happrove hc (by simp [issueCalls, Quiet])
      (by simp [issueCalls, Quiet]) he
  | _ => exact .inl (evolves_quiet hs (by simp [issueCalls, Quiet]) he)

/-- A whole POST. -/
theorem post_effect (hs : w.store.Sound) (hp : PostPath G V cfg h body calls r)
    (he : Evolves QueueFaulty w calls w') : PostEffect w w' := by
  cases hp with
  | early calls r hp hc =>
    refine (evolves_quiet hs ?_ he).effect
    cases hp with
    | decided t parsed idem hv pub hs d rest r hd =>
      exact absurd (by simp) (hc (csrView parsed) pub d)
    | _ => simp [issueCalls, Quiet]
  | decided t parsed idem hv pub hsub d hook hh rest r hd =>
    have hsplit : Evolves QueueFaulty w ([⟨.issue .now, t⟩,
        ⟨.issue (.getByIdempotencyKey idem), .error .notFound⟩,
        ⟨.issue (.authorize cfg.issuerIdentifier parsed.req.org), .ok ()⟩] ++
          (hook ++ issueCalls rest)) w' := he
    obtain ⟨w₁, he₁, he₂⟩ := evolves_append.mp hsplit
    have hu := evolves_quiet hs (by simp [Quiet]) he₁
    refine .after_unchanged hu ?_
    obtain ⟨w₂, hhook, hrest⟩ := evolves_append.mp he₂
    obtain ⟨heffect, hcred, happrove⟩ := hook_effect hu.sound hh hhook
    rcases decision_effect heffect.sound hd hrest with hu₂ | ⟨hs', hclock, hpend, c, dec, hc, hkey,
      hd', hdec⟩
    · exact heffect.then_unchanged hu₂
    · obtain ⟨hu₁, p, hfound, hstatus, -⟩ := happrove dec hd' hdec
      obtain ⟨hmem, hpkey⟩ := getPending_ok hfound
      refine ⟨hs', hu₁.clock.trans hclock, .inl (hpend.trans hu₁.pendings), .inr ?_⟩
      exact ⟨c, p, hc.trans (by rw [hcred]), hmem, hpkey.trans hkey.symm, hstatus⟩

end Shadownet.Issuer
