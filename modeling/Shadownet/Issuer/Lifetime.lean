import Shadownet.Issuer.Issuance
import Shadownet.Issuer.Paths
import Shadownet.Issuer.Revocation

/-!
# Served credentials over time

POSTs and the operator's calls on one store, in any interleaving, with a clock that does not
go back. A stored row outlives its credential: the idempotent lookup and the re-read after a
lost race serve it whatever the time and the revocations are (`served_revoked`).

`CarefulRun` collects what keeps this from happening, as conditions on the calls and on the
state they meet: a POST ends within `D` seconds of its first clock reading, at that reading no
stored row of its CSR is revoked or about to expire, and the operator revokes only pairs that
have been given out and that no POST under way holds. In such runs each 200 response carries a
usable credential (`served_live`).
-/

namespace Shadownet.Issuer

open Foundation Go

/-! ## The system -/

/-- The store and the time. -/
structure Timed where
  store : Store
  clock : Time

/-- What a call of a POST may answer and do: a reading of the clock moves it on. -/
inductive TimedHandle : Timed → (o : IssueOp) → IssueAns o → Timed → Prop
  | now (w : Timed) (t : Time) (ht : w.clock.nanos ≤ t.nanos) :
      TimedHandle w .now t { w with clock := t }
  | other (w : Timed) (o : IssueOp) (a : IssueAns o) (s : Store) (ho : o ≠ .now)
      (h : IssueHandle w.store o a s) : TimedHandle w o a { w with store := s }

/-- Time passes, or the operator calls the store. -/
inductive TimedMove : Timed → Timed → Prop
  | tick (w : Timed) (t : Time) (ht : w.clock.nanos ≤ t.nanos) :
      TimedMove w { w with clock := t }
  | admin (w : Timed) (c : Call) : TimedMove w { w with store := (w.store.step c).1 }

/-- The credential of the row is unexpired and its index is not revoked. -/
def Timed.Live (w : Timed) (c : CredentialRow) : Prop :=
  w.clock.unix < c.expiresAt ∧ c.pair ∉ revokedPairs w.store.db.revocations

/-- The response carries the JWS of a stored row, minted for that row, and live. -/
def Usable (G : Runtime) (cfg : HandlerConfig) (w : Timed) (r : Response) : Prop :=
  ∃ c ∈ w.store.db.credentials, r.body = c.jws ∧
    (∃ parsed idem t, MintedAt G cfg parsed idem t c) ∧ w.Live c

/-- The time a call read. -/
def reading : (o : IssueOp) × IssueAns o → Option Time
  | ⟨.now, t⟩ => some t
  | _ => none

/-- The clock reading a POST began with. -/
def firstReading (calls : Calls IssueOp IssueAns) : Option Time := calls.head?.bind reading

section
variable {ι : Type} [DecidableEq ι] (G : Runtime) (V : Verifier) (cfg : HandlerConfig) (D : Int)
  (bodies : ι → Option Bytes)

/-- Request `i` has read its clock, first at `t`, and has not answered yet. -/
def InFlight (tr : List (IssueEvent ι)) (pool : ι → IssueProg Response) (i : ι) (t : Time) :
    Prop :=
  firstReading (callsOf i tr) = some t ∧ ∃ o k, pool i = .call o k

/-- The row is stored under the key of the CSR in the body. -/
def HeldFor (s : Store) (body : Option Bytes) (c : CredentialRow) : Prop :=
  c ∈ s.db.credentials ∧ ∃ parsed, RequestKey G V cfg body parsed c.idempotencyKey

/-- The row is not revoked, and at `t` its credential has more than `D` seconds left. -/
def Store.Lasting (s : Store) (t : Time) (c : CredentialRow) : Prop :=
  c.pair ∉ revokedPairs s.db.revocations ∧ t.unix + D < c.expiresAt

/-- The pair has been given out, to no request under way, and no such request asks for the
credential that carries it. -/
structure MayRevoke (tr : List (IssueEvent ι)) (w : Timed) (pool : ι → IssueProg Response)
    (p : Nat × Nat) : Prop where
  given : Below w.store.db.epochs [p]
  unheld : ∀ i t, InFlight tr pool i t → (i, p) ∉ taken tr
  unasked : ∀ i t, InFlight tr pool i t → ∀ c, HeldFor G V cfg w.store (bodies i) c → c.pair ≠ p

/-- The call of request `i` comes within `D` seconds of its first clock reading, and at that
reading the rows stored for its CSR are lasting. -/
structure InTime (tr : List (IssueEvent ι)) (w : Timed) (i : ι) (x : (o : IssueOp) × IssueAns o) :
    Prop where
  first : ∀ t, x = ⟨.now, t⟩ → callsOf i tr = [] →
    ∀ c, HeldFor G V cfg w.store (bodies i) c → w.store.Lasting D t c
  later : ∀ t, firstReading (callsOf i tr) = some t → w.clock.unix ≤ t.unix + D

/-- The runs of POSTs, the operator's calls and the clock in which every POST is in time and
the operator revokes with care. -/
inductive CarefulRun (w₀ : Timed) :
    List (IssueEvent ι) → Timed → (ι → IssueProg Response) → Prop
  | start : CarefulRun w₀ [] w₀ fun i => serveIssue G V cfg (bodies i)
  | tick {tr : List (IssueEvent ι)} {w : Timed} {pool : ι → IssueProg Response} (t : Time)
      (hr : CarefulRun w₀ tr w pool) (ht : w.clock.nanos ≤ t.nanos) :
      CarefulRun w₀ tr { w with clock := t } pool
  | admin {tr : List (IssueEvent ι)} {w : Timed} {pool : ι → IssueProg Response} (c : Call)
      (hr : CarefulRun w₀ tr w pool)
      (hc : ∀ p t now, c = .setRevoked p.1 p.2 t now → MayRevoke G V cfg bodies tr w pool p) :
      CarefulRun w₀ tr { w with store := (w.store.step c).1 } pool
  | call {tr : List (IssueEvent ι)} {w w' : Timed} {pool : ι → IssueProg Response} {i : ι}
      {o : IssueOp} {k : IssueAns o → IssueProg Response} {a : IssueAns o}
      (hr : CarefulRun w₀ tr w pool) (hc : pool i = .call o k) (hs : TimedHandle w o a w')
      (ht : InTime G V cfg D bodies tr w i ⟨o, a⟩) :
      CarefulRun w₀ (tr ++ [⟨i, o, a⟩]) w' (Function.update pool i (k a))

end

theorem reading_eq_some {x : (o : IssueOp) × IssueAns o} {t : Time} :
    reading x = some t ↔ x = ⟨.now, t⟩ := by
  constructor
  · intro h
    obtain ⟨o, a⟩ := x
    cases o with
    | now => rw [Option.some.inj h]
    | authorize | evaluate | getByIdempotencyKey | allocateIndex | putCredential => cases h
  · rintro rfl
    rfl

/-! ## What the calls of a POST say about each other -/

variable {G : Runtime} {V : Verifier} {cfg : HandlerConfig} {body : Option Bytes}
  {calls : Calls IssueOp IssueAns} {r : Response}

theorem Verified.requestKey {t : Time} {parsed : CsrPayload} {idem : Bytes}
    (h : Verified G V cfg body t parsed idem) : RequestKey G V cfg body parsed idem := by
  obtain ⟨data, hb, -, hp, hi⟩ := h
  exact ⟨data, t, hb, hp, hi⟩

/-- A POST begins with a clock reading. -/
theorem IssuePath.reads_first {x : (o : IssueOp) × IssueAns o}
    (h : IssuePath G V cfg body (x :: calls) r) : ∃ t, x = ⟨.now, t⟩ := by
  cases h with
  | unverified t => exact ⟨t, rfl⟩
  | served t => exact ⟨t, rfl⟩
  | unavailable t => exact ⟨t, rfl⟩
  | unauthorized t => exact ⟨t, rfl⟩
  | subjectless t => exact ⟨t, rfl⟩
  | decided t => exact ⟨t, rfl⟩

/-- What comes before a call that is no clock reading begins with one. -/
theorem IssuePath.begun {init rest : Calls IssueOp IssueAns} {o : IssueOp} {a : IssueAns o}
    (h : IssuePath G V cfg body (init ++ ⟨o, a⟩ :: rest) r) (ho : o ≠ .now) :
    ∃ t, firstReading init = some t := by
  cases init with
  | nil =>
    obtain ⟨t, he⟩ := h.reads_first
    exact absurd (congrArg Sigma.fst he) ho
  | cons x init =>
    obtain ⟨t, rfl⟩ := h.reads_first
    exact ⟨t, rfl⟩

/-- A POST looks up the key of its CSR. -/
theorem IssuePath.key_of_get {key : Bytes} {a : Except StoreError CredentialRow}
    (h : IssuePath G V cfg body calls r) (hm : ⟨.getByIdempotencyKey key, a⟩ ∈ calls) :
    ∃ parsed, RequestKey G V cfg body parsed key := by
  cases h <;> simp only [List.mem_cons, List.not_mem_nil, Sigma.mk.injEq, reduceCtorEq, false_and,
    IssueOp.getByIdempotencyKey.injEq, or_false, false_or] at hm
  case served t parsed idem hv c => exact hm.1 ▸ ⟨parsed, hv.requestKey⟩
  case unavailable t parsed idem hv e he => exact hm.1 ▸ ⟨parsed, hv.requestKey⟩
  case unauthorized t parsed idem hv e => exact hm.1 ▸ ⟨parsed, hv.requestKey⟩
  case subjectless t parsed idem hv e hs => exact hm.1 ▸ ⟨parsed, hv.requestKey⟩
  case decided t parsed idem hv pub hs d rest hd =>
    refine ⟨parsed, ?_⟩
    rcases hm with hm | hm
    · exact hm.1 ▸ hv.requestKey
    · cases hd <;> simp only [List.mem_cons, List.not_mem_nil, Sigma.mk.injEq, reduceCtorEq,
        false_and, IssueOp.getByIdempotencyKey.injEq, or_false, false_or] at hm
      case reread => exact hm.1 ▸ hv.requestKey
      case lost => exact hm.1 ▸ hv.requestKey

/-- A row a POST tries to insert was minted for the CSR of its body, at a clock reading made
before. -/
theorem IssuePath.minted_at {init rest : Calls IssueOp IssueAns} {c : CredentialRow}
    {a : Except StoreError Unit}
    (h : IssuePath G V cfg body (init ++ ⟨.putCredential c, a⟩ :: rest) r) :
    ∃ t₀ parsed idem t, Verified G V cfg body t₀ parsed idem ∧ ⟨.now, t⟩ ∈ init ∧
      MintedAt G cfg parsed idem t c := by
  generalize hcalls : init ++ ⟨.putCredential c, a⟩ :: rest = calls at h
  have hmem : ⟨.putCredential c, a⟩ ∈ calls := by simp [← hcalls]
  cases h <;> simp only [List.mem_cons, List.not_mem_nil, Sigma.mk.injEq, reduceCtorEq, false_and,
    or_false, false_or] at hmem
  case decided t₀ parsed idem hv pub hs d rest' hd =>
    -- six calls come before the insert
    cases hd <;> simp only [List.mem_cons, List.not_mem_nil, Sigma.mk.injEq, reduceCtorEq,
      false_and, or_false, false_or] at hmem
    all_goals
      obtain ⟨rfl, he, -⟩ := (@List.append_cons_inj_of_notMem _ [_, _, _, _, _, _] _ _ _ _ _
        (by simp) (by simp)).mp hcalls.symm
      cases he
      refine ⟨t₀, parsed, idem, _, hv, ?_, ‹_›⟩
      simp

theorem MintedAt.expiresAt {parsed : CsrPayload} {idem : Bytes} {t : Time} {c : CredentialRow}
    (h : MintedAt G cfg parsed idem t c) : c.expiresAt = t.unix + 604800 := by
  rw [h.row]
  rfl

/-- A 200 response comes with the last call, from the row it found or inserted. -/
theorem IssuePath.last_of_ok (h : IssuePath G V cfg body calls r) (h200 : r.status = 200) :
    ∃ init c, r.body = c.jws ∧
      ((∃ key, calls = init ++ [⟨.getByIdempotencyKey key, .ok c⟩]) ∨
        calls = init ++ [⟨.putCredential c, .ok ()⟩]) := by
  cases h with
  | unread r hr => exact absurd (hr.symm.trans h200) (by decide)
  | unverified t r hr hv => exact absurd (hr.symm.trans h200) (by decide)
  | served t parsed idem hv c => exact ⟨[⟨.now, t⟩], c, rfl, .inl ⟨idem, rfl⟩⟩
  | unavailable t parsed idem hv e he => exact absurd h200 (show (500 : Nat) ≠ 200 by decide)
  | unauthorized t parsed idem hv e => exact absurd h200 (show (403 : Nat) ≠ 200 by decide)
  | subjectless t parsed idem hv e hs => exact absurd h200 (show (400 : Nat) ≠ 200 by decide)
  | decided t parsed idem hv pub hs d rest r hd =>
    cases hd with
    | failed e => exact absurd h200 (show (500 : Nat) ≠ 200 by decide)
    | pending d hd => exact absurd h200 (show (409 : Nat) ≠ 200 by decide)
    | rejected d hd => exact absurd h200 (show (403 : Nat) ≠ 200 by decide)
    | unknown d n hd => exact absurd h200 (show (500 : Nat) ≠ 200 by decide)
    | unallocated d hd t e => exact absurd h200 (show (500 : Nat) ≠ 200 by decide)
    | unminted d hd t p => exact absurd h200 (show (500 : Nat) ≠ 200 by decide)
    | stored d hd t c hc => exact ⟨[_, _, _, _, _, _], c, rfl, .inr rfl⟩
    | reread d hd t c c' hc e => exact ⟨[_, _, _, _, _, _, _], c', rfl, .inl ⟨idem, rfl⟩⟩
    | lost d hd t c hc e e' => exact absurd h200 (show (500 : Nat) ≠ 200 by decide)

/-! ## What one call does -/

theorem TimedHandle.store {w w' : Timed} {o : IssueOp} {a : IssueAns o}
    (h : TimedHandle w o a w') :
    IssueHandle w.store o a w'.store ∧ (o ≠ .now → w'.clock = w.clock) := by
  cases h with
  | now t ht => exact ⟨.now _ _, fun hne => absurd rfl hne⟩
  | other o a s ho h => exact ⟨h, fun _ => rfl⟩

/-- The clock does not go back, and a reading is the new time. -/
theorem TimedHandle.clock {w w' : Timed} {o : IssueOp} {a : IssueAns o}
    (h : TimedHandle w o a w') :
    w.clock.nanos ≤ w'.clock.nanos ∧ ∀ t, (⟨o, a⟩ : (o : IssueOp) × IssueAns o) = ⟨.now, t⟩ →
      w'.clock = t := by
  cases h with
  | now t ht =>
    refine ⟨ht, fun t' he => ?_⟩
    cases he
    rfl
  | other o a s ho h => exact ⟨le_rfl, fun t he => absurd (congrArg Sigma.fst he) ho⟩

theorem putCredential_revocations {db db' : Database} {c : CredentialRow}
    (h : db.putCredential c = .ok db') : db'.revocations = db.revocations := by
  simp only [Database.putCredential, bind_eq_ok, mapError_eq_ok, sqlUint_eq_ok, guard_eq_ok,
    pure_eq_ok] at h
  obtain ⟨_, ⟨-, rfl⟩, _, ⟨-, rfl⟩, -, rfl⟩ := h
  rfl

/-- A POST revokes nothing. -/
theorem IssueHandle.revocations {s s' : Store} {o : IssueOp} {a : IssueAns o}
    (h : IssueHandle s o a s') (hs : s.Sound) : s'.db.revocations = s.db.revocations := by
  cases h with
  | allocate exp now =>
    cases hr : s.db.allocateTx s.maxIndices exp now with
    | error e => simp only [Store.allocateIndex, Store.commit, hr]
    | ok r =>
      simp only [Store.allocateIndex, Store.commit, hr]
      exact (allocateTx_ok hs.table hs.max_pos hr).2.revocations
  | put c =>
    cases hr : s.db.putCredential c with
    | error e => simp only [Store.putCredential, Store.commit, hr, Except.map]
    | ok db =>
      simp only [Store.putCredential, Store.commit, hr, Except.map]
      exact putCredential_revocations hr
  | now | authorize | evaluate | get | getFault | allocateFault | putFault => rfl

theorem IssueHandle.get_ok {s s' : Store} {key : Bytes} {c : CredentialRow}
    (h : IssueHandle s (.getByIdempotencyKey key) (.ok c) s') :
    s.db.getByIdempotencyKey key = .ok c ∧ s' = s := by
  generalize ha : (Except.ok c : IssueAns (.getByIdempotencyKey key)) = a at h
  cases h with
  | get key => exact ⟨rfl, rfl⟩
  | getFault key detail => cases ha

section
variable {ι : Type} {s s' : Store} {o : IssueOp} {a : IssueAns o}

theorem takenPair_thread {i j : ι} {p : Nat × Nat} (h : takenPair ⟨i, o, a⟩ = some (j, p)) :
    i = j := by
  cases o <;> try cases h
  case allocateIndex exp =>
    cases a <;> cases h
    rfl

theorem IssueEffect.below {ps : List (Nat × Nat)} (h : IssueEffect (ι := ι) s o a s')
    (hs : s.Sound) (hb : Below s.db.epochs ps) :
    Below s'.db.epochs ps ∧ ∀ (i : ι) p, takenPair ⟨i, o, a⟩ = some (i, p) → p ∉ ps := by
  cases h with
  | idle o a ha hr =>
    refine ⟨hb, fun i p hp => ?_⟩
    rw [ha i] at hp
    cases hp
  | took exp now p s' hs' he hc =>
    obtain ⟨hbelow, hnew⟩ := hb.allocates hs.table he
    refine ⟨fun q hq => hbelow q (List.mem_append_left _ hq), fun i q hq => ?_⟩
    cases hq
    exact hnew
  | stored c s' hs' he hc hk =>
    refine ⟨he ▸ hb, fun i p hp => ?_⟩
    cases hp

theorem IssueEffect.rows (h : IssueEffect (ι := ι) s o a s') {c : CredentialRow}
    (hc : c ∈ s'.db.credentials) :
    c ∈ s.db.credentials ∨ (⟨o, a⟩ : (o : IssueOp) × IssueAns o) = ⟨.putCredential c, .ok ()⟩ := by
  cases h with
  | idle o a ha hr => exact .inl hc
  | took exp now p s' hs' he hrows => exact .inl (hrows ▸ hc)
  | stored d s' hs' he hrows hk =>
    rw [hrows] at hc
    rcases List.mem_append.mp hc with hc | hc
    · exact .inl hc
    · rw [List.mem_singleton.mp hc]
      exact .inr rfl

end

theorem IssueHandle.put_ok {s s' : Store} {c : CredentialRow} {u : Unit}
    (h : IssueHandle s (.putCredential c) (.ok u) s') :
    s'.db.credentials = s.db.credentials ++ [c] := by
  generalize ha : (Except.ok u : IssueAns (.putCredential c)) = a at h
  cases h with
  | put c =>
    cases hp : s.db.putCredential c with
    | ok db =>
      simp only [Store.putCredential, Store.commit, hp, Except.map]
      exact (putCredential_ok hp).1
    | error e =>
      simp only [Store.putCredential, Store.commit, hp, Except.map] at ha
      cases ha
  | putFault c detail => cases ha

section
variable {ι : Type} [DecidableEq ι] {D : Int} {bodies : ι → Option Bytes}
  {tr : List (IssueEvent ι)} {w₀ w w' : Timed} {pool : ι → IssueProg Response} {i j : ι}
  {o : IssueOp} {a : IssueAns o} {k : IssueAns o → IssueProg Response}

/-- A careful run is a run. -/
theorem CarefulRun.run (h : CarefulRun G V cfg D bodies w₀ tr w pool) :
    Run TimedHandle TimedMove w₀ (fun i => serveIssue G V cfg (bodies i)) tr w pool := by
  induction h with
  | start => exact .start
  | tick t hr ht ih => exact ih.env (.tick _ t ht)
  | admin c hr hc ih => exact ih.env (.admin _ c)
  | call hr hc hs ht ih => exact ih.step hc hs

/-- The stores of a run with time are those of a run without. -/
theorem store_run {pool₀ : ι → IssueProg Response}
    (h : Run TimedHandle TimedMove w₀ pool₀ tr w pool) :
    Run IssueHandle AdminStep w₀.store pool₀ tr w.store pool := by
  induction h with
  | start => exact .start
  | env hr he ih =>
    cases he with
    | tick t ht => exact ih
    | admin c => exact ih.env ⟨c, rfl⟩
  | step hr hc hs ih => exact ih.step hc hs.store.1

/-! ## The invariant -/

/-- What a careful run keeps: only pairs that have been given out are revoked, and for each
request under way, no pair it was given is revoked, the rows stored for its CSR are lasting
from its first clock reading on, and no reading came before that one. -/
structure Kept (G : Runtime) (V : Verifier) (cfg : HandlerConfig) (D : Int)
    (bodies : ι → Option Bytes) (tr : List (IssueEvent ι)) (w : Timed)
    (pool : ι → IssueProg Response) : Prop where
  given : Below w.store.db.epochs (revokedPairs w.store.db.revocations)
  unrevoked : ∀ i t, InFlight tr pool i t → ∀ p, (i, p) ∈ taken tr →
    p ∉ revokedPairs w.store.db.revocations
  lasting : ∀ i t, InFlight tr pool i t → ∀ c, HeldFor G V cfg w.store (bodies i) c →
    w.store.Lasting D t c
  first : ∀ i t, InFlight tr pool i t → t.nanos ≤ w.clock.nanos ∧
    ∀ u, ⟨.now, u⟩ ∈ callsOf i tr → t.nanos ≤ u.nanos

theorem callsOf_concat_self (tr : List (IssueEvent ι)) (x : IssueEvent ι) :
    callsOf x.thread (tr ++ [x]) = callsOf x.thread tr ++ [⟨x.op, x.ans⟩] := by
  rw [callsOf_append]
  simp [callsOf]

/-- A request under way after a call of `i` was under way before, or has just begun. -/
theorem InFlight.before {t : Time}
    (h : InFlight (tr ++ [⟨i, o, a⟩]) (Function.update pool i (k a)) j t)
    (hc : pool i = .call o k) :
    InFlight tr pool j t ∨
      j = i ∧ callsOf i tr = [] ∧ (⟨o, a⟩ : (o : IssueOp) × IssueAns o) = ⟨.now, t⟩ := by
  obtain ⟨hread, hcall⟩ := h
  by_cases hj : j = i
  · subst hj
    rw [callsOf_append] at hread
    cases hcs : callsOf j tr with
    | nil =>
      rw [hcs] at hread
      exact .inr ⟨rfl, rfl, reading_eq_some.mp (by simpa [callsOf, firstReading] using hread)⟩
    | cons x xs =>
      rw [hcs] at hread
      exact .inl ⟨by rw [hcs]; exact hread, o, k, hc⟩
  · rw [callsOf_append] at hread
    rw [Function.update_of_ne hj] at hcall
    left
    refine ⟨?_, hcall⟩
    simpa [callsOf, Ne.symm hj] using hread

theorem Kept.tick {t : Time} (h : Kept G V cfg D bodies tr w pool)
    (ht : w.clock.nanos ≤ t.nanos) : Kept G V cfg D bodies tr { w with clock := t } pool := by
  refine ⟨h.given, h.unrevoked, h.lasting, fun i t₀ hi => ?_⟩
  obtain ⟨hclock, hreadings⟩ := h.first i t₀ hi
  exact ⟨hclock.trans ht, hreadings⟩

theorem Kept.admin (h : Kept G V cfg D bodies tr w pool) (hs : w.store.Sound) (c : Call)
    (hc : ∀ p t now, c = .setRevoked p.1 p.2 t now → MayRevoke G V cfg bodies tr w pool p) :
    Kept G V cfg D bodies tr { w with store := (w.store.step c).1 } pool := by
  have hcred : (w.store.step c).1.db.credentials = w.store.db.credentials := step_credentials hs c
  have hrows : ∀ i c', HeldFor G V cfg (w.store.step c).1 (bodies i) c' →
      HeldFor G V cfg w.store (bodies i) c' := by
    rintro i c' ⟨hm, hkey⟩
    exact ⟨hcred ▸ hm, hkey⟩
  refine ⟨?_, fun i t hi p hp hrev => ?_, fun i t hi c' hc' => ?_, h.first⟩
  · intro p hp
    rcases (step_revocations hs c p).mp hp with hp | ⟨t, now, hcall, -⟩
    · exact h.given.step hs c p hp
    · exact (hc p t now hcall).given.step hs c p (List.mem_singleton.mpr rfl)
  · rcases (step_revocations hs c p).mp hrev with hrev | ⟨t', now, hcall, -⟩
    · exact h.unrevoked i t hi p hp hrev
    · exact (hc p t' now hcall).unheld i t hi hp
  · obtain ⟨hpair, hexp⟩ := h.lasting i t hi c' (hrows i c' hc')
    refine ⟨fun hrev => ?_, hexp⟩
    rcases (step_revocations hs c c'.pair).mp hrev with hrev | ⟨t', now, hcall, -⟩
    · exact hpair hrev
    · exact (hc c'.pair t' now hcall).unasked i t hi c' (hrows i c' hc') rfl

/-- A row that a request in time inserts outlasts every request under way. -/
theorem Kept.inserted {rest : Calls IssueOp IssueAns} {c : CredentialRow}
    {u : Except StoreError Unit} {t : Time} (h : Kept G V cfg D bodies tr w pool)
    (hD : 2 * D < 604800)
    (hpath : IssuePath G V cfg (bodies j) (callsOf j tr ++ ⟨.putCredential c, u⟩ :: rest) r)
    (hcall : pool j = .call o k) (ht : InTime G V cfg D bodies tr w j ⟨.putCredential c, u⟩)
    (hown : (j, c.pair) ∈ taken tr) (hi : t.nanos ≤ w.clock.nanos) : w.store.Lasting D t c := by
  obtain ⟨t₀, hread⟩ := hpath.begun fun he => by cases he
  obtain ⟨-, parsed, idem, t', -, hm, hmint⟩ := hpath.minted_at
  have hj : InFlight tr pool j t₀ := ⟨hread, _, _, hcall⟩
  have hlate := ht.later t₀ hread
  have hfirst := Time.unix_le_of_nanos_le ((h.first j t₀ hj).2 t' hm)
  have hstart := Time.unix_le_of_nanos_le hi
  refine ⟨h.unrevoked j t₀ hj _ hown, ?_⟩
  rw [hmint.expiresAt]
  omega

theorem callsOf_ne_nil_of_taken {p : Nat × Nat} (h : (i, p) ∈ taken tr) : callsOf i tr ≠ [] := by
  obtain ⟨⟨j, o, a⟩, hm, he⟩ := List.mem_filterMap.mp h
  cases o <;> try cases he
  case allocateIndex exp =>
    cases a <;> cases he
    exact List.ne_nil_of_mem (mem_callsOf.mpr hm)

/-- One call of a request in time keeps the invariant. -/
theorem Kept.call {rest : Calls IssueOp IssueAns} (h : Kept G V cfg D bodies tr w pool)
    (hD : 2 * D < 604800) (hl : Ledger tr w.store)
    (hT : Stage G V cfg (bodies i) i tr w.store (pool i))
    (hpath : IssuePath G V cfg (bodies i) (callsOf i tr ++ ⟨o, a⟩ :: rest) r)
    (hc : pool i = .call o k) (hs : TimedHandle w o a w')
    (ht : InTime G V cfg D bodies tr w i ⟨o, a⟩) :
    Kept G V cfg D bodies (tr ++ [⟨i, o, a⟩]) w' (Function.update pool i (k a)) := by
  have heffect := issue_effect (ι := ι) hs.store.1 hl.sound
  have hrev := hs.store.1.revocations hl.sound
  obtain ⟨hclock, hreading⟩ := hs.clock
  obtain ⟨hgiven, hnew⟩ := heffect.below hl.sound h.given
  refine ⟨hrev ▸ hgiven, fun j t hj p hp => ?_, fun j t hj c hrow => ?_, fun j t hj => ?_⟩
  · rw [hrev]
    rw [taken_concat] at hp
    rcases List.mem_append.mp hp with hold | hgot
    · rcases hj.before hc with hbefore | ⟨rfl, hnil, -⟩
      · exact h.unrevoked j t hbefore p hold
      · exact absurd hnil (callsOf_ne_nil_of_taken hold)
    · -- the pair has been given out just now
      have he : takenPair ⟨i, o, a⟩ = some (j, p) := Option.mem_toList.mp hgot
      obtain rfl : i = j := takenPair_thread he
      exact hnew i p he
  · obtain ⟨hm, hkey⟩ := hrow
    rw [Store.Lasting, hrev]
    rcases hj.before hc with hbefore | ⟨rfl, hnil, hnow⟩
    · rcases heffect.rows hm with hold | hput
      · exact h.lasting j t hbefore c ⟨hold, hkey⟩
      · cases hput
        rw [hc] at hT
        cases hT with
        | storing parsed idem hk c hkey hown hfree =>
          exact h.inserted hD hpath hc ht hown (h.first j t hbefore).1
    · rcases heffect.rows hm with hold | hput
      · exact ht.first t hnow hnil c ⟨hold, hkey⟩
      · cases hput.symm.trans hnow
  · rcases hj.before hc with hbefore | ⟨rfl, hnil, hnow⟩
    · obtain ⟨hpast, hreadings⟩ := h.first j t hbefore
      refine ⟨hpast.trans hclock, fun u hu => ?_⟩
      rcases List.mem_append.mp (mem_callsOf.mp hu) with hold | hread
      · exact hreadings u (mem_callsOf.mpr hold)
      · cases List.mem_singleton.mp hread
        rw [← hreading u rfl]
        exact hpast.trans hclock
    · refine ⟨(congrArg Time.nanos (hreading t hnow)).ge, fun u hu => ?_⟩
      rcases List.mem_append.mp (mem_callsOf.mp hu) with hold | hread
      · exact absurd hnil (List.ne_nil_of_mem (mem_callsOf.mpr hold))
      · cases List.mem_singleton.mp hread
        cases hnow
        exact le_rfl

/-- Every state of a careful run keeps it. -/
theorem kept_run {m : Nat} {now t₀ : Time} {s₀ : Store}
    (ho : Store.openStore .empty m now = .ok s₀) (hD : 2 * D < 604800)
    (hr : CarefulRun G V cfg D bodies ⟨s₀, t₀⟩ tr w pool) : Kept G V cfg D bodies tr w pool := by
  induction hr with
  | start =>
    have hnone : ∀ i t, ¬ InFlight ([] : List (IssueEvent ι))
        (fun i => serveIssue G V cfg (bodies i)) i t := by
      rintro i t ⟨hread, -⟩
      cases hread
    refine ⟨?_, fun i t hi => absurd hi (hnone i t), fun i t hi => absurd hi (hnone i t),
      fun i t hi => absurd hi (hnone i t)⟩
    rw [openStore_revocations ho]
    exact fun p hp => absurd hp List.not_mem_nil
  | tick t hr ht ih => exact ih.tick ht
  | admin c hr hc ih => exact ih.admin (issue_run ho bodies (store_run hr.run)).1.sound c hc
  | @call tr w w' pool i o k a hr hc hs ht ih =>
    obtain ⟨hl, hT⟩ := issue_run ho bodies (store_run hr.run)
    obtain ⟨rest, r, hrest⟩ := Prog.exists_path issueAns_nonempty (k a)
    exact ih.call hD hl (hT i) (path_serveIssue_ways (hr.run.path_call hc hrest)) hc hs ht

/-! ## The result -/

/-- The store is sound and every row is minted. -/
structure Recorded (G : Runtime) (cfg : HandlerConfig) (s : Store) : Prop where
  sound : s.Sound
  minted : ∀ c ∈ s.db.credentials, ∃ parsed idem t, MintedAt G cfg parsed idem t c

theorem Recorded.fresh {m : Nat} {now : Time} {s₀ : Store}
    (ho : Store.openStore .empty m now = .ok s₀) : Recorded G cfg s₀ := by
  have hl : Ledger (ι := Unit) [] s₀ := .fresh ho
  exact ⟨hl.sound, fun c hc => absurd (hl.pairs_taken c hc) (by simp [taken])⟩

theorem Recorded.step {s s' : Store} (hs : Recorded G cfg s) (h : IssueHandle s o a s')
    (hput : ∀ c, o = .putCredential c → ∃ parsed idem t, MintedAt G cfg parsed idem t c) :
    Recorded G cfg s' := by
  cases issue_effect (ι := Unit) h hs.sound with
  | idle o a ha hr => exact hs
  | took exp now p s' hsound he hc => exact ⟨hsound, hc ▸ hs.minted⟩
  | stored c s' hsound he hc hk =>
    refine ⟨hsound, fun d hd => ?_⟩
    rw [hc] at hd
    rcases List.mem_append.mp hd with hd | hd
    · exact hs.minted d hd
    · exact hput d (by rw [List.mem_singleton.mp hd])

/-- Every reachable state has only minted rows. -/
theorem recorded_run (h₀ : Recorded G cfg w₀.store)
    (hr : Run TimedHandle TimedMove w₀ (fun i => serveIssue G V cfg (bodies i)) tr w pool) :
    Recorded G cfg w.store := by
  induction hr with
  | start => exact h₀
  | env hr he ih =>
    cases he with
    | tick t ht => exact ih
    | admin c => exact ⟨ih.sound.step c, step_credentials ih.sound c ▸ ih.minted⟩
  | @step tr w w' pool i o k a hr hc hs ih =>
    refine ih.step hs.store.1 ?_
    rintro c rfl
    -- the call is on a way through the POST of the thread
    obtain ⟨rest, r, hrest⟩ := Prog.exists_path issueAns_nonempty (k a)
    have hways := path_serveIssue_ways (hr.path_call hc hrest)
    obtain ⟨-, parsed, idem, t, -, -, hm⟩ := hways.minted_at
    exact ⟨parsed, idem, t, hm⟩

/-- In every interleaving of any number of POSTs with the operator's calls in which the POSTs
are in time and the operator revokes with care, each 200 response carries at its time a
credential that is unexpired and whose index is not revoked. -/
theorem served_live {m : Nat} {now t₀ : Time} {s₀ : Store}
    (ho : Store.openStore .empty m now = .ok s₀) (bodies : ι → Option Bytes)
    (hD : 2 * D < 604800) (hr : CarefulRun G V cfg D bodies ⟨s₀, t₀⟩ tr w pool)
    (hc : pool i = .call o k) (hs : TimedHandle w o a w')
    (ht : InTime G V cfg D bodies tr w i ⟨o, a⟩) (hret : k a = .ret r) (h200 : r.status = 200) :
    Usable G cfg w' r := by
  have hrec : Recorded G cfg w'.store := recorded_run (.fresh ho) (hr.run.step hc hs)
  obtain ⟨hl, hT⟩ := issue_run ho bodies (store_run hr.run)
  have hkept := kept_run ho hD hr
  have hways : IssuePath G V cfg (bodies i) (callsOf i tr ++ [⟨o, a⟩]) r := by
    refine path_serveIssue_ways (hr.run.path_call hc ?_)
    rw [hret]
    exact .ret r
  obtain ⟨init, c, hbody, hlast⟩ := hways.last_of_ok h200
  suffices h : c ∈ w'.store.db.credentials ∧ w'.Live c from
    ⟨c, h.1, hbody, hrec.minted c h.1, h.2⟩
  rcases hlast with ⟨key, hlast⟩ | hlast
  · -- the row was found by the lookup or the re-read
    obtain ⟨-, hcall⟩ := List.append_inj' hlast rfl
    cases hcall
    obtain ⟨t, hread⟩ := hways.begun fun he => by cases he
    have hlook : ⟨.getByIdempotencyKey key, .ok c⟩ ∈ callsOf i tr ++
        [⟨.getByIdempotencyKey key, .ok c⟩] := by simp
    obtain ⟨parsed, hkey⟩ := hways.key_of_get hlook
    obtain ⟨hfound, hsame⟩ := hs.store.1.get_ok
    obtain ⟨hm, rfl⟩ := getByIdempotencyKey_ok hfound
    obtain ⟨hrev, hexp⟩ := hkept.lasting i t ⟨hread, _, _, hc⟩ c ⟨hm, parsed, hkey⟩
    rw [Timed.Live, hs.store.2 (fun he => by cases he), hsame]
    exact ⟨hm, (ht.later t hread).trans_lt hexp, hrev⟩
  · -- the row was inserted just now
    obtain ⟨-, hcall⟩ := List.append_inj' hlast rfl
    cases hcall
    obtain ⟨t, hread⟩ := hways.begun fun he => by cases he
    have hTi := hT i
    rw [hc] at hTi
    cases hTi with
    | storing parsed idem hk c hkey hown hfree =>
      obtain ⟨hrev, hexp⟩ := hkept.inserted hD hways hc ht hown
        (hkept.first i t ⟨hread, _, _, hc⟩).1
      rw [Timed.Live, hs.store.2 (fun he => by cases he), hs.store.1.revocations hl.sound,
        hs.store.1.put_ok]
      exact ⟨List.mem_append_right _ (List.mem_singleton.mpr rfl), (ht.later t hread).trans_lt hexp,
        hrev⟩

/-! ## Stretches of a careful run -/

theorem firstReading_append {c₁ c₂ : Calls IssueOp IssueAns} {t : Time}
    (h : firstReading c₁ = some t) : firstReading (c₁ ++ c₂) = some t := by
  cases c₁ with
  | nil => cases h
  | cons x c₁ => exact h

theorem Follows.clock {p p' : IssueProg Response} (h : Follows TimedHandle w p calls w' p') :
    w.clock.nanos ≤ w'.clock.nanos := by
  induction h with
  | stop => exact le_rfl
  | call hs h ih => exact hs.clock.1.trans ih

/-- A request that has begun may take a stretch of calls that ends in time. -/
theorem CarefulRun.follow {p p' : IssueProg Response} {t : Time}
    (hr : CarefulRun G V cfg D bodies w₀ tr w pool) (hp : pool i = p)
    (hf : Follows TimedHandle w p calls w' p') (hread : firstReading (callsOf i tr) = some t)
    (hend : w'.clock.unix ≤ t.unix + D) :
    CarefulRun G V cfg D bodies w₀ (tr ++ calls.map fun c => ⟨i, c.1, c.2⟩) w'
      (Function.update pool i p') := by
  induction hf generalizing tr pool with
  | stop w p =>
    rw [← hp, Function.update_eq_self, List.map_nil, List.append_nil]
    exact hr
  | @call w w₁ w' o a k p' calls hs h ih =>
    have htime : InTime G V cfg D bodies tr w i ⟨o, a⟩ := by
      refine ⟨fun u _ hnil => ?_, fun u hu => ?_⟩
      · rw [hnil] at hread
        cases hread
      · obtain rfl := Option.some.inj (hread.symm.trans hu)
        exact (Time.unix_le_of_nanos_le (hs.clock.1.trans (Follows.clock h))).trans hend
    have hread' : firstReading (callsOf i (tr ++ [⟨i, o, a⟩])) = some t := by
      rw [callsOf_append]
      exact firstReading_append hread
    have h1 := ih (hr.call hp hs htime) (Function.update_self ..) hread' hend
    rw [Function.update_idem, List.append_assoc] at h1
    exact h1

/-- A request may begin when the rows stored for its CSR are lasting. -/
theorem CarefulRun.post {p p' : IssueProg Response} {t : Time}
    (hr : CarefulRun G V cfg D bodies w₀ tr w pool) (hp : pool i = p)
    (hf : Follows TimedHandle w p (⟨.now, t⟩ :: calls) w' p') (hnew : callsOf i tr = [])
    (hrows : ∀ c, HeldFor G V cfg w.store (bodies i) c → w.store.Lasting D t c)
    (hend : w'.clock.unix ≤ t.unix + D) :
    CarefulRun G V cfg D bodies w₀ (tr ++ (⟨.now, t⟩ :: calls).map fun c => ⟨i, c.1, c.2⟩) w'
      (Function.update pool i p') := by
  cases hf with
  | call hs h =>
    have htime : InTime G V cfg D bodies tr w i ⟨.now, t⟩ := by
      refine ⟨fun u he _ => ?_, fun u hu => ?_⟩
      · cases he
        exact hrows
      · rw [hnew] at hu
        cases hu
    have hread : firstReading (callsOf i (tr ++ [⟨i, .now, t⟩])) = some t := by
      rw [callsOf_append, hnew]
      simp [callsOf, firstReading, reading]
    have h1 := (hr.call hp hs htime).follow (Function.update_self ..) h hread hend
    rw [Function.update_idem, List.append_assoc] at h1
    exact h1

end

/-! ## A request repeated -/

theorem race_verified : Verified raceRuntime raceVerifier raceConfig (some raceToken)
    (Time.ofUnix 200) racePayload raceKey :=
  .of_token race_request race_parse race_key

/-- The calls of a first request that the hook approves. -/
def freshCalls (jws : Bytes) : Calls IssueOp IssueAns :=
  [⟨.now, Time.ofUnix 200⟩, ⟨.getByIdempotencyKey raceKey, .error .notFound⟩,
    ⟨.authorize raceConfig.issuerIdentifier racePayload.req.org, .ok ()⟩,
    ⟨.evaluate (csrView racePayload) attackerKey, .ok ⟨.approve, [], []⟩⟩,
    ⟨.now, Time.ofUnix 200⟩,
    ⟨.allocateIndex ((Time.ofUnix 200).addSeconds 604800), .ok (1, 0)⟩,
    ⟨.putCredential (raceRow 0 jws), .ok ()⟩]

theorem fresh_evolves (jws : Bytes) : Evolves TimedHandle ⟨raceStore 0 [], Time.ofUnix 150⟩
    (freshCalls jws) ⟨raceStore 1 [raceRow 0 jws], Time.ofUnix 200⟩ := by
  have hother : ∀ {o : IssueOp} {a : IssueAns o} {s s' : Store}, o ≠ .now → IssueHandle s o a s' →
      TimedHandle ⟨s, Time.ofUnix 200⟩ o a ⟨s', Time.ofUnix 200⟩ :=
    fun ho h => .other ⟨_, Time.ofUnix 200⟩ _ _ _ ho h
  have halloc := IssueHandle.allocate (raceStore 0 []) ((Time.ofUnix 200).addSeconds 604800)
    (Time.ofUnix 200)
  rw [race_alloc 0 (by decide)] at halloc
  exact .cons (.now _ _ (by decide)) (.cons (hother (by simp) (.get (raceStore 0 []) raceKey))
    (.cons (hother (by simp) (.authorize _ _ _ _)) (.cons (hother (by simp) (.evaluate _ _ _ _))
      (.cons (.now _ _ le_rfl) (.cons (hother (by simp) halloc)
        (.cons (hother (by simp) (.put (raceStore 1 []) (raceRow 0 jws))) (.nil _)))))))

/-- A first request is answered with its credential. -/
theorem fresh_follows : ∃ jws,
    MintedAt raceRuntime raceConfig racePayload raceKey (Time.ofUnix 200) (raceRow 0 jws) ∧
    Follows TimedHandle ⟨raceStore 0 [], Time.ofUnix 150⟩
      (serveIssue raceRuntime raceVerifier raceConfig (some raceToken)) (freshCalls jws)
      ⟨raceStore 1 [raceRow 0 jws], Time.ofUnix 200⟩ (.ret (writeCredential jws)) := by
  obtain ⟨jws, hm⟩ := race_mint 0 (by decide)
  have hc : MintedAt raceRuntime raceConfig racePayload raceKey (Time.ofUnix 200)
      (raceRow 0 jws) := ⟨hm, rfl⟩
  have hsub : subjectPubFromCSR raceRuntime racePayload = .ok attackerKey := by decide
  exact ⟨jws, hc, (fresh_evolves jws).follows_all
    (path_of_decision race_verified hsub (path_of_approval (d := ⟨.approve, [], []⟩) hc rfl))⟩

/-- A repeated request reads its clock and is about to be answered with the row it finds. -/
theorem again_follows (s : Store) (jws : Bytes) : ∃ k,
    Follows TimedHandle ⟨s, Time.ofUnix 200⟩
      (serveIssue raceRuntime raceVerifier raceConfig (some raceToken))
      [⟨.now, Time.ofUnix 200⟩] ⟨s, Time.ofUnix 200⟩ (.call (.getByIdempotencyKey raceKey) k) ∧
    k (.ok (raceRow 0 jws)) = .ret (writeCredential jws) := by
  have hpath : Prog.Path (serveIssue raceRuntime raceVerifier raceConfig (some raceToken))
      ([⟨.now, Time.ofUnix 200⟩] ++ [⟨.getByIdempotencyKey raceKey, .ok (raceRow 0 jws)⟩])
      (writeCredential jws) := path_of_lookup race_verified (.ret _)
  have hclock : Evolves TimedHandle ⟨s, Time.ofUnix 200⟩ [⟨.now, Time.ofUnix 200⟩]
      ⟨s, Time.ofUnix 200⟩ := .cons (.now _ _ le_rfl) (.nil _)
  obtain ⟨p, hf, hp⟩ := hclock.follows hpath
  cases hp with
  | call o k a rest r hk =>
    refine ⟨k, hf, ?_⟩
    generalize k (.ok (raceRow 0 jws)) = q at hk
    cases hk
    rfl

/-- The store of the first request after the operator has revoked an index. -/
def revokedStore (next idx : Nat) (jws : Bytes) : Store :=
  { raceStore next [raceRow 0 jws] with
    db := { (raceStore next [raceRow 0 jws]).db with revocations := [⟨1, idx, 200⟩] } }

theorem revoked_get (next idx : Nat) (jws : Bytes) :
    IssueHandle (revokedStore next idx jws) (.getByIdempotencyKey raceKey)
      (.ok (raceRow 0 jws)) (revokedStore next idx jws) := by
  have hfound : (revokedStore next idx jws).db.getByIdempotencyKey raceKey =
      .ok (raceRow 0 jws) := by
    simp [Database.getByIdempotencyKey, revokedStore, raceStore, raceRow, approvedRow, pure,
      Except.pure]
  have hget := IssueHandle.get (revokedStore next idx jws) raceKey
  rw [hfound] at hget
  exact hget

/-- A credential is issued; the operator takes an index of its own and revokes it; the request
is repeated and answered with the stored credential. -/
theorem served_live_again : ∃ jws tr pool k,
    CarefulRun raceRuntime raceVerifier raceConfig 60 (fun _ : Bool => some raceToken)
      ⟨raceStore 0 [], Time.ofUnix 150⟩ tr ⟨revokedStore 2 1 jws, Time.ofUnix 200⟩ pool ∧
    pool true = .ret (writeCredential jws) ∧
    pool false = .call (.getByIdempotencyKey raceKey) k ∧
    k (.ok (raceRow 0 jws)) = .ret (writeCredential jws) ∧
    Usable raceRuntime raceConfig ⟨revokedStore 2 1 jws, Time.ofUnix 200⟩
      (writeCredential jws) := by
  obtain ⟨jws, hm, hfirst⟩ := fresh_follows
  obtain ⟨k, hsecond, hret⟩ := again_follows (revokedStore 2 1 jws) jws
  have ho : Store.openStore .empty 5 (Time.ofUnix 100) = .ok (raceStore 0 []) := rfl
  have h₀ : CarefulRun raceRuntime raceVerifier raceConfig 60 (fun _ : Bool => some raceToken)
      ⟨raceStore 0 [], Time.ofUnix 150⟩ [] _ _ := .start
  have h₁ := h₀.post (i := true) rfl hfirst rfl (fun c hc => absurd hc.1 List.not_mem_nil)
    (show (200 : Int) ≤ 260 by decide)
  have h₂ := h₁.admin (.allocateIndex ((Time.ofUnix 200).addSeconds 604800) (Time.ofUnix 200))
    (fun p t now he => by cases he)
  have hidle : ∀ i t, ¬ InFlight ([] ++ (freshCalls jws).map fun c => ⟨true, c.1, c.2⟩)
      (Function.update (fun _ : Bool => serveIssue raceRuntime raceVerifier raceConfig
        (some raceToken)) true (.ret (writeCredential jws))) i t := by
    rintro i t ⟨hread, o, k, hcall⟩
    cases i with
    | true => cases hcall
    | false => cases hread
  have h₃ := h₂.admin (.setRevoked 1 1 (Time.ofUnix 200) (Time.ofUnix 200)) (by
    rintro ⟨e, i⟩ t now he
    cases he
    refine ⟨?_, fun i t hi => absurd hi (hidle i t), fun i t hi => absurd hi (hidle i t)⟩
    rintro p hp
    rw [List.mem_singleton.mp hp]
    exact ⟨_, List.mem_singleton.mpr rfl, rfl, show 1 < 2 by decide⟩)
  change CarefulRun _ _ _ _ _ _ _ ⟨revokedStore 2 1 jws, Time.ofUnix 200⟩ _ at h₃
  have h₄ := h₃.post (i := false) (Function.update_of_ne (by decide) _ _) hsecond rfl
    (by
      rintro c ⟨hc, -⟩
      rw [List.mem_singleton.mp hc]
      exact ⟨by simp [CredentialRow.pair, raceRow, approvedRow, revokedPairs, revokedStore],
        show (260 : Int) < 605000 by decide⟩)
    (show (200 : Int) ≤ 260 by decide)
  refine ⟨jws, _, _, k, h₄, ?_, Function.update_self .., hret, ?_⟩
  · rw [Function.update_of_ne (by decide), Function.update_self]
  · have hget : TimedHandle ⟨revokedStore 2 1 jws, Time.ofUnix 200⟩ _ _ _ :=
      .other _ _ _ _ (by simp) (revoked_get 2 1 jws)
    refine served_live ho _ (by decide) h₄ (Function.update_self ..) hget ⟨?_, ?_⟩ hret rfl
    · rintro t he
      cases he
    · intro t hread
      cases hread
      exact show (200 : Int) ≤ 260 by decide

/-- A credential is issued and revoked; the same request, repeated, is answered with it. -/
theorem served_revoked : ∃ tr w pool o k a w' r,
    Run TimedHandle TimedMove ⟨raceStore 0 [], Time.ofUnix 150⟩
      (fun _ : Bool => serveIssue raceRuntime raceVerifier raceConfig (some raceToken)) tr w pool ∧
    pool false = .call o k ∧ TimedHandle w o a w' ∧ k a = .ret r ∧ r.status = 200 ∧
    ¬ Usable raceRuntime raceConfig w' r := by
  obtain ⟨jws, hm, hfirst⟩ := fresh_follows
  obtain ⟨k, hsecond, hret⟩ := again_follows (revokedStore 1 0 jws) jws
  have hstart : Run TimedHandle TimedMove ⟨raceStore 0 [], Time.ofUnix 150⟩
      (fun _ : Bool => serveIssue raceRuntime raceVerifier raceConfig (some raceToken)) [] _ _ :=
    .start
  have hserved := hstart.follow (i := true) rfl hfirst
  have hrevoke := hserved.env (.admin _ (.setRevoked 1 0 (Time.ofUnix 200) (Time.ofUnix 200)))
  change Run TimedHandle TimedMove _ _ _ ⟨revokedStore 1 0 jws, Time.ofUnix 200⟩ _ at hrevoke
  have hlast := hrevoke.follow (i := false) (Function.update_of_ne (by decide) _ _) hsecond
  refine ⟨_, _, _, _, k, _, _, writeCredential jws, hlast, Function.update_self ..,
    .other _ _ _ _ (by simp) (revoked_get 1 0 jws), hret, rfl, ?_⟩
  rintro ⟨c, hc, -, -, -, hlive⟩
  refine hlive ?_
  rw [List.mem_singleton.mp hc]
  exact List.mem_singleton.mpr rfl

end Shadownet.Issuer
