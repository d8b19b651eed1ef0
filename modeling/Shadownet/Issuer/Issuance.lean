import Shadownet.Issuer.EpochTable
import Shadownet.Issuer.Possession

/-!
# Concurrent issuance

Any number of requests run `serveIssue` against one store. Each store call is atomic and may
also fail without effect; the calls of different requests interleave in any order, and the
operator may use the store in between. The clock, the authorizer and the hook answer
anything.

The invariant (`Ledger`) ties the rows of `issuer_credentials` to the allocations of the
run: each row carries a pair some request was given, and a request that is about to insert
still holds its pair alone (`Stage.storing`).
-/

namespace Shadownet.Issuer

open Foundation Go

/-! ## The system -/

/-- What a call may answer and do. -/
inductive IssueHandle : Store → (o : IssueOp) → IssueAns o → Store → Prop
  | now (s : Store) (t : Time) : IssueHandle s .now t s
  | authorize (s : Store) (iss org : Bytes) (a : GoM Unit) :
      IssueHandle s (.authorize iss org) a s
  | evaluate (s : Store) (view : CsrView) (pub : Bytes) (a : GoM Decision) :
      IssueHandle s (.evaluate view pub) a s
  | get (s : Store) (key : Bytes) :
      IssueHandle s (.getByIdempotencyKey key) (s.db.getByIdempotencyKey key) s
  | getFault (s : Store) (key : Bytes) (detail : String) :
      IssueHandle s (.getByIdempotencyKey key) (.error (.failure detail)) s
  | allocate (s : Store) (exp now : Time) :
      IssueHandle s (.allocateIndex exp) (s.allocateIndex exp now).2 (s.allocateIndex exp now).1
  | allocateFault (s : Store) (exp : Time) (detail : String) :
      IssueHandle s (.allocateIndex exp) (.error (.failure detail)) s
  | put (s : Store) (c : CredentialRow) :
      IssueHandle s (.putCredential c) (s.putCredential c).2 (s.putCredential c).1
  | putFault (s : Store) (c : CredentialRow) (detail : String) :
      IssueHandle s (.putCredential c) (.error (.failure detail)) s

/-- The operator's calls and restarts. -/
def AdminStep (s s' : Store) : Prop := ∃ c : Call, s' = (s.step c).1

section
variable {ι : Type}

abbrev IssueEvent (ι : Type) := Event ι IssueOp IssueAns

/-- The pair an event allocated, with the request it was given to. -/
def takenPair : IssueEvent ι → Option (ι × (Nat × Nat))
  | ⟨i, .allocateIndex _, .ok p⟩ => some (i, p)
  | _ => none

/-- The row an event inserted. -/
def storedRow : (o : IssueOp) → IssueAns o → Option CredentialRow
  | .putCredential c, .ok _ => some c
  | _, _ => none

/-- The allocations of a run. -/
def taken (tr : List (IssueEvent ι)) : List (ι × (Nat × Nat)) := tr.filterMap takenPair

/-- The revocation index of a row. -/
def CredentialRow.pair (c : CredentialRow) : Nat × Nat := (c.epoch, c.idx)

/-- The rows of a store against the allocations of the run. -/
structure Ledger (tr : List (IssueEvent ι)) (s : Store) : Prop where
  sound : s.Sound
  below : Below s.db.epochs ((taken tr).map Prod.snd)
  taken_nodup : ((taken tr).map Prod.snd).Nodup
  keys_nodup : (s.db.credentials.map CredentialRow.idempotencyKey).Nodup
  pairs_nodup : (s.db.credentials.map CredentialRow.pair).Nodup
  pairs_taken : ∀ c ∈ s.db.credentials, c.pair ∈ (taken tr).map Prod.snd

/-! ## What one request may have left to do -/

variable (G : Runtime) (V : Verifier) (cfg : HandlerConfig) (body : Option Bytes)

/-- The request is a verified CSR with the idempotency key `idem`. -/
def RequestKey (parsed : CsrPayload) (idem : Bytes) : Prop :=
  ∃ data now, body = some data ∧
    parseAndVerifyCSR G V cfg.issuerIdentifier now (requestToken cfg data) = .ok parsed ∧
    idempotencyKey G parsed.iss parsed.aud parsed.req = .ok idem

/-- A 200 response carries the JWS of the row stored under the request's key. -/
def Served (s : Store) (r : Response) : Prop :=
  r.status = 200 → ∃ parsed idem, RequestKey G V cfg body parsed idem ∧
    ∃ c ∈ s.db.credentials, c.idempotencyKey = idem ∧ r.body = c.jws

/-- Where a request stands. -/
inductive Stage (i : ι) (tr : List (IssueEvent ι)) (s : Store) : IssueProg Response → Prop
  | done (r : Response) (h : Served G V cfg body s r) : Stage i tr s (.ret r)
  | start (data : Bytes) (hb : body = some data) :
      Stage i tr s (.call .now (issueToken G V cfg (requestToken cfg data)))
  | lookup (parsed : CsrPayload) (idem : Bytes) (hk : RequestKey G V cfg body parsed idem) :
      Stage i tr s (.call (.getByIdempotencyKey idem) (afterLookup G cfg parsed idem))
  | authorizing (parsed : CsrPayload) (idem : Bytes) (hk : RequestKey G V cfg body parsed idem)
      (iss org : Bytes) :
      Stage i tr s (.call (.authorize iss org) (afterAuthorize G cfg parsed idem))
  | evaluating (parsed : CsrPayload) (idem : Bytes) (hk : RequestKey G V cfg body parsed idem)
      (view : CsrView) (pub : Bytes) :
      Stage i tr s (.call (.evaluate view pub) (actOnDecision G cfg parsed idem))
  | approving (parsed : CsrPayload) (idem : Bytes) (hk : RequestKey G V cfg body parsed idem) :
      Stage i tr s (.call .now fun now =>
        .call (.allocateIndex (now.addSeconds 604800)) (mintAndStore G cfg parsed idem now))
  | allocating (parsed : CsrPayload) (idem : Bytes) (hk : RequestKey G V cfg body parsed idem)
      (now exp : Time) :
      Stage i tr s (.call (.allocateIndex exp) (mintAndStore G cfg parsed idem now))
  | storing (parsed : CsrPayload) (idem : Bytes) (hk : RequestKey G V cfg body parsed idem)
      (c : CredentialRow) (hkey : c.idempotencyKey = idem) (hown : (i, c.pair) ∈ taken tr)
      (hfree : c.pair ∉ s.db.credentials.map CredentialRow.pair) :
      Stage i tr s (.call (.putCredential c) (afterPut idem c))
  | rereading (parsed : CsrPayload) (idem : Bytes) (hk : RequestKey G V cfg body parsed idem) :
      Stage i tr s (.call (.getByIdempotencyKey idem) afterReread)

variable {G V cfg body} {i : ι} {tr : List (IssueEvent ι)} {s : Store}

/-! Each function the request goes on with leaves it at a stage. -/

theorem stage_problem {status : Nat} (type title : String) (detail : Bytes)
    (h : status ≠ 200) : Stage G V cfg body i tr s (.ret (problem status type title detail)) :=
  .done _ fun h' => absurd h' h

theorem stage_served {parsed : CsrPayload} {idem : Bytes}
    (hk : RequestKey G V cfg body parsed idem) {c : CredentialRow} (hc : c ∈ s.db.credentials)
    (hkey : c.idempotencyKey = idem) :
    Stage G V cfg body i tr s (.ret (writeCredential c.jws)) :=
  .done _ fun _ => ⟨parsed, idem, hk, c, hc, hkey, rfl⟩

theorem stage_afterReread {parsed : CsrPayload} {idem : Bytes}
    (hk : RequestKey G V cfg body parsed idem) {a : Except StoreError CredentialRow}
    (ha : ∀ c, a = .ok c → c ∈ s.db.credentials ∧ c.idempotencyKey = idem) :
    Stage G V cfg body i tr s (afterReread a) := by
  cases a with
  | ok c => exact stage_served hk (ha c rfl).1 (ha c rfl).2
  | error e => exact stage_problem _ _ _ (by decide)

theorem stage_afterPut {parsed : CsrPayload} {idem : Bytes}
    (hk : RequestKey G V cfg body parsed idem) {c : CredentialRow}
    {a : Except StoreError Unit}
    (ha : a = .ok () → c ∈ s.db.credentials ∧ c.idempotencyKey = idem) :
    Stage G V cfg body i tr s (afterPut idem c a) := by
  cases a with
  | ok u => exact stage_served hk (ha rfl).1 (ha rfl).2
  | error e => exact .rereading parsed idem hk

theorem stage_mintAndStore {parsed : CsrPayload} {idem : Bytes}
    (hk : RequestKey G V cfg body parsed idem) (now : Time)
    {a : Except StoreError (Nat × Nat)}
    (ha : ∀ p, a = .ok p →
      (i, p) ∈ taken tr ∧ p ∉ s.db.credentials.map CredentialRow.pair) :
    Stage G V cfg body i tr s (mintAndStore G cfg parsed idem now a) := by
  cases a with
  | error e => exact stage_problem _ _ _ (by decide)
  | ok p =>
    obtain ⟨epoch, idx⟩ := p
    simp only [mintAndStore]
    cases mint G cfg.signerPrivate cfg.signerPublic (approvedPayload cfg parsed now epoch idx) with
    | error e => exact stage_problem _ _ _ (by decide)
    | ok jws =>
      obtain ⟨hown, hfree⟩ := ha _ rfl
      exact .storing parsed idem hk (approvedRow cfg parsed idem jws now epoch idx) rfl hown hfree

theorem stage_actOnDecision {parsed : CsrPayload} {idem : Bytes}
    (hk : RequestKey G V cfg body parsed idem) (a : GoM Decision) :
    Stage G V cfg body i tr s (actOnDecision G cfg parsed idem a) := by
  cases a with
  | error e => exact stage_problem _ _ _ (by decide)
  | ok d =>
    simp only [actOnDecision]
    split
    · exact .approving parsed idem hk
    · exact .done _ fun h => absurd h (show (409 : Nat) ≠ 200 by decide)
    · exact stage_problem _ _ _ (by decide)
    · exact stage_problem _ _ _ (by decide)

theorem stage_afterAuthorize {parsed : CsrPayload} {idem : Bytes}
    (hk : RequestKey G V cfg body parsed idem) (a : GoM Unit) :
    Stage G V cfg body i tr s (afterAuthorize G cfg parsed idem a) := by
  cases a with
  | error e => exact stage_problem _ _ _ (by decide)
  | ok u =>
    simp only [afterAuthorize]
    split
    · exact stage_problem _ _ _ (by decide)
    · exact .evaluating parsed idem hk _ _

theorem stage_afterLookup {parsed : CsrPayload} {idem : Bytes}
    (hk : RequestKey G V cfg body parsed idem) {a : Except StoreError CredentialRow}
    (ha : ∀ c, a = .ok c → c ∈ s.db.credentials ∧ c.idempotencyKey = idem) :
    Stage G V cfg body i tr s (afterLookup G cfg parsed idem a) := by
  unfold afterLookup
  split
  · exact stage_served hk (ha _ rfl).1 (ha _ rfl).2
  · unfold authorizeAndDecide
    split
    · exact stage_problem _ _ _ (by decide)
    · exact .authorizing parsed idem hk _ _
  · exact stage_problem _ _ _ (by decide)

theorem stage_issueToken {data : Bytes} (hb : body = some data) (now : Time) :
    Stage G V cfg body i tr s (issueToken G V cfg (requestToken cfg data) now) := by
  unfold issueToken
  split
  · exact stage_problem _ _ _ (by decide)
  · rename_i parsed hp
    split
    · exact stage_problem _ _ _ (by decide)
    · rename_i idem hi
      exact .lookup parsed idem ⟨data, now, hb, hp, hi⟩

theorem stage_serveIssue : Stage G V cfg body i tr s (serveIssue G V cfg body) := by
  unfold serveIssue
  split
  · exact stage_problem _ _ _ (by decide)
  · split
    · exact stage_problem _ _ _ (by decide)
    · exact .start _ rfl

/-- A stage survives what the other requests and the operator do. -/
theorem Stage.mono {tr' : List (IssueEvent ι)} {s' : Store} {p : IssueProg Response}
    (h : Stage G V cfg body i tr s p) (hc : ∀ c ∈ s.db.credentials, c ∈ s'.db.credentials)
    (ht : ∀ x ∈ taken tr, x ∈ taken tr')
    (hf : ∀ q, (i, q) ∈ taken tr → q ∉ s.db.credentials.map CredentialRow.pair →
      q ∉ s'.db.credentials.map CredentialRow.pair) : Stage G V cfg body i tr' s' p := by
  cases h with
  | done r h =>
    refine .done r fun h200 => ?_
    obtain ⟨parsed, idem, hk, c, hm, hkey, hb⟩ := h h200
    exact ⟨parsed, idem, hk, c, hc c hm, hkey, hb⟩
  | start data hb => exact .start data hb
  | lookup parsed idem hk => exact .lookup parsed idem hk
  | authorizing parsed idem hk iss org => exact .authorizing parsed idem hk iss org
  | evaluating parsed idem hk view pub => exact .evaluating parsed idem hk view pub
  | approving parsed idem hk => exact .approving parsed idem hk
  | allocating parsed idem hk now exp => exact .allocating parsed idem hk now exp
  | storing parsed idem hk c hkey hown hfree =>
    exact .storing parsed idem hk c hkey (ht _ hown) (hf _ hown hfree)
  | rereading parsed idem hk => exact .rereading parsed idem hk

/-! ## What a call does to the store -/

theorem putCredential_ok {db db' : Database} {c : CredentialRow}
    (h : db.putCredential c = .ok db') :
    db'.credentials = db.credentials ++ [c] ∧ db'.epochs = db.epochs ∧
      c.idempotencyKey ∉ db.credentials.map CredentialRow.idempotencyKey := by
  simp only [Database.putCredential, bind_eq_ok, mapError_eq_ok, sqlUint_eq_ok, guard_eq_ok,
    pure_eq_ok] at h
  obtain ⟨_, ⟨-, rfl⟩, _, ⟨-, rfl⟩, hnone, rfl⟩ := h
  refine ⟨rfl, rfl, fun hm => hnone ?_⟩
  obtain ⟨d, hd, hk⟩ := List.mem_map.mp hm
  exact List.any_eq_true.mpr ⟨d, hd, by simpa using hk⟩

theorem getByIdempotencyKey_ok {db : Database} {key : Bytes} {c : CredentialRow}
    (h : db.getByIdempotencyKey key = .ok c) :
    c ∈ db.credentials ∧ c.idempotencyKey = key := by
  unfold Database.getByIdempotencyKey at h
  split at h
  · rename_i d hd
    obtain rfl := pure_eq_ok.mp h
    exact ⟨List.mem_of_find?_eq_some hd, by simpa using List.find?_some hd⟩
  · exact absurd h (by simp)

/-- The effect of a call: nothing, an allocation, or a new row. -/
inductive IssueEffect (s : Store) : (o : IssueOp) → IssueAns o → Store → Prop
  | idle (o : IssueOp) (a : IssueAns o) (ha : ∀ i : ι, takenPair ⟨i, o, a⟩ = none)
      (hr : storedRow o a = none) : IssueEffect s o a s
  | took (exp now : Time) (p : Nat × Nat) (s' : Store) (hs : s'.Sound)
      (he : Allocates exp now s.db.epochs s'.db.epochs p)
      (hc : s'.db.credentials = s.db.credentials) :
      IssueEffect s (.allocateIndex exp) (.ok p) s'
  | stored (c : CredentialRow) (s' : Store) (hs : s'.Sound)
      (he : s'.db.epochs = s.db.epochs) (hc : s'.db.credentials = s.db.credentials ++ [c])
      (hk : c.idempotencyKey ∉ s.db.credentials.map CredentialRow.idempotencyKey) :
      IssueEffect s (.putCredential c) (.ok ()) s'

theorem issue_effect {o : IssueOp} {a : IssueAns o} {s s' : Store} (h : IssueHandle s o a s')
    (hs : s.Sound) : IssueEffect (ι := ι) s o a s' := by
  cases h with
  | now t => exact .idle _ _ (fun _ => rfl) rfl
  | authorize iss org a => exact .idle _ _ (fun _ => rfl) rfl
  | evaluate view pub a => exact .idle _ _ (fun _ => rfl) rfl
  | get key => exact .idle _ _ (fun _ => rfl) rfl
  | getFault key detail => exact .idle _ _ (fun _ => rfl) rfl
  | allocateFault exp detail => exact .idle _ _ (fun _ => rfl) rfl
  | putFault c detail => exact .idle _ _ (fun _ => rfl) rfl
  | allocate exp now =>
    have hsound := hs.step (.allocateIndex exp now)
    simp only [Store.step] at hsound
    cases hr : s.db.allocateTx s.maxIndices exp now with
    | error e =>
      simp only [Store.allocateIndex, Store.commit, hr]
      exact .idle _ _ (fun _ => rfl) rfl
    | ok r =>
      obtain ⟨halloc, hrest⟩ := allocateTx_ok hs.table hs.max_pos hr
      simp only [Store.allocateIndex, Store.commit, hr] at hsound ⊢
      exact .took exp now r.2 _ hsound halloc hrest.credentials
  | put c =>
    cases hr : s.db.putCredential c with
    | error e =>
      simp only [Store.putCredential, Store.commit, hr, Except.map]
      exact .idle _ _ (fun _ => rfl) rfl
    | ok db =>
      obtain ⟨hcred, hep, hk⟩ := putCredential_ok hr
      simp only [Store.putCredential, Store.commit, hr, Except.map]
      exact .stored c _ ⟨hep ▸ hs.table, hs.max_pos⟩ hep hcred hk

/-! ## The invariant -/

theorem taken_concat (tr : List (IssueEvent ι)) (e : IssueEvent ι) :
    taken (tr ++ [e]) = taken tr ++ (takenPair e).toList := by
  rw [taken, List.filterMap_append]
  cases he : takenPair e <;> simp [taken, he]

theorem Ledger.fresh {m : Nat} {now : Time} (ho : Store.openStore .empty m now = .ok s) :
    Ledger (ι := ι) [] s := by
  have hc : s.db.credentials = [] := by
    simp only [Store.openStore, bind_eq_ok, mapError_eq_ok, pure_eq_ok] at ho
    obtain ⟨db, hdb, rfl⟩ := ho
    exact (ensureCurrentEpoch_ok hdb).2.2.credentials
  refine ⟨(openStore_empty ho).1, fun p hp => absurd hp List.not_mem_nil, List.nodup_nil, ?_, ?_,
    ?_⟩ <;> simp [hc]

/-- The operator does not touch the credentials, and keeps what was given out given out. -/
theorem Ledger.admin (hl : Ledger tr s) (c : Call) :
    Ledger tr (s.step c).1 ∧ (s.step c).1.db.credentials = s.db.credentials := by
  have hcred : (s.step c).1.db.credentials = s.db.credentials := step_credentials hl.sound c
  exact ⟨⟨hl.sound.step c, hl.below.step hl.sound c, hl.taken_nodup, hcred ▸ hl.keys_nodup,
    hcred ▸ hl.pairs_nodup, hcred ▸ hl.pairs_taken⟩, hcred⟩

/-- What one call of request `i` does to the ledger, and to the other requests' stages. -/
structure LedgerStep (tr tr' : List (IssueEvent ι)) (s s' : Store) (i : ι) : Prop where
  ledger : Ledger tr' s'
  rows : ∀ c ∈ s.db.credentials, c ∈ s'.db.credentials
  taken : ∀ x ∈ taken tr, x ∈ Issuer.taken tr'
  others : ∀ j q, j ≠ i → (j, q) ∈ Issuer.taken tr →
    q ∉ s.db.credentials.map CredentialRow.pair → q ∉ s'.db.credentials.map CredentialRow.pair

theorem Ledger.idle {o : IssueOp} {a : IssueAns o} (hl : Ledger tr s)
    (ha : ∀ i : ι, takenPair ⟨i, o, a⟩ = none) (i : ι) :
    LedgerStep tr (tr ++ [⟨i, o, a⟩]) s s i := by
  have htk : taken (tr ++ [⟨i, o, a⟩]) = taken tr := by
    rw [taken_concat, ha, Option.toList_none, List.append_nil]
  refine ⟨⟨hl.sound, ?_, ?_, hl.keys_nodup, hl.pairs_nodup, ?_⟩, fun c hc => hc, ?_,
    fun j q _ _ hq => hq⟩ <;> rw [htk]
  · exact hl.below
  · exact hl.taken_nodup
  · exact hl.pairs_taken
  · exact fun x hx => hx

theorem Ledger.took {exp now : Time} {p : Nat × Nat} {s' : Store} (hl : Ledger tr s)
    (hs : s'.Sound) (he : Allocates exp now s.db.epochs s'.db.epochs p)
    (hc : s'.db.credentials = s.db.credentials) (i : ι) :
    LedgerStep tr (tr ++ [⟨i, .allocateIndex exp, .ok p⟩]) s s' i ∧
      (i, p) ∈ Issuer.taken (tr ++ [⟨i, .allocateIndex exp, .ok p⟩]) ∧
      p ∉ s'.db.credentials.map CredentialRow.pair := by
  obtain ⟨hbelow, hnew⟩ := hl.below.allocates hl.sound.table he
  have htk : Issuer.taken (tr ++ [⟨i, .allocateIndex exp, .ok p⟩]) =
      Issuer.taken tr ++ [(i, p)] := taken_concat _ _
  have hsnd : (Issuer.taken tr ++ [(i, p)]).map Prod.snd =
      (Issuer.taken tr).map Prod.snd ++ [p] := by simp
  refine ⟨⟨⟨hs, ?_, ?_, hc ▸ hl.keys_nodup, hc ▸ hl.pairs_nodup, ?_⟩, ?_, ?_, ?_⟩, ?_, ?_⟩
  · rw [htk, hsnd]
    exact hbelow
  · rw [htk, hsnd, List.nodup_append]
    refine ⟨hl.taken_nodup, by simp, fun x hx y hy => ?_⟩
    rw [List.mem_singleton.mp hy]
    rintro rfl
    exact hnew hx
  · rw [htk, hsnd, hc]
    exact fun c hm => List.mem_append_left _ (hl.pairs_taken c hm)
  · rw [hc]
    exact fun c hm => hm
  · rw [htk]
    exact fun x hx => List.mem_append_left _ hx
  · rw [hc]
    exact fun j q _ _ hq => hq
  · rw [htk]
    exact List.mem_append_right _ (List.mem_singleton.mpr rfl)
  · rw [hc]
    intro hm
    obtain ⟨c, hcm, hp⟩ := List.mem_map.mp hm
    exact hnew (hp ▸ hl.pairs_taken c hcm)

theorem Ledger.stored {c : CredentialRow} {s' : Store} (hl : Ledger tr s) (hs : s'.Sound)
    (he : s'.db.epochs = s.db.epochs) (hc : s'.db.credentials = s.db.credentials ++ [c])
    (hk : c.idempotencyKey ∉ s.db.credentials.map CredentialRow.idempotencyKey)
    (hown : (i, c.pair) ∈ Issuer.taken tr)
    (hfree : c.pair ∉ s.db.credentials.map CredentialRow.pair) :
    LedgerStep tr (tr ++ [⟨i, .putCredential c, .ok ()⟩]) s s' i := by
  have htk : Issuer.taken (tr ++ [⟨i, .putCredential c, .ok ()⟩]) = Issuer.taken tr := by
    rw [taken_concat]
    exact List.append_nil _
  have hnodup : ∀ {β : Type} (f : CredentialRow → β), (s.db.credentials.map f).Nodup →
      f c ∉ s.db.credentials.map f → (s'.db.credentials.map f).Nodup := by
    intro β f hn hm
    rw [hc, List.map_append, List.nodup_append]
    refine ⟨hn, by simp, fun x hx y hy => ?_⟩
    rw [List.mem_singleton.mp hy]
    rintro rfl
    exact hm hx
  refine ⟨⟨hs, ?_, ?_, hnodup _ hl.keys_nodup hk, hnodup _ hl.pairs_nodup hfree, ?_⟩, ?_, ?_, ?_⟩
  · rw [htk, he]
    exact hl.below
  · rw [htk]
    exact hl.taken_nodup
  · rw [htk, hc]
    intro d hd
    rcases List.mem_append.mp hd with hd | hd
    · exact hl.pairs_taken d hd
    · rw [List.mem_singleton.mp hd]
      exact List.mem_map_of_mem hown
  · rw [hc]
    exact fun d hd => List.mem_append_left _ hd
  · rw [htk]
    exact fun x hx => hx
  · -- two requests never hold the same pair
    intro j q hj hq hfree' hm
    rw [hc, List.map_append] at hm
    rcases List.mem_append.mp hm with hm | hm
    · exact hfree' hm
    · rw [List.map_singleton, List.mem_singleton] at hm
      have := List.inj_on_of_nodup_map hl.taken_nodup hq hown hm
      exact hj (Prod.mk.inj this).1

/-- One call of a request keeps the ledger and every request's stage. -/
theorem issue_step {bodies : ι → Option Bytes} {s' : Store} {o : IssueOp}
    {k : IssueAns o → IssueProg Response} {a : IssueAns o} (hl : Ledger tr s)
    (hT : Stage G V cfg (bodies i) i tr s (.call o k)) (hh : IssueHandle s o a s') :
    LedgerStep tr (tr ++ [⟨i, o, a⟩]) s s' i ∧
      Stage G V cfg (bodies i) i (tr ++ [⟨i, o, a⟩]) s' (k a) := by
  have he := issue_effect (ι := ι) hh hl.sound
  cases hT with
  | start data hb =>
    cases hh with
    | now => exact ⟨hl.idle (fun _ => rfl) i, stage_issueToken hb a⟩
  | lookup parsed idem hk =>
    cases hh with
    | get key =>
      refine ⟨hl.idle (fun _ => rfl) i, stage_afterLookup hk fun c hc => ?_⟩
      exact getByIdempotencyKey_ok hc
    | getFault key detail =>
      exact ⟨hl.idle (fun _ => rfl) i, stage_afterLookup hk fun c hc => nomatch hc⟩
  | authorizing parsed idem hk iss org =>
    cases hh with
    | authorize iss org a => exact ⟨hl.idle (fun _ => rfl) i, stage_afterAuthorize hk a⟩
  | evaluating parsed idem hk view pub =>
    cases hh with
    | evaluate view pub a => exact ⟨hl.idle (fun _ => rfl) i, stage_actOnDecision hk a⟩
  | approving parsed idem hk =>
    cases hh with
    | now => exact ⟨hl.idle (fun _ => rfl) i, .allocating parsed idem hk a _⟩
  | allocating parsed idem hk now exp =>
    cases he with
    | idle o a ha hr =>
      refine ⟨hl.idle ha i, stage_mintAndStore hk now ?_⟩
      rintro p rfl
      exact absurd (ha i) (by simp [takenPair])
    | took exp now' p s' hs halloc hc =>
      obtain ⟨hstep, hown, hfree⟩ := hl.took hs halloc hc i
      refine ⟨hstep, stage_mintAndStore hk now ?_⟩
      rintro q hq
      cases hq
      exact ⟨hown, hfree⟩
  | storing parsed idem hk c hkey hown hfree =>
    cases he with
    | idle o a ha hr =>
      refine ⟨hl.idle ha i, stage_afterPut hk ?_⟩
      rintro rfl
      cases hr
    | stored c s' hs hep hc hk' =>
      have hstep := hl.stored hs hep hc hk' hown hfree
      refine ⟨hstep, stage_afterPut hk fun _ => ⟨?_, hkey⟩⟩
      rw [hc]
      exact List.mem_append_right _ (List.mem_singleton.mpr rfl)
  | rereading parsed idem hk =>
    cases hh with
    | get key =>
      refine ⟨hl.idle (fun _ => rfl) i, stage_afterReread hk fun c hc => ?_⟩
      exact getByIdempotencyKey_ok hc
    | getFault key detail =>
      exact ⟨hl.idle (fun _ => rfl) i, stage_afterReread hk fun c hc => nomatch hc⟩

variable [DecidableEq ι]

/-- Every reachable state of a pool of requests keeps the ledger and the stages. -/
theorem issue_run {m : Nat} {now : Time} {s₀ : Store}
    (ho : Store.openStore .empty m now = .ok s₀) (bodies : ι → Option Bytes)
    {pool : ι → IssueProg Response}
    (hr : Run IssueHandle AdminStep s₀ (fun i => serveIssue G V cfg (bodies i)) tr s pool) :
    Ledger tr s ∧ ∀ i, Stage G V cfg (bodies i) i tr s (pool i) := by
  refine Run.invariant (G := fun _ _ => True) (I := Ledger)
    (T := fun i => Stage G V cfg (bodies i) i) (Ledger.fresh ho) (fun _ => stage_serveIssue)
    ?_ ?_ hr
    (fun _ _ _ _ => trivial)
  · rintro tr s s' hl ⟨c, rfl⟩
    obtain ⟨hl', hc⟩ := hl.admin c
    exact ⟨hl', fun i p hp => hp.mono (fun d hd => hc ▸ hd) (fun x hx => hx)
      (fun q _ hq => hc ▸ hq)⟩
  · intro tr s s' i o k a hl _ hT hh
    obtain ⟨hstep, hTi⟩ := issue_step hl hT hh
    refine ⟨hstep.ledger, hTi, fun j p hj hp => ?_⟩
    exact hp.mono hstep.rows hstep.taken fun q hq hfree => hstep.others j q hj hq hfree

/-- Rows are never changed or removed. -/
theorem rows_kept {s₀ : Store} {pool₀ pool : ι → IssueProg Response} (hs : s₀.Sound)
    (hr : Run IssueHandle AdminStep s₀ pool₀ tr s pool) :
    ∀ c ∈ s₀.db.credentials, c ∈ s.db.credentials := by
  refine (Run.relates (R := fun s s' : Store => s.Sound → s'.Sound ∧
    ∀ c ∈ s.db.credentials, c ∈ s'.db.credentials) ?_ ?_ ?_ ?_ hr hs).2
  · exact fun s hs => ⟨hs, fun c hc => hc⟩
  · intro a b c hab hbc ha
    obtain ⟨hb, hsub⟩ := hab ha
    obtain ⟨hc, hsub'⟩ := hbc hb
    exact ⟨hc, fun d hd => hsub' d (hsub d hd)⟩
  · rintro s s' ⟨c, rfl⟩ hs
    exact ⟨hs.step c, fun d hd => step_credentials hs c ▸ hd⟩
  · intro s o a s' hh hs
    cases issue_effect (ι := ι) hh hs with
    | idle o a ha hr => exact ⟨hs, fun d hd => hd⟩
    | took exp now p s' hs' he hc => exact ⟨hs', fun d hd => hc ▸ hd⟩
    | stored c s' hs' he hc hk =>
      exact ⟨hs', fun d hd => hc ▸ List.mem_append_left _ hd⟩

/-- A verified and approved request whose key is not stored yet gets as far as its insert,
whatever the other requests do. -/
theorem follows_to_insert {data : Bytes} {parsed : CsrPayload} {idem pub jws : Bytes}
    {now : Time} {s' : Store} {epoch idx : Nat} (htok : requestToken cfg data ≠ [])
    (hp : parseAndVerifyCSR G V cfg.issuerIdentifier now (requestToken cfg data) = .ok parsed)
    (hi : idempotencyKey G parsed.iss parsed.aud parsed.req = .ok idem)
    (haud : parsed.aud = cfg.issuerIdentifier) (hsub : subjectPubFromCSR G parsed = .ok pub)
    (hnone : s.db.getByIdempotencyKey idem = .error .notFound)
    (halloc : s.allocateIndex (now.addSeconds 604800) now = (s', .ok (epoch, idx)))
    (hmint : mint G cfg.signerPrivate cfg.signerPublic (approvedPayload cfg parsed now epoch idx) =
      .ok jws) :
    ∃ calls, Follows IssueHandle s (serveIssue G V cfg (some data)) calls s'
      (.call (.putCredential (approvedRow cfg parsed idem jws now epoch idx))
        (afterPut idem (approvedRow cfg parsed idem jws now epoch idx))) := by
  have hstart : serveIssue G V cfg (some data) =
      .call .now (issueToken G V cfg (requestToken cfg data)) := by
    simp only [serveIssue, if_neg htok]
    rfl
  have htoken : issueToken G V cfg (requestToken cfg data) now =
      .call (.getByIdempotencyKey idem) (afterLookup G cfg parsed idem) := by
    simp only [issueToken, hp, hi]
    rfl
  have hlookup : afterLookup G cfg parsed idem (.error .notFound) =
      .call (.authorize cfg.issuerIdentifier parsed.req.org)
        (afterAuthorize G cfg parsed idem) := by
    simp only [afterLookup, authorizeAndDecide, if_neg (not_not.mpr haud)]
    rfl
  have hauth : afterAuthorize G cfg parsed idem (.ok ()) =
      .call (.evaluate (csrView parsed) pub) (actOnDecision G cfg parsed idem) := by
    simp only [afterAuthorize, hsub]
    rfl
  have hstored : mintAndStore G cfg parsed idem now (.ok (epoch, idx)) =
      .call (.putCredential (approvedRow cfg parsed idem jws now epoch idx))
        (afterPut idem (approvedRow cfg parsed idem jws now epoch idx)) := by
    simp only [mintAndStore, hmint]
    rfl
  have h1 := IssueHandle.get s idem
  rw [hnone] at h1
  have h2 := IssueHandle.allocate s (now.addSeconds 604800) now
  rw [halloc] at h2
  refine ⟨[⟨.now, now⟩, ⟨.getByIdempotencyKey idem, .error .notFound⟩,
    ⟨.authorize cfg.issuerIdentifier parsed.req.org, .ok ()⟩,
    ⟨.evaluate (csrView parsed) pub, .ok ⟨.approve, [], []⟩⟩, ⟨.now, now⟩,
    ⟨.allocateIndex (now.addSeconds 604800), .ok (epoch, idx)⟩], ?_⟩
  rw [hstart]
  refine .call (.now s now) ?_
  rw [htoken]
  refine .call h1 ?_
  rw [hlookup]
  refine .call (.authorize s _ _ (.ok ())) ?_
  rw [hauth]
  refine .call (.evaluate s _ _ (.ok ⟨.approve, [], []⟩)) (.call (.now s now) (.call h2 ?_))
  change Follows IssueHandle s' (mintAndStore G cfg parsed idem now (.ok (epoch, idx))) [] s' _
  rw [hstored]
  exact .stop _ _

/-! ## The result -/

/-- What a verified token says does not depend on the clock. -/
theorem parseAndVerifyCSR_segment {aud token : Bytes} {now : Time} {p : CsrPayload}
    (h : parseAndVerifyCSR G V aud now token = .ok p) : csrSegment G token = .ok p := by
  simp only [parseAndVerifyCSR, csrVerify, csrClaims, bind_eq_ok, mapError_eq_ok, guard_eq_ok,
    pure_eq_ok] at h
  obtain ⟨_, -, _, ⟨_, -, -, -, p, hp, -, -, rfl⟩, _, -, -, -, rfl⟩ := h
  exact hp

/-- A request has one idempotency key. -/
theorem RequestKey.unique {p p' : CsrPayload} {idem idem' : Bytes}
    (h : RequestKey G V cfg body p idem) (h' : RequestKey G V cfg body p' idem') :
    idem = idem' := by
  obtain ⟨data, now, hb, hp, hi⟩ := h
  obtain ⟨data', now', hb', hp', hi'⟩ := h'
  obtain rfl : data = data' := Option.some.inj (hb.symm.trans hb')
  have hseg := parseAndVerifyCSR_segment hp
  rw [parseAndVerifyCSR_segment hp'] at hseg
  cases hseg
  exact Except.ok.inj (hi.symm.trans hi')

/-- In every interleaving of any number of requests with the operator's calls: the stored
rows have distinct idempotency keys and distinct revocation pairs, a row is still there
unchanged after any continuation, and every 200 response carries the JWS of the row stored
under the key of its request. -/
theorem issuance_idempotent {m : Nat} {now : Time} {s₀ : Store}
    (ho : Store.openStore .empty m now = .ok s₀) (bodies : ι → Option Bytes)
    {pool : ι → IssueProg Response}
    (hr : Run IssueHandle AdminStep s₀ (fun i => serveIssue G V cfg (bodies i)) tr s pool) :
    (s.db.credentials.map CredentialRow.idempotencyKey).Nodup ∧
    (s.db.credentials.map CredentialRow.pair).Nodup ∧
    (∀ more s' pool', Run IssueHandle AdminStep s pool more s' pool' →
      ∀ c ∈ s.db.credentials, c ∈ s'.db.credentials) ∧
    ∀ i r parsed idem, pool i = .ret r → r.status = 200 →
      RequestKey G V cfg (bodies i) parsed idem →
        ∃ c ∈ s.db.credentials, c.idempotencyKey = idem ∧ r.body = c.jws := by
  obtain ⟨hl, hT⟩ := issue_run ho bodies hr
  refine ⟨hl.keys_nodup, hl.pairs_nodup, fun more s' pool' hmore => rows_kept hl.sound hmore, ?_⟩
  intro i r parsed idem hret h200 hk
  have hTi := hT i
  rw [hret] at hTi
  cases hTi with
  | done r h =>
    obtain ⟨parsed', idem', hk', c, hc, hkey, hb⟩ := h h200
    exact ⟨c, hc, hkey.trans (hk'.unique hk), hb⟩

end

/-! ## Two requests that race

Both look up, both allocate and sign; the second insert fails and the second request serves
the first one's token. -/

/-- A request signed by its subject. -/
def raceToken : Bytes :=
  compactToken csrHeaderJson
    (bytes "\x7b\"iss\":\"z6Mkon3Necd6NkkyfoGoHxid2znGc59LU3K7mubaRcFbLfLX\",\"aud\":\"a.co\"," ++
      bytes "\"iat\":100,\"exp\":400,\"req\":\x7b\"kind\":\"k\",\"org\":\"a.co\"\x7d\x7d")
    [85, 76, 32, 15, 157, 46, 6, 250, 141, 146, 40, 206, 107, 44, 216, 243, 189, 32, 245, 138,
      10, 184, 62, 126, 88, 88, 0, 193, 37, 49, 131, 136, 249, 107, 76, 0, 89, 141, 15, 12, 88,
      121, 33, 226, 155, 231, 190, 255, 208, 82, 60, 115, 209, 231, 144, 36, 167, 61, 102, 23,
      145, 65, 235, 1]

/-- SHA-256 on the request's idempotency input. -/
def raceDigest : Bytes :=
  [207, 168, 45, 90, 127, 246, 145, 100, 224, 118, 85, 180, 144, 161, 130, 118, 233, 190, 177,
    64, 188, 75, 226, 104, 93, 21, 45, 179, 112, 198, 5, 193]

/-- The issuer's signatures over the two credentials of the race. -/
def raceSignature (payload : Bytes) : Bytes :=
  if payload.getD (payload.length - 3) 0 = 0x30 then
    [187, 60, 3, 135, 14, 160, 0, 142, 141, 127, 246, 61, 139, 70, 149, 109, 249, 131, 28, 28,
      96, 56, 52, 211, 137, 166, 116, 80, 64, 163, 98, 33, 30, 120, 150, 110, 200, 82, 212, 122,
      50, 165, 109, 23, 155, 115, 118, 74, 226, 138, 127, 158, 251, 176, 63, 183, 76, 239, 38,
      119, 55, 42, 177, 2]
  else
    [74, 26, 11, 58, 124, 15, 181, 19, 7, 248, 50, 22, 38, 109, 220, 63, 22, 92, 65, 113, 65,
      102, 35, 90, 109, 80, 93, 142, 230, 221, 83, 180, 149, 32, 69, 139, 119, 113, 171, 200, 164,
      52, 7, 211, 141, 196, 27, 227, 168, 207, 117, 221, 243, 218, 16, 108, 101, 47, 41, 141, 56,
      39, 84, 2]

/-- The issuer's signer on the two credentials. -/
def raceSigner (_ _ _ payload : Bytes) : GoM Bytes :=
  pure (utf8 (base64Url (bytes "\x7b\"alg\":\"EdDSA\",\"kid\":\"shadownet@a.co\"," ++
    bytes "\"typ\":\"shadownet-cred+jwt\"\x7d"))
    ++ 0x2E :: (utf8 (base64Url payload) ++ 0x2E :: utf8 (base64Url (raceSignature payload))))

def raceRuntime : Runtime := sampleRuntime (fun _ => raceDigest) raceSigner

def raceConfig : HandlerConfig :=
  { issuerIdentifier := bytes "a.co", maxBody := 65536
    signerPrivate :=
      [3, 3, 3, 3, 3, 3, 3, 3, 3, 3, 3, 3, 3, 3, 3, 3, 3, 3, 3, 3, 3, 3, 3, 3, 3, 3, 3, 3, 3, 3,
        3, 3, 237, 73, 40, 198, 40, 209, 194, 198, 234, 233, 3, 56, 144, 89, 149, 97, 41, 89, 39,
        58, 92, 99, 249, 54, 54, 193, 70, 20, 172, 135, 55, 209]
    signerPublic :=
      [237, 73, 40, 198, 40, 209, 194, 198, 234, 233, 3, 56, 144, 89, 149, 97, 41, 89, 39, 58,
        92, 99, 249, 54, 54, 193, 70, 20, 172, 135, 55, 209] }

/-- Ed25519 on the subject's signature. -/
def raceVerifier : Verifier := fun key msg sig =>
  key == attackerKey && (compactJws raceRuntime raceToken).toOption.any fun obj =>
    obj.signingInput == msg && obj.signature == sig

def racePayload : CsrPayload :=
  { iss := bytes "z6Mkon3Necd6NkkyfoGoHxid2znGc59LU3K7mubaRcFbLfLX", aud := bytes "a.co"
    iat := 100, exp := 400, req := { kind := bytes "k", org := bytes "a.co" } }

def raceKey : Bytes := hexEncode raceDigest

/-- The row of the request that was given index `idx`. -/
def raceRow (idx : Nat) (jws : Bytes) : CredentialRow :=
  approvedRow raceConfig racePayload raceKey jws (Time.ofUnix 200) 1 idx

theorem race_request : requestToken raceConfig raceToken = raceToken ∧ raceToken ≠ [] := by
  decide +kernel

theorem race_parse : parseAndVerifyCSR raceRuntime raceVerifier raceConfig.issuerIdentifier
    (Time.ofUnix 200) raceToken = .ok racePayload := by
  decide +kernel

theorem race_key : idempotencyKey raceRuntime racePayload.iss racePayload.aud racePayload.req =
    .ok raceKey := by
  decide

example : raceKey.length = 64 := by decide

/-- A store of five indices per epoch, with `n` of them given out and the given rows. -/
def raceStore (n : Nat) (rows : List CredentialRow) : Store :=
  ⟨⟨[{ Database.newEpochRow 1 5 (Time.ofUnix 100) with
        nextIdx := n, lastIssued := if n = 0 then 0 else 605000 }], [], rows⟩, 5⟩

theorem race_mint (idx : Nat) (h : idx < 2) : ∃ jws,
    mint raceRuntime raceConfig.signerPrivate raceConfig.signerPublic
      (approvedPayload raceConfig racePayload (Time.ofUnix 200) 1 idx) = .ok jws := by
  have hok : ∀ idx < 2, (mint raceRuntime raceConfig.signerPrivate raceConfig.signerPublic
      (approvedPayload raceConfig racePayload (Time.ofUnix 200) 1 idx)).isOk = true := by
    decide
  exact isOk_iff.mp (hok idx h)

theorem race_alloc (idx : Nat) (h : idx < 2) :
    (raceStore idx []).allocateIndex ((Time.ofUnix 200).addSeconds 604800) (Time.ofUnix 200) =
      (raceStore (idx + 1) [], .ok (1, idx)) := by
  have hall : ∀ idx < 2, (raceStore idx []).allocateIndex ((Time.ofUnix 200).addSeconds 604800)
      (Time.ofUnix 200) = (raceStore (idx + 1) [], .ok (1, idx)) := by
    decide
  exact hall idx h

/-- A request of the race reaches its insert. -/
theorem race_follows {idx : Nat} (h : idx < 2) : ∃ jws calls,
    Follows IssueHandle (raceStore idx [])
      (serveIssue raceRuntime raceVerifier raceConfig (some raceToken)) calls
      (raceStore (idx + 1) [])
      (.call (.putCredential (raceRow idx jws)) (afterPut raceKey (raceRow idx jws))) := by
  obtain ⟨jws, hm⟩ := race_mint idx h
  have htok : requestToken raceConfig raceToken ≠ [] := by
    rw [race_request.1]
    exact race_request.2
  have hparse := race_parse
  rw [← race_request.1] at hparse
  have haud : racePayload.aud = raceConfig.issuerIdentifier := by decide
  have hsub : subjectPubFromCSR raceRuntime racePayload = .ok attackerKey := by decide
  exact ⟨jws, follows_to_insert htok hparse race_key haud hsub rfl (race_alloc idx h) hm⟩

theorem race_insert (jws : Bytes) :
    (raceStore 2 []).putCredential (raceRow 0 jws) = (raceStore 2 [raceRow 0 jws], .ok ()) := rfl

theorem race_lost (jws jws' : Bytes) :
    ∃ e, (raceStore 2 [raceRow 0 jws]).putCredential (raceRow 1 jws') =
      (raceStore 2 [raceRow 0 jws], .error e) := by
  have hsome : [raceRow 0 jws].any
      (fun r => r.idempotencyKey == (raceRow 1 jws').idempotencyKey) = true := by
    simp [raceRow, approvedRow]
  refine ⟨.failure ("sqlitestore: insert credential: UNIQUE constraint failed: " ++
    "issuer_credentials.idempotency_key"), ?_⟩
  have h6 : sqlUint 6 (raceRow 1 jws').epoch = .ok 1 := rfl
  have h7 : sqlUint 7 (raceRow 1 jws').idx = .ok 1 := rfl
  simp only [Store.putCredential, Database.putCredential, raceStore, h6, h7, bind, Except.bind,
    Except.mapError, hsome, if_true]
  rfl

theorem race_reread (jws : Bytes) :
    (raceStore 2 [raceRow 0 jws]).db.getByIdempotencyKey raceKey = .ok (raceRow 0 jws) := by
  simp [Database.getByIdempotencyKey, raceStore, raceRow, approvedRow, pure, Except.pure]

/-- The race, as a run: both requests reach their insert, the first succeeds, the second
fails and reads the first one's row. -/
theorem race_run : ∃ jws tr s pool,
    Run IssueHandle AdminStep (raceStore 0 [])
      (fun _ : Bool => serveIssue raceRuntime raceVerifier raceConfig (some raceToken)) tr s pool ∧
    pool true = .ret (writeCredential jws) ∧ pool false = .ret (writeCredential jws) := by
  obtain ⟨jws, calls, hf⟩ := race_follows (show 0 < 2 by decide)
  obtain ⟨jws', calls', hf'⟩ := race_follows (show 1 < 2 by decide)
  obtain ⟨e, hlost⟩ := race_lost jws jws'
  have hstart : Run IssueHandle AdminStep (raceStore 0 [])
      (fun _ : Bool => serveIssue raceRuntime raceVerifier raceConfig (some raceToken)) []
      (raceStore 0 []) _ := .start
  have h1 := hstart.follow (i := true) rfl hf
  have h2 := h1.follow (i := false) (Function.update_of_ne (by decide) _ _) hf'
  have hput := IssueHandle.put (raceStore 2 []) (raceRow 0 jws)
  rw [race_insert] at hput
  have h3 := h2.step (i := true)
    ((Function.update_of_ne (by decide) _ _).trans (Function.update_self ..)) hput
  have hput' := IssueHandle.put (raceStore 2 [raceRow 0 jws]) (raceRow 1 jws')
  rw [hlost] at hput'
  have h4 := h3.step (i := false)
    ((Function.update_of_ne (by decide) _ _).trans (Function.update_self ..)) hput'
  have hget := IssueHandle.get (raceStore 2 [raceRow 0 jws]) raceKey
  rw [race_reread] at hget
  have h5 := h4.step (i := false) (Function.update_self ..) hget
  refine ⟨jws, _, _, _, h5, ?_, Function.update_self ..⟩
  rw [Function.update_of_ne (by decide), Function.update_of_ne (by decide), Function.update_self]
  rfl

theorem issuance_idempotent_race : ∃ jws tr s pool,
    Run IssueHandle AdminStep (raceStore 0 [])
      (fun _ : Bool => serveIssue raceRuntime raceVerifier raceConfig (some raceToken)) tr s pool ∧
    (∀ i, pool i = .ret (writeCredential jws)) ∧
    ∃ c ∈ s.db.credentials, c.idempotencyKey = raceKey ∧ c.jws = jws := by
  obtain ⟨jws, tr, s, pool, hr, htrue, hfalse⟩ := race_run
  have ho : Store.openStore .empty 5 (Time.ofUnix 100) = .ok (raceStore 0 []) := rfl
  have hparse := race_parse
  rw [← race_request.1] at hparse
  have hk : RequestKey raceRuntime raceVerifier raceConfig (some raceToken) racePayload raceKey :=
    ⟨raceToken, Time.ofUnix 200, rfl, hparse, race_key⟩
  obtain ⟨-, -, -, hserved⟩ := issuance_idempotent ho (fun _ : Bool => some raceToken) hr
  obtain ⟨c, hc, hkey, hb⟩ := hserved true _ _ _ htrue rfl hk
  refine ⟨jws, tr, s, pool, hr, fun i => ?_, c, hc, hkey, hb.symm⟩
  cases i with
  | true => exact htrue
  | false => exact hfalse

end Shadownet.Issuer
