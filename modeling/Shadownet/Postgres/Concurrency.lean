import Shadownet.Postgres.Transactions

/-!
# Concurrent calls of the issuer store

Any number of `AllocateIndex` and `RotateEpoch` calls on a store that was just bootstrapped, their
statements interleaved in any order.

* `Safe`: no pair is given out twice, each index is below the ceiling of its epoch, and one epoch
  is open.
* A call that picked the open row and has to wait fails when the epoch is closed before it gets
  the lock: `allocate_fails` is such a run. `Unraced` says that a commit closes no row that another
  call is waiting for.
* `concurrent_calls`: no call fails in the runs whose commits are unraced, and in no other run of
  calls that have all returned.
-/

namespace Shadownet.Postgres

open Foundation Go

/-! ## What the calls return -/

section
variable {ι : Type} {s : Server ι} {L : ι → Local} {i : ι} {l : Local}
  {pool : ι → Prog (Stmt ι) Ans (Except StoreError Outcome)}

/-- What every transaction is at keeps to the plan. -/
structure OnPlan (s : Server ι) (L : ι → Local)
    (pool : ι → Prog (Stmt ι) Ans (Except StoreError Outcome)) : Prop where
  invariant : Invariant s L
  disciplined : ∀ i, Disciplined i (L i) (pool i)

/-- No pair is given out twice, each index is below the ceiling of its epoch, and exactly one
committed row is open. -/
structure Safe (s : Server ι) (pool : ι → Prog (Stmt ι) Ans (Except StoreError Outcome)) :
    Prop where
  distinct : ∀ i j p, pool i = .ret (.ok (.allocated p)) → pool j = .ret (.ok (.allocated p)) →
    i = j
  below : ∀ i e x, pool i = .ret (.ok (.allocated (e, x))) →
    ∃ r ∈ s.committed, uint64 r.number = e ∧ x < uint64 r.maxIndices
  oneOpen : ∃ r, s.committed.filter (·.closedAt.isNone) = [r]

def NoFailure (pool : ι → Prog (Stmt ι) Ans (Except StoreError Outcome)) : Prop :=
  ∀ i e, pool i ≠ .ret (.error e)

namespace OnPlan

theorem returned (h : OnPlan s L pool) {out : Outcome} (hi : pool i = .ret (.ok out)) :
    L i = .done out.pair := by
  have hd := h.disciplined i
  rw [hi] at hd
  generalize L i = l at hd
  cases hd with
  | done => rfl

theorem failed (h : OnPlan s L pool) {e : StoreError} (hi : pool i = .ret (.error e)) :
    L i = .failed := by
  have hd := h.disciplined i
  rw [hi] at hd
  generalize L i = l at hd
  cases hd with
  | failed => rfl

theorem safe (h : OnPlan s L pool) : Safe s pool := by
  obtain ⟨init, last, hrows, ht⟩ := h.invariant.table
  refine ⟨fun i j p hi hj => ?_, fun i e x hi => ?_, last, ?_⟩
  · exact h.invariant.distinct i j p (h.returned hi) (h.returned hj)
  · have hfact := (h.invariant.synced i).fact
    rw [h.returned hi] at hfact
    obtain ⟨r, hr, hnum, hlt⟩ := hfact
    have hle := (ht.sane r (hrows ▸ hr)).next_le
    exact ⟨r, hr, hnum, by omega⟩
  · rw [hrows]
    exact ht.filter_open

/-- A call that is doomed and has ended has failed. -/
theorem fails (h : OnPlan s L pool) (hd : Doomed s.committed (L i))
    {r : Except StoreError Outcome} (hi : pool i = .ret r) : ∃ e, pool i = .ret (.error e) := by
  cases r with
  | error e => exact ⟨e, hi⟩
  | ok out =>
    rw [h.returned hi] at hd
    exact hd.elim

end OnPlan

/-- A call that has not begun is not doomed. -/
theorem request_idle {m : Nat} {q : Request} (hq : q.Valid)
    (h : Disciplined i l (request m i q)) : l = .idle := by
  cases q with
  | allocateIndex exp =>
    rw [request, allocateIndex_eq hq] at h
    cases h with
    | candidate => rfl
  | rotateEpoch arg t =>
    by_cases ht : t.isZero = true
    · rw [request, rotateEpoch, if_pos ht] at h
      cases h with
      | now hnext =>
        cases hnext t with
        | candidate => rfl
    · rw [request, rotateEpoch_eq (by simpa using ht)] at h
      cases h with
      | candidate => rfl

/-- A store that was just opened, without transactions. -/
def Server.start (store : IssuerStore) : Server ι :=
  ⟨store.epochs, fun _ => [], fun _ => [], fun _ => none⟩

/-- One transaction for each request. -/
def calls (store : IssuerStore) (requests : ι → Request) :
    ι → Prog (Stmt ι) Ans (Except StoreError Outcome) :=
  fun i => request store.maxIndices i (requests i)

theorem onPlan_start {m : Nat} (hm : m < 18446744073709551616) {now : Time}
    {requests : ι → Request} (hv : ∀ i, (requests i).Valid) :
    OnPlan (Server.start (IssuerStore.newIssuerStore m now)) (fun _ => .idle)
      (calls (IssuerStore.newIssuerStore m now) requests) := by
  have hceil : Ceiling (IssuerStore.newIssuerStore m now).maxIndices := by
    change Ceiling (if m = 0 then Issuer.defaultMaxIndices else m)
    split
    · exact ⟨by decide, by decide⟩
    · exact ⟨by omega, hm⟩
  have htable : Table [] (newEpochRow 1 (IssuerStore.newIssuerStore m now).maxIndices now) := by
    refine ⟨⟨rfl, by simp⟩, by simp, fun r hr => ?_, _, List.mem_singleton_self _, rfl⟩
    rw [List.mem_singleton.mp hr]
    exact Sane.new (by decide) (by decide) hceil now le_rfl Int.one_nonneg none
  refine ⟨⟨⟨[], _, rfl, htable⟩, ?_, fun i => ⟨rfl, rfl, trivial⟩, ?_⟩,
    fun i => request_disciplined hceil (hv i)⟩
  · rintro i j n hn
    cases hn
  · rintro i j p hp
    cases hp

end

/-! ## Runs -/

section
variable {ι : Type} [DecidableEq ι] {s s' : Server ι} {L : ι → Local} {i : ι} {l : Local}

/-- The numbers stay within a `BIGINT`. -/
def Fitting (s : Server ι) (o : Stmt ι) (a : Ans o) (s' : Server ι) : Prop :=
  o.Fits ∧ s.Handle o a s'

/-- And no commit closes a row that another call is waiting for. -/
def Unraced (s : Server ι) (o : Stmt ι) (a : Ans o) (s' : Server ι) : Prop :=
  (∀ j, ¬ Raced s o j) ∧ Fitting s o a s'

/-- The runs of the pool, with the server to itself. -/
abbrev RunOf (handle : Server ι → (o : Stmt ι) → Ans o → Server ι → Prop) :=
  @Run ι (Stmt ι) (Server ι) (Except StoreError Outcome) Ans _ handle fun _ _ => False

variable {s₀ : Server ι} {pool₀ pool : ι → Prog (Stmt ι) Ans (Except StoreError Outcome)}
  {L₀ : ι → Local} {tr : List (Event ι (Stmt ι) Ans)}

theorem OnPlan.step (h : OnPlan s L pool) {o : Stmt ι}
    {k : Ans o → Prog (Stmt ι) Ans (Except StoreError Outcome)} {a : Ans o}
    (hc : pool i = .call o k) (hs : Fitting s o a s') :
    ∃ l, OnPlan s' (Function.update L i l) (Function.update pool i (k a)) ∧
      Progress s L i o s' l := by
  obtain ⟨l, hd, hp⟩ := step_progress h.invariant (hc ▸ h.disciplined i) hs.2 hs.1
  refine ⟨l, ⟨hp.invariant, fun j => ?_⟩, hp⟩
  by_cases hj : j = i
  · subst hj
    rw [Function.update_self, Function.update_self]
    exact hd
  · rw [Function.update_of_ne hj, Function.update_of_ne hj]
    exact h.disciplined j

/-- The doomed calls after a statement. -/
theorem Progress.doomed_iff {o : Stmt ι} (hp : Progress s L i o s' l) (hi : ¬ Raced s o i)
    (j : ι) : Doomed s'.committed (Function.update L i l j) ↔
      Doomed s.committed (L j) ∨ Raced s o j := by
  by_cases hj : j = i
  · subst hj
    rw [Function.update_self, hp.mine, or_iff_left hi]
  · rw [Function.update_of_ne hj]
    exact hp.others j hj

/-- In an unraced run no call is doomed. -/
theorem unraced_run (h0 : OnPlan s₀ L₀ pool₀) (hd0 : ∀ j, ¬ Doomed s₀.committed (L₀ j))
    (hr : RunOf Unraced s₀ pool₀ tr s pool) :
    ∃ L, OnPlan s L pool ∧ ∀ j, ¬ Doomed s.committed (L j) := by
  induction hr with
  | start => exact ⟨L₀, h0, hd0⟩
  | env hr he ih => exact he.elim
  | @step tr s s' pool i o k a hr hc hs ih =>
    obtain ⟨L, hf, hno⟩ := ih
    obtain ⟨l, hf', hp⟩ := hf.step hc hs.2
    refine ⟨_, hf', fun j => ?_⟩
    rw [hp.doomed_iff (hs.1 i)]
    exact not_or.mpr ⟨hno j, hs.1 j⟩

/-- A run is unraced, or has a doomed call. -/
theorem fitting_run (h0 : OnPlan s₀ L₀ pool₀) (hr : RunOf Fitting s₀ pool₀ tr s pool) :
    ∃ L, OnPlan s L pool ∧
      (RunOf Unraced s₀ pool₀ tr s pool ∨ ∃ j, Doomed s.committed (L j)) := by
  induction hr with
  | start => exact ⟨L₀, h0, .inl .start⟩
  | env hr he ih => exact he.elim
  | @step tr s s' pool i o k a hr hc hs ih =>
    obtain ⟨L, hf, hor⟩ := ih
    obtain ⟨l, hf', hp⟩ := hf.step hc hs
    have hself := hf.invariant.not_raced_self (hc ▸ hf.disciplined i)
    refine ⟨_, hf', ?_⟩
    rcases hor with hrun | ⟨j, hj⟩
    · by_cases hraced : ∀ j, ¬ Raced s o j
      · exact .inl (hrun.step hc ⟨hraced, hs⟩)
      · obtain ⟨j, hj⟩ := not_forall_not.mp hraced
        exact .inr ⟨j, (hp.doomed_iff hself j).mpr (.inr hj)⟩
    · exact .inr ⟨j, (hp.doomed_iff hself j).mpr (.inl hj)⟩

/-- Any number of calls on a store that was just bootstrapped, interleaved in any order. When no
commit closes an epoch that another call is waiting for, no call fails, no pair is given out
twice, each index is below the ceiling of its epoch, and one epoch is open. Whatever the commits
close, the last three hold; and when all calls that have begun have returned, one of them has
failed unless the run is such a run. -/
theorem concurrent_calls {m : Nat} (hm : m < 18446744073709551616) {now : Time}
    {requests : ι → Request} (hv : ∀ i, (requests i).Valid) :
    (RunOf Unraced (Server.start (IssuerStore.newIssuerStore m now))
        (calls (IssuerStore.newIssuerStore m now) requests) tr s pool →
      Safe s pool ∧ NoFailure pool) ∧
    (RunOf Fitting (Server.start (IssuerStore.newIssuerStore m now))
        (calls (IssuerStore.newIssuerStore m now) requests) tr s pool →
      Safe s pool ∧
      ((∀ i, pool i = calls (IssuerStore.newIssuerStore m now) requests i ∨
          ∃ r, pool i = .ret r) → NoFailure pool →
        RunOf Unraced (Server.start (IssuerStore.newIssuerStore m now))
          (calls (IssuerStore.newIssuerStore m now) requests) tr s pool)) := by
  have h0 := @onPlan_start ι m hm now requests hv
  constructor
  · intro hr
    obtain ⟨L, hplan, hno⟩ := unraced_run h0 (fun _ => id) hr
    refine ⟨hplan.safe, fun i e hi => hno i ?_⟩
    rw [hplan.failed hi]
    trivial
  · intro hr
    obtain ⟨L, hplan, hor⟩ := fitting_run h0 hr
    refine ⟨hplan.safe, fun hdone hok => hor.resolve_right ?_⟩
    rintro ⟨j, hj⟩
    rcases hdone j with hstart | ⟨r, hret⟩
    · have hd := hplan.disciplined j
      rw [hstart] at hd
      rw [request_idle (hv j) hd] at hj
      exact hj
    · obtain ⟨e, he⟩ := hplan.fails hj hret
      exact hok j e he

end

/-! ## Two calls at once -/

theorem RunOf.next {ι : Type} [DecidableEq ι]
    {handle : Server ι → (o : Stmt ι) → Ans o → Server ι → Prop} {s₀ s s' : Server ι}
    {pool₀ pool : ι → Prog (Stmt ι) Ans (Except StoreError Outcome)}
    {tr : List (Event ι (Stmt ι) Ans)} (hr : RunOf handle s₀ pool₀ tr s pool) (i : ι)
    (o : Stmt ι) (a : Ans o) {k : Ans o → Prog (Stmt ι) Ans (Except StoreError Outcome)}
    (hc : pool i = .call o k) (hs : handle s o a s') :
    RunOf handle s₀ pool₀ (tr ++ [⟨i, o, a⟩]) s' (Function.update pool i (k a)) := hr.step hc hs

theorem Server.insert_ok {ι : Type} [DecidableEq ι] {s : Server ι} {i : ι} {row : EpochRow}
    (h : ∀ j, j ≠ i → s.pending j = [])
    (hnew : (s.view i).any (·.number == row.number) = false) :
    s.Handle (.write i (.insert row)) (.ok ()) (s.write i (.insert row)) := by
  refine ⟨fun j hj row' hm => ?_, ?_⟩
  · rw [h j hj] at hm
    cases hm
  · rw [if_neg (by simp [hnew])]
    exact ⟨rfl, rfl⟩

def fiveStore : IssuerStore := IssuerStore.newIssuerStore 5 (Time.ofUnix 100)

/-- An allocation and a rotation. -/
def twoRequests : Bool → Request
  | true => .allocateIndex (Time.ofUnix 1000)
  | false => .rotateEpoch 0 (Time.ofUnix 200)

theorem twoRequests_valid : ∀ i, (twoRequests i).Valid := by
  intro i
  cases i
  · exact (by decide : 0 < 18446744073709551616)
  · exact (by decide : (Time.ofUnix 1000).isZero = false)

/-- The rotation waits for the allocation and then gets the row. -/
theorem concurrent_calls_waiting : ∃ tr s pool,
    RunOf Unraced (Server.start fiveStore) (calls fiveStore twoRequests) tr s pool ∧
      Safe s pool ∧ NoFailure pool ∧ pool true = .ret (.ok (.allocated (1, 0))) := by
  have h0 : RunOf Unraced (Server.start fiveStore) (calls fiveStore twoRequests) [] _ _ := .start
  have h1 := h0.next true (.candidate true) (some 1) rfl ⟨fun _ => id, trivial, by decide, rfl⟩
  have h2 := h1.next true (.lockRow true 1) (some (newEpochRow 1 5 (Time.ofUnix 100))) rfl
    ⟨fun _ => id, trivial, by unfold Server.Free; decide, by decide, rfl⟩
  have h3 := h2.next false (.candidate false) (some 1) rfl ⟨fun _ => id, trivial, by decide, rfl⟩
  have h4 := h3.next true (.write true (.bump 1 1 (Time.ofUnix 1000))) (.ok ()) rfl
    ⟨fun _ => id, trivial, by unfold Server.Free; decide, rfl, rfl⟩
  have h5 := h4.next true (.commit true) () rfl
    ⟨fun j ⟨n, _, t, ht⟩ => (by cases List.mem_singleton.mp ht), trivial, rfl⟩
  have h6 := h5.next false (.lockRow false 1) (some { newEpochRow 1 5 (Time.ofUnix 100) with
      nextIdx := 1, lastIssued := some (Time.ofUnix 1000) }) rfl
    ⟨fun _ => id, trivial, by unfold Server.Free; decide, by decide, rfl⟩
  have h7 := h6.next false (.write false (.close 1 (Time.ofUnix 200))) (.ok ()) rfl
    ⟨fun _ => id, by change (1 : Int) + 1 < _; decide, by unfold Server.Free; decide, rfl, rfl⟩
  have h8 := h7.next false (.write false (.insert (newEpochRow 2 5 (Time.ofUnix 200)))) (.ok ())
    rfl ⟨fun _ => id, trivial, Server.insert_ok (by decide) (by decide)⟩
  have h9 := h8.next false (.commit false) () rfl
    ⟨fun j ⟨n, hn, _⟩ => (by cases j <;> cases hn), trivial, rfl⟩
  obtain ⟨hsafe, hok⟩ := (concurrent_calls (by decide) twoRequests_valid).1 h9
  exact ⟨_, _, _, h9, hsafe, hok, rfl⟩

/-- Both calls pick the open row, the rotation commits first, and the allocation finds it
closed. -/
theorem allocate_fails :
    ¬ ∀ (requests : Bool → Request), (∀ i, (requests i).Valid) →
      ∀ tr s pool, RunOf Server.Handle (Server.start fiveStore) (calls fiveStore requests)
        tr s pool → Safe s pool ∧ NoFailure pool := by
  intro h
  have h0 : RunOf Server.Handle (Server.start fiveStore) (calls fiveStore twoRequests) [] _ _ :=
    .start
  have h1 := h0.next false (.candidate false) (some 1) rfl ⟨by decide, rfl⟩
  have h2 := h1.next true (.candidate true) (some 1) rfl ⟨by decide, rfl⟩
  have h3 := h2.next false (.lockRow false 1) (some (newEpochRow 1 5 (Time.ofUnix 100))) rfl
    ⟨by unfold Server.Free; decide, by decide, rfl⟩
  have h4 := h3.next false (.write false (.close 1 (Time.ofUnix 200))) (.ok ()) rfl
    ⟨by unfold Server.Free; decide, rfl, rfl⟩
  have h5 := h4.next false (.write false (.insert (newEpochRow 2 5 (Time.ofUnix 200)))) (.ok ())
    rfl (Server.insert_ok (by decide) (by decide))
  have h6 := h5.next false (.commit false) () rfl rfl
  have h7 := h6.next true (.lockRow true 1) none rfl
    ⟨by unfold Server.Free; decide, by decide, rfl⟩
  have h8 := h7.next true (.rollback true) () rfl rfl
  exact (h twoRequests twoRequests_valid _ _ _ h8).2 true _ rfl

end Shadownet.Postgres
