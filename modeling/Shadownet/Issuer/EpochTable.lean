import Shadownet.Issuer.Store

/-!
# The epoch table over whole runs

The open epoch is always the last row of `issuer_epochs`: an epoch is closed only by the
transaction that inserts its successor. `Rotates` and `Takes` are the two things a call can
do to the table, and `step_effect` says that every call does nothing, rotates, takes an
index, or rotates and then takes the first index of the new epoch. Every invariant below
is proved for `Rotates` and `Takes` and then for runs.

* `WellFormed` and `Issued` hold in every run, whatever the clock says: numbers are
  `1, …, n`, no row overruns its ceiling, and no index is given out twice.
* `Closing` needs clock readings with a non-zero second count, since a zero in
  `closed_at_unix` marks an open epoch.
-/

namespace Shadownet.Issuer

open Foundation Go

/-! ## The shape of the table -/

/-- A row holds at least one index, has not overrun its ceiling, and its numbers fit an
`INTEGER`. -/
structure EpochRow.InBounds (r : EpochRow) : Prop where
  number_lt : r.number < sqlLimit
  next_le : r.nextIdx ≤ r.maxIndices
  max_pos : 0 < r.maxIndices
  max_lt : r.maxIndices < sqlLimit

/-- The last row is the open epoch, the rows are numbered `1, …, n`, and none overruns its
ceiling. -/
structure WellFormed (rows : List EpochRow) : Prop where
  last_open : ∃ init last, rows = init ++ [last] ∧ last.closedAt = 0
  numbers : rows.map EpochRow.number = List.range' 1 rows.length
  bounds : ∀ r ∈ rows, r.InBounds

/-- Closing the open epoch at second `t` and opening the next one. -/
inductive Rotates (t : Int) : List EpochRow → List EpochRow → Prop
  | intro (init : List EpochRow) (last new : EpochRow) (hnum : new.number = last.number + 1)
      (hopen : new.closedAt = 0) (hnext : new.nextIdx = 0) (hlast : new.lastIssued = 0)
      (hpos : 0 < new.maxIndices) (hlt : new.number < sqlLimit ∧ new.maxIndices < sqlLimit) :
      Rotates t (init ++ [last]) (init ++ [{ last with closedAt := t }, new])

/-- Taking the next index of the open epoch for a credential that expires at `exp`. -/
inductive Takes (exp : Time) : List EpochRow → List EpochRow → Nat × Nat → Prop
  | intro (init : List EpochRow) (last : EpochRow) (lastIssued : Int)
      (hroom : last.nextIdx < last.maxIndices)
      (hexp : 0 ≤ exp.unix → exp.unix ≤ lastIssued)
      (hold : 0 ≤ exp.unix → last.lastIssued ≤ lastIssued) :
      Takes exp (init ++ [last])
        (init ++ [{ last with nextIdx := last.nextIdx + 1, lastIssued }])
        (last.number, last.nextIdx)

section Numbers

variable {init : List EpochRow} {last : EpochRow}

theorem numbers_concat
    (h : (init ++ [last]).map EpochRow.number = List.range' 1 (init ++ [last]).length) :
    init.map EpochRow.number = List.range' 1 init.length ∧ last.number = init.length + 1 := by
  rw [List.length_append, List.length_singleton, ← List.range'_append_1, List.map_append,
    List.map_singleton] at h
  obtain ⟨h1, h2⟩ := List.append_inj h (by simp)
  refine ⟨h1, ?_⟩
  simp only [List.range'_one, List.cons.injEq, and_true] at h2
  omega

theorem number_lt_last (h : init.map EpochRow.number = List.range' 1 init.length)
    (hlast : last.number = init.length + 1) {r : EpochRow} (hr : r ∈ init) :
    r.number < last.number := by
  have hm : r.number ∈ init.map EpochRow.number := List.mem_map_of_mem hr
  rw [h, List.mem_range'_1] at hm
  omega

end Numbers

namespace WellFormed

variable {rows : List EpochRow}

theorem number_pos (h : WellFormed rows) {r : EpochRow} (hr : r ∈ rows) : 0 < r.number := by
  have hm : r.number ∈ rows.map EpochRow.number := List.mem_map_of_mem hr
  rw [h.numbers, List.mem_range'_1] at hm
  omega

/-- The number identifies the row. -/
theorem row_unique (h : WellFormed rows) {r r' : EpochRow} (hr : r ∈ rows) (hr' : r' ∈ rows)
    (he : r.number = r'.number) : r = r' := by
  have hnd : (rows.map EpochRow.number).Nodup := by
    rw [h.numbers]
    exact List.nodup_range'
  exact List.inj_on_of_nodup_map hnd hr hr' he

theorem number_lt {init : List EpochRow} {last : EpochRow} (h : WellFormed (init ++ [last]))
    {r : EpochRow} (hr : r ∈ init) : r.number < last.number :=
  number_lt_last (numbers_concat h.numbers).1 (numbers_concat h.numbers).2 hr

theorem last_closedAt {init : List EpochRow} {last : EpochRow}
    (h : WellFormed (init ++ [last])) : last.closedAt = 0 := by
  obtain ⟨init', last', he, ho⟩ := h.last_open
  obtain ⟨-, he⟩ := List.append_inj' he rfl
  rw [List.singleton_inj.mp he]
  exact ho

theorem rotates {t : Int} {rows' : List EpochRow} (h : WellFormed rows)
    (hr : Rotates t rows rows') : WellFormed rows' := by
  cases hr with
  | intro init last new hnum hopen hnext hlast hpos hlt =>
    obtain ⟨h1, h2⟩ := numbers_concat h.numbers
    refine ⟨⟨init ++ [{ last with closedAt := t }], new, by simp, hopen⟩, ?_, ?_⟩
    · rw [List.map_append, h1]
      simp only [List.map_cons, List.map_nil, List.length_append, List.length_cons,
        List.length_nil, hnum, h2]
      rw [← List.range'_append_1]
      simp [List.range'_succ, Nat.add_comm, Nat.add_left_comm]
    · intro r hm
      simp only [List.mem_append, List.mem_cons, List.not_mem_nil, or_false] at hm
      rcases hm with hm | rfl | rfl
      · exact h.bounds r (by simp [hm])
      · obtain ⟨h1, h2, h3, h4⟩ := h.bounds last (by simp)
        exact ⟨h1, h2, h3, h4⟩
      · exact ⟨hlt.1, by omega, hpos, hlt.2⟩

theorem takes {exp : Time} {rows' : List EpochRow} {p : Nat × Nat} (h : WellFormed rows)
    (ht : Takes exp rows rows' p) : WellFormed rows' := by
  cases ht with
  | intro init last lastIssued hroom hexp hold =>
    refine ⟨⟨init, _, rfl, h.last_closedAt⟩, by simpa using h.numbers, ?_⟩
    intro r hm
    rcases List.mem_append.mp hm with hm | hm
    · exact h.bounds r (by simp [hm])
    · rw [List.mem_singleton.mp hm]
      obtain ⟨h1, -, h3, h4⟩ := h.bounds last (by simp)
      exact ⟨h1, hroom, h3, h4⟩

end WellFormed

/-! ## What a call does to the table -/

theorem currentRow_eq {db : Database} {init : List EpochRow} {last : EpochRow}
    (he : db.epochs = init ++ [last]) (hopen : last.closedAt = 0)
    (h : WellFormed db.epochs) : db.currentRow = some last := by
  rw [he] at h
  rw [Database.currentRow, he, List.filter_append]
  simp only [List.filter_cons, hopen, beq_self_eq_true, if_true, List.filter_nil]
  rw [List.argmax_concat]
  cases hm : List.argmax EpochRow.number (init.filter (·.closedAt == 0)) with
  | none => rfl
  | some c =>
    have hc : c ∈ init := List.mem_of_mem_filter (List.argmax_mem hm)
    simp [h.number_lt hc]

theorem updateEpoch_last {db : Database} {init : List EpochRow} {last : EpochRow}
    (he : db.epochs = init ++ [last]) (h : WellFormed db.epochs) (f : EpochRow → EpochRow) :
    (db.updateEpoch last.number f).epochs = init ++ [f last] := by
  rw [he] at h
  simp only [Database.updateEpoch, he, List.map_append, List.map_cons, List.map_nil, if_true]
  congr 1
  conv_rhs => rw [← List.map_id init]
  refine List.map_congr_left fun r hr => ?_
  simp [(h.number_lt hr).ne]

theorem sqlUint_eq_ok {arg n m : Nat} : sqlUint arg n = .ok m ↔ n < sqlLimit ∧ n = m := by
  rw [sqlUint, guard_eq_ok, pure_eq_ok, Nat.not_le]

/-- Everything but the epoch table is as before. -/
structure SameRest (db db' : Database) : Prop where
  revocations : db'.revocations = db.revocations
  credentials : db'.credentials = db.credentials

/-- An inserted row is the argument, and its numbers fit an `INTEGER`. -/
theorem insertEpoch_ok {db db' : Database} {r : EpochRow} (h : db.insertEpoch r = .ok db') :
    db'.epochs = db.epochs ++ [r] ∧ (r.number < sqlLimit ∧ r.maxIndices < sqlLimit) ∧
      SameRest db db' := by
  simp only [Database.insertEpoch, Database.addEpoch, bind_eq_ok, sqlUint_eq_ok, guard_eq_ok,
    pure_eq_ok] at h
  obtain ⟨_, ⟨hnum, rfl⟩, _, ⟨hmax, rfl⟩, -, rfl⟩ := h
  exact ⟨rfl, ⟨hnum, hmax⟩, rfl, rfl⟩

/-- The first epoch of a fresh database. -/
theorem ensureCurrentEpoch_ok {db : Database} {m : Nat} {now : Time}
    (h : Database.empty.ensureCurrentEpoch m now = .ok db) :
    db.epochs = [Database.newEpochRow 1 m now] ∧ m < sqlLimit ∧ SameRest .empty db := by
  simp only [Database.ensureCurrentEpoch, Database.empty, List.filter_nil, List.length_nil,
    Nat.lt_irrefl, if_false, bind_eq_ok, sqlUint_eq_ok] at h
  obtain ⟨_, ⟨hmax, rfl⟩, h⟩ := h
  cases h
  exact ⟨rfl, hmax, rfl, rfl⟩

/-- Closing the last row and inserting its successor, the two statements of a rotation. -/
theorem rotates_of_insert {db db' : Database} {init : List EpochRow} {last : EpochRow}
    (he : db.epochs = init ++ [last]) (h : WellFormed db.epochs) {maxIndices : Nat}
    (hpos : 0 < maxIndices) {t : Time}
    (hins : (db.updateEpoch last.number fun r => { r with closedAt := t.unix }).insertEpoch
      (Database.newEpochRow (last.number + 1) maxIndices t) = .ok db') :
    Rotates t.unix db.epochs db'.epochs ∧ SameRest db db' ∧
      ∃ init', db'.epochs = init' ++ [Database.newEpochRow (last.number + 1) maxIndices t] := by
  obtain ⟨hep, hlt, hrest⟩ := insertEpoch_ok hins
  rw [updateEpoch_last he h] at hep
  refine ⟨?_, ⟨hrest.revocations, hrest.credentials⟩, _, hep⟩
  rw [hep, he, List.append_assoc]
  exact Rotates.intro init last _ rfl rfl rfl rfl hpos hlt

theorem rotateTx_ok {db db' : Database} {e : Epoch} (h : WellFormed db.epochs)
    {maxIndices : Nat} (hpos : 0 < maxIndices) {t : Time}
    (hok : db.rotateTx maxIndices t = .ok (db', e)) :
    Rotates t.unix db.epochs db'.epochs ∧ SameRest db db' := by
  obtain ⟨init, last, he, hopen⟩ := h.last_open
  have hcur : db.currentEpochInTx = .ok (scanEpoch last) := by
    rw [Database.currentEpochInTx, currentRow_eq he hopen h]
  simp only [Database.rotateTx, hcur, bind_eq_ok, mapError_eq_ok, pure_eq_ok] at hok
  obtain ⟨db'', hins, heq⟩ := hok
  obtain ⟨rfl, -⟩ := Prod.mk.inj heq
  obtain ⟨hrot, hrest, -⟩ := rotates_of_insert he h hpos hins
  exact ⟨hrot, hrest⟩

/-- The second part of `AllocateIndex` on the last row. -/
theorem takes_last {db : Database} {init : List EpochRow} {last : EpochRow}
    (he : db.epochs = init ++ [last]) (h : WellFormed db.epochs)
    (hroom : last.nextIdx < last.maxIndices) {exp lastExp : Time}
    (hlast : lastExp = scanTime last.lastIssued) :
    Takes exp db.epochs
      (db.updateEpoch last.number fun r =>
        { r with
          nextIdx := last.nextIdx + 1
          lastIssued := (if exp.after lastExp then exp else lastExp).unix }).epochs
      (last.number, last.nextIdx) := by
  have hup := updateEpoch_last he h fun r : EpochRow =>
    { r with
      nextIdx := last.nextIdx + 1
      lastIssued := (if exp.after lastExp then exp else lastExp).unix }
  rw [hup, he]
  refine Takes.intro init last _ hroom ?_ ?_
  · intro _
    split
    · exact le_rfl
    · rename_i hna
      exact Time.unix_le_of_not_after (Bool.not_eq_true _ ▸ hna)
  · intro h0
    -- a stored zero reads as the zero time, which every such expiry is after
    by_cases hz : last.lastIssued = 0
    · rw [hlast, scanTime, if_pos hz, hz]
      rw [if_pos (Time.after_zero h0)]
      exact h0
    · rw [hlast, scanTime, if_neg hz]
      split
      · exact Time.unix_le_of_after ‹_›
      · exact le_rfl

/-- What `AllocateIndex` does to the table: it takes an index of the open epoch, or of its
successor when the open one is exhausted. -/
inductive Allocates (exp now : Time) (rows rows' : List EpochRow) (p : Nat × Nat) : Prop
  | direct (ht : Takes exp rows rows' p)
  | rolled (mid : List EpochRow) (hr : Rotates now.unix rows mid) (ht : Takes exp mid rows' p)

theorem allocateTx_ok {db db' : Database} {p : Nat × Nat} (h : WellFormed db.epochs)
    {maxIndices : Nat} (hpos : 0 < maxIndices) {exp now : Time}
    (hok : db.allocateTx maxIndices exp now = .ok (db', p)) :
    Allocates exp now db.epochs db'.epochs p ∧ SameRest db db' := by
  obtain ⟨init, last, he, hopen⟩ := h.last_open
  have hcur : db.currentEpochInTx = .ok (scanEpoch last) := by
    rw [Database.currentEpochInTx, currentRow_eq he hopen h]
  simp only [Database.allocateTx, hcur, bind_eq_ok, guard_eq_ok, Except.ok.injEq,
    exists_eq_left', mapError_eq_ok, pure_eq_ok, sqlUint_eq_ok, Bool.not_eq_true,
    Prod.exists] at hok
  obtain ⟨-, db1, cur, hroll, _, ⟨-, rfl⟩, heq⟩ := hok
  obtain ⟨rfl, rfl⟩ := Prod.mk.inj heq
  unfold Database.rollExhausted at hroll
  split at hroll
  · simp only [bind_eq_ok, mapError_eq_ok, pure_eq_ok, Prod.mk.injEq] at hroll
    obtain ⟨_, hins, rfl, rfl⟩ := hroll
    obtain ⟨hrot, hrest, init', hep⟩ := rotates_of_insert he h hpos hins
    refine ⟨.rolled _ hrot ?_, hrest.revocations, hrest.credentials⟩
    exact takes_last hep (h.rotates hrot) hpos rfl
  · rename_i hlt
    obtain ⟨rfl, rfl⟩ := Prod.mk.inj (pure_eq_ok.mp hroll)
    exact ⟨.direct (takes_last he h (Nat.not_le.mp hlt) rfl), rfl, rfl⟩

theorem ensureCurrentEpoch_eq {db : Database} (h : WellFormed db.epochs) (maxIndices : Nat)
    (now : Time) : db.ensureCurrentEpoch maxIndices now = .ok db := by
  obtain ⟨init, last, he, hopen⟩ := h.last_open
  have : last ∈ db.epochs.filter (·.closedAt == 0) := by
    rw [List.mem_filter, he]
    exact ⟨by simp, by simp [hopen]⟩
  rw [Database.ensureCurrentEpoch, if_pos (List.length_pos_of_mem this)]
  rfl

theorem insertRevocation_ok {db db' : Database} {epoch idx : Nat} {t : Time}
    (h : db.insertRevocation epoch idx t = .ok db') :
    db'.epochs = db.epochs ∧ db'.credentials = db.credentials := by
  simp only [Database.insertRevocation, bind_eq_ok, sqlUint_eq_ok] at h
  obtain ⟨_, ⟨-, rfl⟩, _, ⟨-, rfl⟩, h⟩ := h
  split at h <;> (obtain rfl := pure_eq_ok.mp h; exact ⟨rfl, rfl⟩)

theorem setRevokedTx_ok {db db' : Database} {epoch idx : Nat} {t : Time}
    (h : db.setRevokedTx epoch idx t = .ok db') :
    db'.epochs = db.epochs ∧ db'.credentials = db.credentials := by
  simp only [Database.setRevokedTx, bind_eq_ok, guard_eq_ok, mapError_eq_ok] at h
  obtain ⟨e, -, -, h⟩ := h
  exact insertRevocation_ok h

/-! ## What a call of a run does -/

/-- The effect of one call on a well-formed store, with the answer it gives: the epoch table
stays, is rotated at the time the call used, or gives out an index. -/
inductive StepEffect (s : Store) : Call → Store → Answer → Prop
  | same (c : Call) (s' : Store) (a : Answer) (hep : s'.db.epochs = s.db.epochs)
      (ha : ∀ e i, a ≠ .allocated e i) : StepEffect s c s' a
  | rotated (m : Nat) (t now : Time) (s' : Store)
      (hr : Rotates (t.orNow now).unix s.db.epochs s'.db.epochs) :
      StepEffect s (.rotateEpoch m t now) s' .done
  | allocated (exp now : Time) (s' : Store) (p : Nat × Nat)
      (ha : Allocates exp now s.db.epochs s'.db.epochs p) :
      StepEffect s (.allocateIndex exp now) s' (.allocated p.1 p.2)

/-- A store whose table is well-formed and whose default ceiling is usable. -/
structure Store.Sound (s : Store) : Prop where
  table : WellFormed s.db.epochs
  max_pos : 0 < s.maxIndices

theorem step_effect {s : Store} (h : s.Sound) (c : Call) :
    StepEffect s c (s.step c).1 (s.step c).2 := by
  cases c with
  | allocateIndex exp now =>
    cases hr : s.db.allocateTx s.maxIndices exp now with
    | error e =>
      refine .same _ _ _ ?_ ?_ <;>
        simp [Store.step, Store.allocateIndex, Store.commit, hr, Answer.of]
    | ok r =>
      have := allocateTx_ok h.table h.max_pos hr
      simp only [Store.step, Store.allocateIndex, Store.commit, hr, Answer.of]
      exact .allocated exp now _ r.2 this.1
  | rotateEpoch m t now =>
    have hm : 0 < if m = 0 then s.maxIndices else m := by
      split
      · exact h.max_pos
      · omega
    cases hr : s.db.rotateTx (if m = 0 then s.maxIndices else m) (t.orNow now) with
    | error e =>
      refine .same _ _ _ ?_ ?_ <;>
        simp [Store.step, Store.rotateEpoch, Store.commit, hr, Answer.of]
    | ok r =>
      have := rotateTx_ok h.table hm hr
      simp only [Store.step, Store.rotateEpoch, Store.commit, hr, Answer.of]
      exact .rotated m t now _ this.1
  | setRevoked e i t now =>
    cases hr : s.db.setRevokedTx e i (t.orNow now) with
    | error e =>
      refine .same _ _ _ ?_ ?_ <;>
        simp [Store.step, Store.setRevoked, Store.commit, hr, Except.map, Answer.of]
    | ok db =>
      refine .same _ _ _ ?_ ?_ <;>
        simp [Store.step, Store.setRevoked, Store.commit, hr, Except.map, Answer.of,
          (setRevokedTx_ok hr).1]
  | reopen m now =>
    refine .same _ _ _ ?_ ?_ <;>
      simp [Store.step, Store.openStore, ensureCurrentEpoch_eq h.table, bind, Except.bind,
        Except.mapError, pure, Except.pure]

theorem Allocates.wellFormed {exp now : Time} {rows rows' : List EpochRow} {p : Nat × Nat}
    (ha : Allocates exp now rows rows' p) (h : WellFormed rows) : WellFormed rows' := by
  cases ha with
  | direct ht => exact h.takes ht
  | rolled mid hr ht => exact (h.rotates hr).takes ht

theorem StepEffect.wellFormed {s s' : Store} {c : Call} {a : Answer}
    (he : StepEffect s c s' a) (h : WellFormed s.db.epochs) : WellFormed s'.db.epochs := by
  cases he with
  | same c s' a hep ha => exact hep ▸ h
  | rotated m t now s' hr => exact h.rotates hr
  | allocated exp now s' p ha => exact ha.wellFormed h

theorem Store.Sound.step {s : Store} (h : s.Sound) (c : Call) : (s.step c).1.Sound := by
  refine ⟨(step_effect h c).wellFormed h.table, ?_⟩
  cases c with
  | allocateIndex exp now =>
    simp only [Store.step, Store.allocateIndex, Store.commit]
    split <;> exact h.max_pos
  | rotateEpoch m t now =>
    simp only [Store.step, Store.rotateEpoch, Store.commit]
    split <;> exact h.max_pos
  | setRevoked e i t now =>
    simp only [Store.step, Store.setRevoked, Store.commit]
    split <;> exact h.max_pos
  | reopen m now =>
    simp only [Store.step, Store.openStore, ensureCurrentEpoch_eq h.table, bind, Except.bind,
      Except.mapError, pure, Except.pure, defaultMaxIndices]
    split <;> omega

/-- A fresh `Open` creates the first epoch. -/
theorem openStore_empty {m : Nat} {now : Time} {s : Store}
    (h : Store.openStore .empty m now = .ok s) :
    s.Sound ∧ ∃ n, s.db.epochs = [Database.newEpochRow 1 n now] := by
  have hm : 0 < if m = 0 then defaultMaxIndices else m := by
    split
    · decide
    · omega
  simp only [Store.openStore, bind_eq_ok, mapError_eq_ok, pure_eq_ok] at h
  obtain ⟨db, hdb, rfl⟩ := h
  obtain ⟨hep, hlt, -⟩ := ensureCurrentEpoch_ok hdb
  refine ⟨⟨?_, hm⟩, _, hep⟩
  rw [hep]
  refine ⟨⟨[], _, rfl, rfl⟩, rfl, fun r hr => ?_⟩
  rw [List.mem_singleton.mp hr]
  exact ⟨show 1 < sqlLimit by decide, Nat.zero_le _, hm, hlt⟩

/-- The calls of the epoch table leave the credentials alone. -/
theorem step_credentials {s : Store} (h : s.Sound) (c : Call) :
    (s.step c).1.db.credentials = s.db.credentials := by
  cases c with
  | allocateIndex exp now =>
    cases hr : s.db.allocateTx s.maxIndices exp now with
    | error e => simp [Store.step, Store.allocateIndex, Store.commit, hr]
    | ok r =>
      simp only [Store.step, Store.allocateIndex, Store.commit, hr]
      exact (allocateTx_ok h.table h.max_pos hr).2.credentials
  | rotateEpoch m t now =>
    have hm : 0 < if m = 0 then s.maxIndices else m := by
      split
      · exact h.max_pos
      · omega
    cases hr : s.db.rotateTx (if m = 0 then s.maxIndices else m) (t.orNow now) with
    | error e => simp [Store.step, Store.rotateEpoch, Store.commit, hr]
    | ok r =>
      simp only [Store.step, Store.rotateEpoch, Store.commit, hr]
      exact (rotateTx_ok h.table hm hr).2.credentials
  | setRevoked e i t now =>
    cases hr : s.db.setRevokedTx e i (t.orNow now) with
    | error e => simp [Store.step, Store.setRevoked, Store.commit, hr, Except.map]
    | ok db =>
      simp only [Store.step, Store.setRevoked, Store.commit, hr, Except.map]
      exact (setRevokedTx_ok hr).2
  | reopen m now =>
    simp [Store.step, Store.openStore, ensureCurrentEpoch_eq h.table, bind, Except.bind,
      Except.mapError, pure, Except.pure]

/-! ## Indices are given out once -/

/-- The pair a call returned. -/
def allocatedPair : Call × Answer → Option (Nat × Nat)
  | (_, .allocated e i) => some (e, i)
  | _ => none

/-- The pairs `AllocateIndex` returned in a run, in order. -/
def allocations (h : List (Call × Answer)) : List (Nat × Nat) := h.filterMap allocatedPair

/-- Every pair given out so far lies below its epoch's `next_idx`. -/
def Below (rows : List EpochRow) (ps : List (Nat × Nat)) : Prop :=
  ∀ p ∈ ps, ∃ r ∈ rows, r.number = p.1 ∧ p.2 < r.nextIdx

theorem Below.rotates {t : Int} {rows rows' : List EpochRow} {ps : List (Nat × Nat)}
    (h : Below rows ps) (hr : Rotates t rows rows') : Below rows' ps := by
  cases hr with
  | intro init last new hnum hopen hnext hlast hpos hlt =>
    intro p hp
    obtain ⟨r, hm, h1, h2⟩ := h p hp
    rcases List.mem_append.mp hm with hm | hm
    · exact ⟨r, by simp [hm], h1, h2⟩
    · rw [List.mem_singleton.mp hm] at h1 h2
      exact ⟨{ last with closedAt := t }, by simp, h1, h2⟩

/-- A taken pair is new, and lies below `next_idx` from then on. -/
theorem Below.takes {exp : Time} {rows rows' : List EpochRow} {p : Nat × Nat}
    {ps : List (Nat × Nat)} (h : Below rows ps) (hw : WellFormed rows)
    (ht : Takes exp rows rows' p) : Below rows' (ps ++ [p]) ∧ p ∉ ps := by
  cases ht with
  | intro init last lastIssued hroom hexp hold =>
    constructor
    · intro q hq
      rcases List.mem_append.mp hq with hq | hq
      · obtain ⟨r, hm, h1, h2⟩ := h q hq
        rcases List.mem_append.mp hm with hm | hm
        · exact ⟨r, by simp [hm], h1, h2⟩
        · rw [List.mem_singleton.mp hm] at h1 h2
          exact ⟨_, List.mem_append.mpr (.inr (List.mem_singleton.mpr rfl)), h1,
            Nat.lt_succ_of_lt h2⟩
      · rw [List.mem_singleton.mp hq]
        exact ⟨_, List.mem_append.mpr (.inr (List.mem_singleton.mpr rfl)), rfl,
          Nat.lt_succ_self _⟩
    · intro hp
      obtain ⟨r, hm, h1, h2⟩ := h _ hp
      rw [hw.row_unique hm (by simp) h1] at h2
      exact Nat.lt_irrefl _ h2

theorem Below.allocates {exp now : Time} {rows rows' : List EpochRow} {p : Nat × Nat}
    {ps : List (Nat × Nat)} (h : Below rows ps) (hw : WellFormed rows)
    (ha : Allocates exp now rows rows' p) : Below rows' (ps ++ [p]) ∧ p ∉ ps := by
  cases ha with
  | direct ht => exact h.takes hw ht
  | rolled mid hr ht => exact (h.rotates hr).takes (hw.rotates hr) ht

/-- What has been given out stays given out. -/
theorem Below.step {s : Store} {ps : List (Nat × Nat)} (h : Below s.db.epochs ps) (hs : s.Sound)
    (c : Call) : Below (s.step c).1.db.epochs ps := by
  have he := step_effect hs c
  generalize (s.step c).1 = s' at he ⊢
  generalize (s.step c).2 = a at he
  cases he with
  | same c s' a hep ha => exact hep ▸ h
  | rotated m t now s' hr => exact h.rotates hr
  | allocated exp now s' p ha =>
    intro q hq
    exact (h.allocates hs.table ha).1 q (List.mem_append_left _ hq)

/-- The invariant of every run: a well-formed table, and indices given out once. -/
structure Issued (s : Store) (h : List (Call × Answer)) : Prop where
  sound : s.Sound
  below : Below s.db.epochs (allocations h)
  nodup : (allocations h).Nodup

theorem allocations_concat (h : List (Call × Answer)) (x : Call × Answer) :
    allocations (h ++ [x]) = allocations h ++ (allocatedPair x).toList := by
  rw [allocations, List.filterMap_append]
  cases hx : allocatedPair x <;> simp [allocations, hx]

theorem StepEffect.below {s s' : Store} {c : Call} {a : Answer} {h : List (Call × Answer)}
    (he : StepEffect s c s' a) (hw : WellFormed s.db.epochs)
    (hb : Below s.db.epochs (allocations h)) (hn : (allocations h).Nodup) :
    Below s'.db.epochs (allocations (h ++ [(c, a)])) ∧
      (allocations (h ++ [(c, a)])).Nodup := by
  rw [allocations_concat]
  cases he with
  | same c s' a hep ha =>
    have hnone : allocatedPair (c, a) = none := by
      cases a with
      | allocated e i => exact absurd rfl (ha e i)
      | done => rfl
      | failed e => rfl
    rw [hnone, hep, Option.toList_none, List.append_nil]
    exact ⟨hb, hn⟩
  | rotated m t now s' hr =>
    simp only [allocatedPair, Option.toList_none, List.append_nil]
    exact ⟨hb.rotates hr, hn⟩
  | allocated exp now s' p ha =>
    obtain ⟨h1, h2⟩ := hb.allocates hw ha
    refine ⟨h1, ?_⟩
    rw [allocatedPair, Option.toList_some, List.nodup_append]
    refine ⟨hn, by simp, fun x hx y hy => ?_⟩
    rw [List.mem_singleton.mp hy]
    rintro rfl
    exact h2 hx

theorem Issued.step {s : Store} {h : List (Call × Answer)} (hi : Issued s h) (c : Call) :
    Issued (s.step c).1 (h ++ [(c, (s.step c).2)]) := by
  obtain ⟨h1, h2⟩ := (step_effect hi.sound c).below hi.sound.table hi.below hi.nodup
  exact ⟨hi.sound.step c, h1, h2⟩

theorem issued_of_open {m : Nat} {now : Time} {s : Store}
    (ho : Store.openStore .empty m now = .ok s) (calls : List Call) :
    Issued (final Store.step s calls) (history Store.step s calls) :=
  history_induction (G := fun _ _ => True)
    ⟨(openStore_empty ho).1, fun _ hp => absurd hp List.not_mem_nil, List.nodup_nil⟩
    (fun _ _ c hi _ => hi.step c) (fun _ _ _ _ => trivial)

/-! ## Closed epochs stay closed -/

/-- Every time argument and clock reading of the call is strictly after the Unix epoch. -/
def Call.AfterEpoch : Call → Prop
  | .allocateIndex exp now => exp.after (Time.ofUnix 0) ∧ now.after (Time.ofUnix 0)
  | .rotateEpoch _ t now => t.after (Time.ofUnix 0) ∧ now.after (Time.ofUnix 0)
  | .setRevoked _ _ t now => t.after (Time.ofUnix 0) ∧ now.after (Time.ofUnix 0)
  | .reopen _ now => now.after (Time.ofUnix 0)

/-- `AfterEpoch`, and the instant an epoch is closed at is at least one second after the
Unix epoch. -/
def Call.ClosesLate (c : Call) : Prop :=
  c.AfterEpoch ∧
    match c with
    | .allocateIndex _ now => 1 ≤ now.unix
    | .rotateEpoch _ t _ => 1 ≤ t.unix
    | _ => True

instance (c : Call) : Decidable c.AfterEpoch :=
  match c with
  | .allocateIndex _ _ | .rotateEpoch _ _ _ | .setRevoked _ _ _ _ =>
    inferInstanceAs (Decidable (_ ∧ _))
  | .reopen _ now => inferInstanceAs (Decidable (now.after (Time.ofUnix 0) = true))

instance (c : Call) : Decidable c.ClosesLate :=
  match c with
  | .allocateIndex _ _ | .rotateEpoch _ _ _ => inferInstanceAs (Decidable (_ ∧ (1 : Int) ≤ _))
  | .setRevoked _ _ _ _ | .reopen _ _ => inferInstanceAs (Decidable (_ ∧ True))

/-- What time does to a row: an open one may move on, a closed one stays as it is. -/
structure EpochRow.Later (r r' : EpochRow) : Prop where
  number : r'.number = r.number
  lastIssued : r.lastIssued ≤ r'.lastIssued
  kept : r.closedAt ≠ 0 → r' = r

theorem EpochRow.Later.refl (r : EpochRow) : r.Later r := ⟨rfl, le_rfl, fun _ => rfl⟩

theorem EpochRow.Later.trans {r₁ r₂ r₃ : EpochRow} (h : r₁.Later r₂) (h' : r₂.Later r₃) :
    r₁.Later r₃ := by
  refine ⟨h'.number.trans h.number, h.lastIssued.trans h'.lastIssued, fun hc => ?_⟩
  obtain rfl := h.kept hc
  exact h'.kept hc

/-- Every row of the earlier table lives on in the later one. -/
def Grows (rows rows' : List EpochRow) : Prop := ∀ r ∈ rows, ∃ r' ∈ rows', r.Later r'

theorem Grows.refl (rows : List EpochRow) : Grows rows rows :=
  fun r hr => ⟨r, hr, EpochRow.Later.refl r⟩

theorem Grows.trans {rows₁ rows₂ rows₃ : List EpochRow} (h : Grows rows₁ rows₂)
    (h' : Grows rows₂ rows₃) : Grows rows₁ rows₃ := by
  intro r hr
  obtain ⟨r', hr', hl⟩ := h r hr
  obtain ⟨r'', hr'', hl'⟩ := h' r' hr'
  exact ⟨r'', hr'', hl.trans hl'⟩

/-- Replacing the open row and appending rows keeps the closed ones. -/
theorem grows_last {init tail : List EpochRow} {last last' : EpochRow}
    (h : WellFormed (init ++ [last])) (hl : last'.number = last.number)
    (hle : last.lastIssued ≤ last'.lastIssued) :
    Grows (init ++ [last]) (init ++ last' :: tail) := by
  intro r hr
  rcases List.mem_append.mp hr with hr | hr
  · exact ⟨r, by simp [hr], EpochRow.Later.refl r⟩
  · rw [List.mem_singleton.mp hr]
    exact ⟨last', by simp, hl, hle, fun hc => absurd h.last_closedAt hc⟩

theorem Rotates.grows {t : Int} {rows rows' : List EpochRow} (hr : Rotates t rows rows')
    (h : WellFormed rows) : Grows rows rows' := by
  cases hr with
  | intro init last new => exact grows_last h rfl le_rfl

theorem Takes.grows {exp : Time} {rows rows' : List EpochRow} {p : Nat × Nat}
    (ht : Takes exp rows rows' p) (h : WellFormed rows) (hexp : 0 ≤ exp.unix) :
    Grows rows rows' := by
  cases ht with
  | intro init last lastIssued hroom h1 hold => exact grows_last h rfl (hold hexp)

/-- Only the last row is open. -/
def OneOpen (rows : List EpochRow) : Prop :=
  ∃ init last, rows = init ++ [last] ∧ last.closedAt = 0 ∧ ∀ r ∈ init, r.closedAt ≠ 0

theorem OneOpen.rotates {t : Int} {rows rows' : List EpochRow} (h : OneOpen rows)
    (ht : t ≠ 0) (hr : Rotates t rows rows') : OneOpen rows' := by
  cases hr with
  | intro init last new hnum hopen hnext hlast hpos hlt =>
    obtain ⟨init', last', he, -, hclosed⟩ := h
    obtain ⟨rfl, -⟩ := List.append_inj' he rfl
    refine ⟨init ++ [{ last with closedAt := t }], new, by simp, hopen, fun r hr => ?_⟩
    rcases List.mem_append.mp hr with hr | hr
    · exact hclosed r hr
    · rw [List.mem_singleton.mp hr]
      exact ht

theorem OneOpen.takes {exp : Time} {rows rows' : List EpochRow} {p : Nat × Nat}
    (h : OneOpen rows) (ht : Takes exp rows rows' p) : OneOpen rows' := by
  cases ht with
  | intro init last lastIssued hroom hexp hold =>
    obtain ⟨init', last', he, ho, hclosed⟩ := h
    obtain ⟨rfl, he'⟩ := List.append_inj' he rfl
    obtain rfl := List.singleton_inj.mp he'
    exact ⟨init, _, rfl, ho, hclosed⟩

/-- What one call with late enough times does to the table as a whole. -/
structure Moves (rows rows' : List EpochRow) (x : Call × Answer) : Prop where
  grows : Grows rows rows'
  oneOpen : OneOpen rows → OneOpen rows'
  covers : ∀ exp now e i, x = (.allocateIndex exp now, .allocated e i) →
    ∃ r ∈ rows', r.number = e ∧ exp.unix ≤ r.lastIssued

theorem Takes.covers {exp : Time} {rows rows' : List EpochRow} {p : Nat × Nat}
    (ht : Takes exp rows rows' p) (hexp : 0 ≤ exp.unix) :
    ∃ r ∈ rows', r.number = p.1 ∧ exp.unix ≤ r.lastIssued := by
  cases ht with
  | intro init last lastIssued hroom h1 hold =>
    exact ⟨_, List.mem_append.mpr (.inr (List.mem_singleton.mpr rfl)), rfl, h1 hexp⟩

theorem StepEffect.moves {s s' : Store} {c : Call} {a : Answer} (he : StepEffect s c s' a)
    (hw : WellFormed s.db.epochs) (hc : c.ClosesLate) :
    Moves s.db.epochs s'.db.epochs (c, a) := by
  cases he with
  | same c s' a hep ha =>
    rw [hep]
    refine ⟨Grows.refl _, id, ?_⟩
    rintro exp now e i he
    exact absurd (Prod.mk.inj he).2 (ha e i)
  | rotated m t now s' hr =>
    have h1 : 1 ≤ t.unix := hc.2
    have hz : t.isZero = false := by
      by_contra hne
      rw [Bool.not_eq_false, Time.isZero_iff] at hne
      rw [hne] at h1
      exact absurd h1 (by decide)
    rw [Time.orNow, hz, if_neg Bool.false_ne_true] at hr
    refine ⟨hr.grows hw, fun ho => ho.rotates (by omega) hr, ?_⟩
    rintro exp now e i he
    cases he
  | allocated exp now s' p ha =>
    have h0 : 0 ≤ exp.unix := Time.unix_le_of_after hc.1.1
    have h1 : 1 ≤ now.unix := hc.2
    have hnow : now.unix ≠ 0 := by omega
    cases ha with
    | direct ht =>
      refine ⟨ht.grows hw h0, fun ho => ho.takes ht, ?_⟩
      rintro exp' now' e i he
      cases he
      exact ht.covers h0
    | rolled mid hr ht =>
      refine ⟨(hr.grows hw).trans (ht.grows (hw.rotates hr) h0),
        fun ho => (ho.rotates hnow hr).takes ht, ?_⟩
      rintro exp' now' e i he
      cases he
      exact ht.covers h0

/-- Every expiry an index was given out for is covered by its epoch. -/
def Covered (rows : List EpochRow) (h : List (Call × Answer)) : Prop :=
  ∀ exp now e i, (Call.allocateIndex exp now, Answer.allocated e i) ∈ h →
    ∃ r ∈ rows, r.number = e ∧ exp.unix ≤ r.lastIssued

theorem Covered.moves {rows rows' : List EpochRow} {h : List (Call × Answer)}
    {x : Call × Answer} (hc : Covered rows h) (hm : Moves rows rows' x) :
    Covered rows' (h ++ [x]) := by
  intro exp now e i hx
  rcases List.mem_append.mp hx with hx | hx
  · obtain ⟨r, hr, h1, h2⟩ := hc exp now e i hx
    obtain ⟨r', hr', hl⟩ := hm.grows r hr
    exact ⟨r', hr', hl.number.trans h1, h2.trans hl.lastIssued⟩
  · exact hm.covers exp now e i (List.mem_singleton.mp hx).symm

/-- The invariant of runs whose closing times are late enough. -/
structure Closing (s : Store) (h : List (Call × Answer)) : Prop where
  sound : s.Sound
  oneOpen : OneOpen s.db.epochs
  covered : Covered s.db.epochs h

theorem Closing.step {s : Store} {h : List (Call × Answer)} (hi : Closing s h) {c : Call}
    (hc : c.ClosesLate) : Closing (s.step c).1 (h ++ [(c, (s.step c).2)]) := by
  have hm := (step_effect hi.sound c).moves hi.sound.table hc
  exact ⟨hi.sound.step c, hm.oneOpen hi.oneOpen, hi.covered.moves hm⟩

theorem closing_of_open {m : Nat} {now : Time} {s : Store}
    (ho : Store.openStore .empty m now = .ok s) {calls : List Call}
    (hc : ∀ c ∈ calls, c.ClosesLate) :
    Closing (final Store.step s calls) (history Store.step s calls) := by
  obtain ⟨hs, n, he⟩ := openStore_empty ho
  refine history_induction ⟨hs, ?_, fun _ _ _ _ hx => absurd hx List.not_mem_nil⟩
    (fun _ _ c hi hc => hi.step hc) (admits_of_forall hc)
  exact ⟨[], _, he, rfl, fun r hr => absurd hr List.not_mem_nil⟩

/-- Over any continuation of a run the rows live on, the closed ones unchanged. -/
theorem grows_of_calls {s : Store} (hs : s.Sound) {calls : List Call}
    (hc : ∀ c ∈ calls, c.ClosesLate) :
    Grows s.db.epochs (final Store.step s calls).db.epochs :=
  final_relates (R := fun s s' => Grows s.db.epochs s'.db.epochs) (P := Store.Sound)
    (fun _ => Grows.refl _) Grows.trans hs fun _ c hm hs =>
      ⟨hs.step c, ((step_effect hs c).moves hs.table (hc c hm)).grows⟩

/-! ## The invariant of the epoch table -/

/-- Exactly one row is open and it has the largest number; the rows are numbered `1, …, n`;
no row has given out more than its ceiling. -/
structure EpochTable (rows : List EpochRow) : Prop where
  one_open : ∃ r, rows.filter (·.closedAt == 0) = [r] ∧ ∀ r' ∈ rows, r'.number ≤ r.number
  numbers : rows.map EpochRow.number = List.range' 1 rows.length
  next_le : ∀ r ∈ rows, r.nextIdx ≤ r.maxIndices

theorem OneOpen.epochTable {rows : List EpochRow} (h : OneOpen rows) (hw : WellFormed rows) :
    EpochTable rows := by
  obtain ⟨init, last, rfl, ho, hclosed⟩ := h
  refine ⟨⟨last, ?_, fun r hr => ?_⟩, hw.numbers, fun r hr => (hw.bounds r hr).next_le⟩
  · have hnil : init.filter (·.closedAt == 0) = [] :=
      List.filter_eq_nil_iff.mpr fun r hr => by simpa using hclosed r hr
    simp [List.filter_append, hnil, ho]
  · rcases List.mem_append.mp hr with hr | hr
    · exact (hw.number_lt hr).le
    · rw [List.mem_singleton.mp hr]

/-- In every run from a fresh `Open` whose closing times are at least a second after the
Unix epoch: the table satisfies `EpochTable`; a closed row is found unchanged after any
continuation; an epoch's `last_issued_expires_at_unix` covers the expiry of every index it
gave out; and no pair is given out twice, each below its epoch's ceiling. -/
theorem epoch_table_run {m : Nat} {now : Time} {s : Store}
    (ho : Store.openStore .empty m now = .ok s) (calls : List Call)
    (hc : ∀ c ∈ calls, c.ClosesLate) :
    EpochTable (final Store.step s calls).db.epochs ∧
    (∀ more : List Call, (∀ c ∈ more, c.ClosesLate) →
      ∀ r ∈ (final Store.step s calls).db.epochs, r.closedAt ≠ 0 →
        r ∈ (final Store.step s (calls ++ more)).db.epochs) ∧
    (∀ exp now e i, (Call.allocateIndex exp now, Answer.allocated e i) ∈
        history Store.step s calls →
      ∃ r ∈ (final Store.step s calls).db.epochs, r.number = e ∧ exp.unix ≤ r.lastIssued ∧
        i < r.maxIndices) ∧
    (allocations (history Store.step s calls)).Nodup := by
  have hcl := closing_of_open ho hc
  have his := issued_of_open ho calls
  refine ⟨hcl.oneOpen.epochTable hcl.sound.table, ?_, ?_, his.nodup⟩
  · intro more hmore r hr hclosed
    rw [final_append]
    obtain ⟨r', hr', hl⟩ := grows_of_calls hcl.sound hmore r hr
    exact hl.kept hclosed ▸ hr'
  · intro exp now e i hx
    obtain ⟨r, hr, h1, h2⟩ := hcl.covered exp now e i hx
    have hp : (e, i) ∈ allocations (history Store.step s calls) :=
      List.mem_filterMap.mpr ⟨_, hx, rfl⟩
    obtain ⟨r', hr', h3, h4⟩ := his.below _ hp
    obtain rfl := his.sound.table.row_unique hr hr' (h1.trans h3.symm)
    exact ⟨r, hr, h1, h2, h4.trans_le (his.sound.table.bounds r hr).next_le⟩

/-- A store of two indices per epoch, just opened. -/
def smallStore : Store := ⟨⟨[Database.newEpochRow 1 2 (Time.ofUnix 100)], [], []⟩, 2⟩

/-- Three allocations, which roll the small store's first epoch, then an explicit rotation. -/
def rollingCalls : List Call :=
  [.allocateIndex (Time.ofUnix 1000) (Time.ofUnix 101),
    .allocateIndex (Time.ofUnix 900) (Time.ofUnix 102),
    .allocateIndex (Time.ofUnix 1100) (Time.ofUnix 103),
    .rotateEpoch 5 (Time.ofUnix 104) (Time.ofUnix 104)]

theorem epoch_table_run_rolling :
    allocations (history Store.step smallStore rollingCalls) = [(1, 0), (1, 1), (2, 0)] ∧
    EpochTable (final Store.step smallStore rollingCalls).db.epochs ∧
    (allocations (history Store.step smallStore rollingCalls)).Nodup := by
  have ho : Store.openStore .empty 2 (Time.ofUnix 100) = .ok smallStore := rfl
  obtain ⟨h1, -, -, h2⟩ := epoch_table_run ho rollingCalls (by decide)
  exact ⟨by decide, h1, h2⟩

/-- An epoch closed within the first second after the Unix epoch still reads as open: its
`closed_at_unix` is zero. -/
theorem epoch_table_first_second :
    ∃ (m : Nat) (now : Time) (s : Store) (calls : List Call),
      now.after (Time.ofUnix 0) ∧ Store.openStore .empty m now = .ok s ∧
      (∀ c ∈ calls, c.AfterEpoch) ∧ ¬ EpochTable (final Store.step s calls).db.epochs := by
  refine ⟨2, Time.ofUnix 100, smallStore,
    [.rotateEpoch 0 ⟨0, 500000000, by decide⟩ (Time.ofUnix 100)], by decide, rfl, by decide, ?_⟩
  intro h
  obtain ⟨r, hr, -⟩ := h.one_open
  have hlen := congrArg List.length hr
  rw [List.length_singleton] at hlen
  exact absurd hlen (by decide)

end Shadownet.Issuer
