import Mathlib.Data.List.Forall2
import Shadownet.Issuer.Revocation
import Shadownet.Postgres.Agreement

/-!
# The two issuer stores over whole runs

A run of calls on two stores that were opened with the same ceiling. `Fits` says of a call that
the number of the epoch it opens, if it opens one, fits a `BIGINT`.

* `step_agrees`: a call that fits gives the same reply on both stores and keeps `Agrees`.
* `step_differs`: a call that does not fit is refused by the SQLite store, while in the Postgres
  store the number wraps around and the epoch is opened.
* `interchangeable_iff`: the replies of a whole run are the same exactly when its calls fit.
-/

namespace Shadownet.Postgres

open Foundation Go

/-! ## The later of two times -/

/-- The running maximum of the row loops. -/
def later (t acc : Time) : Time := if t.after acc then t else acc

theorem eq_of_nanos {t u : Time} (h : t.nanos = u.nanos) : t = u := by
  obtain ⟨s, n, hn⟩ := t
  obtain ⟨s', n', hn'⟩ := u
  change s * 1000000000 + (n : Int) = s' * 1000000000 + (n' : Int) at h
  obtain rfl : s = s' := by omega
  obtain rfl : n = n' := by omega
  rfl

theorem later_nanos (t acc : Time) : (later t acc).nanos = max t.nanos acc.nanos := by
  unfold later
  by_cases h : t.after acc = true
  · rw [if_pos h]
    have := Time.after_iff.mp h
    omega
  · rw [if_neg h]
    have := mt Time.after_iff.mpr h
    omega

theorem later_comm (t u acc : Time) : later t (later u acc) = later u (later t acc) := by
  apply eq_of_nanos
  simp only [later_nanos]
  omega

/-! ## The row loops -/

theorem loadRow_eq {r : Issuer.RevocationRow} {p : RevocationRow} (h : SameRevocation r p)
    (m : Nat) (acc : Bytes × Time) :
    IssuerStore.loadRow m acc p = Issuer.loadRow m acc r := by
  rw [IssuerStore.loadRow, Issuer.loadRow, h.idx, uint64_natCast h.idx_lt, h.revokedAt]

theorem loadRow_comm (m : Nat) (acc : Bytes × Time) (x y : RevocationRow) :
    IssuerStore.loadRow m (IssuerStore.loadRow m acc x) y =
      IssuerStore.loadRow m (IssuerStore.loadRow m acc y) x := by
  unfold IssuerStore.loadRow
  by_cases hx : m ≤ uint64 x.idx <;> by_cases hy : m ≤ uint64 y.idx
  · simp only [hx, hy, if_true]
  · simp only [hx, hy, if_true, if_false]
  · simp only [hx, hy, if_true, if_false]
  · simp only [hx, hy, if_false]
    exact Prod.ext (setBit_comm _ _ _) (later_comm _ _ _)

theorem foldl_loadRow_eq {rows : List Issuer.RevocationRow} {rows' : List RevocationRow}
    (h : List.Forall₂ SameRevocation rows rows') (m : Nat) (acc : Bytes × Time) :
    rows'.foldl (IssuerStore.loadRow m) acc = rows.foldl (Issuer.loadRow m) acc := by
  induction h generalizing acc with
  | nil => rfl
  | cons hr hrest ih => rw [List.foldl_cons, List.foldl_cons, loadRow_eq hr, ih]

/-- The order in which the rows are scanned does not matter. -/
theorem foldl_loadRow_perm {l l' : List RevocationRow} (h : l.Perm l') (m : Nat)
    (acc : Bytes × Time) :
    l.foldl (IssuerStore.loadRow m) acc = l'.foldl (IssuerStore.loadRow m) acc :=
  h.foldl_eq' (fun x _ y _ z => loadRow_comm m z x y) acc

/-! ## Looking rows up -/

theorem isNone_filter {rows : List Issuer.EpochRow} {rows' : List EpochRow}
    (h : List.Forall₂ SameRow rows rows') :
    List.Forall₂ SameRow (rows.filter (·.closedAt == 0)) (rows'.filter (·.closedAt.isNone)) := by
  refine List.rel_filter (fun r p hr => ?_) h
  change (r.closedAt == 0) = true ↔ p.closedAt.isNone = true
  rw [hr.isNone]

theorem filter_epoch {rows : List Issuer.RevocationRow} {rows' : List RevocationRow}
    (h : List.Forall₂ SameRevocation rows rows') {epoch : Nat} (he : epoch < Issuer.sqlLimit) :
    List.Forall₂ SameRevocation (rows.filter (·.epoch == epoch))
      (rows'.filter (·.epoch == int64 epoch)) := by
  rw [int64_of_lt he]
  refine List.rel_filter (fun r p hr => ?_) h
  change (r.epoch == epoch) = true ↔ (p.epoch == (epoch : Int)) = true
  rw [beq_iff_eq, beq_iff_eq, hr.epoch, Int.natCast_inj]

theorem any_revocation {rows : List Issuer.RevocationRow} {rows' : List RevocationRow}
    (h : List.Forall₂ SameRevocation rows rows') {epoch idx : Nat}
    (he : epoch < Issuer.sqlLimit) (hi : idx < Issuer.sqlLimit) :
    (rows'.any fun p => p.epoch == int64 epoch && p.idx == int64 idx) =
      rows.any fun r => r.epoch == epoch && r.idx == idx := by
  rw [int64_of_lt he, int64_of_lt hi]
  induction h with
  | nil => rfl
  | cons hr hrest ih =>
    rw [List.any_cons, List.any_cons, ih, hr.epoch, hr.idx]
    congr 1
    rw [Bool.eq_iff_iff]
    simp only [Bool.and_eq_true, beq_iff_eq, Int.natCast_inj]

theorem views_eq {rows : List Issuer.EpochRow} {rows' : List EpochRow}
    (h : List.Forall₂ SameRow rows rows') (hb : ∀ r ∈ rows, r.InBounds) :
    rows'.map (fun r => view (scanEpochRow r)) =
      rows.map fun r => view (Issuer.scanEpoch r) := by
  induction h with
  | nil => rfl
  | @cons r p rows rows' hr hrest ih =>
    have htail := ih fun r hm => hb r (List.mem_cons_of_mem _ hm)
    rw [List.map_cons, List.map_cons, hr.view_eq (hb r List.mem_cons_self), htail]

/-- The rows of a number: neither table has one, or both have the same. -/
theorem find_number {rows : List Issuer.EpochRow} {rows' : List EpochRow}
    (h : List.Forall₂ SameRow rows rows') (n : Nat) :
    Option.Rel SameRow (rows.find? (·.number == n)) (rows'.find? (·.number == (n : Int))) := by
  induction h with
  | nil => exact .none
  | @cons r p rows rows' hr hrest ih =>
    have hb : (p.number == (n : Int)) = (r.number == n) := by
      rw [hr.number, Bool.eq_iff_iff, beq_iff_eq, beq_iff_eq, Int.natCast_inj]
    rw [List.find?_cons, List.find?_cons, hb]
    cases r.number == n with
    | true => exact .some hr
    | false => exact ih

namespace Agrees

variable {s : Issuer.Store} {p : IssuerStore}

/-- `GetEpoch`: no such epoch in either store, or the same one. -/
theorem getEpoch_cases (h : Agrees s p) {n : Nat} (hn : n < Issuer.sqlLimit) :
    (s.db.getEpoch n = .error .notFound ∧ p.getEpoch n = .error .notFound) ∨
    ∃ r r', r ∈ s.db.epochs ∧ SameRow r r' ∧ s.db.getEpoch n = .ok (Issuer.scanEpoch r) ∧
      p.getEpoch n = .ok (scanEpochRow r') := by
  have hsql : Issuer.sqlUint 1 n = .ok n := Issuer.sqlUint_eq_ok.mpr ⟨hn, rfl⟩
  have hfind := find_number h.epochs n
  rw [Issuer.Database.getEpoch, IssuerStore.getEpoch, hsql, int64_of_lt hn]
  cases hr : s.db.epochs.find? (·.number == n) with
  | none =>
    rw [hr] at hfind
    cases hp : p.epochs.find? (·.number == (n : Int)) with
    | none => exact .inl ⟨by simp only [Except.mapError, bind, Except.bind, hr]; rfl, rfl⟩
    | some r' => rw [hp] at hfind; cases hfind
  | some r =>
    rw [hr] at hfind
    cases hp : p.epochs.find? (·.number == (n : Int)) with
    | none => rw [hp] at hfind; cases hfind
    | some r' =>
      rw [hp] at hfind
      cases hfind with
      | some hrow =>
        exact .inr ⟨r, r', List.mem_of_find?_eq_some hr, hrow,
          by simp only [Except.mapError, bind, Except.bind, hr]; rfl, rfl⟩

theorem getEpoch_reply (h : Agrees s p) {n : Nat} (hn : n < Issuer.sqlLimit) :
    Reply.of (fun e => .epoch (view e)) (p.getEpoch n) =
      Reply.of (fun e => .epoch (view e)) (s.db.getEpoch n) := by
  rcases h.getEpoch_cases hn with ⟨h1, h2⟩ | ⟨r, r', hr, hrow, h1, h2⟩
  · rw [h1, h2]
  · rw [h1, h2, Reply.of, Reply.of, hrow.view_eq (h.sound.table.bounds r hr)]

end Agrees

/-! ## The open rows -/

theorem numbers_eq {rows : List Issuer.EpochRow} {rows' : List EpochRow}
    (h : List.Forall₂ SameRow rows rows') :
    rows'.map EpochRow.number = rows.map fun r => (r.number : Int) := by
  induction h with
  | nil => rfl
  | cons hr hrest ih => rw [List.map_cons, List.map_cons, ih, hr.number]

/-- The open epoch is the last row of both tables. -/
structure Ends (s : Issuer.Store) (p : IssuerStore) (init : List Issuer.EpochRow)
    (last : Issuer.EpochRow) (init' : List EpochRow) (last' : EpochRow) : Prop where
  rows : s.db.epochs = init ++ [last]
  rows' : p.epochs = init' ++ [last']
  same : List.Forall₂ SameRow init init'
  sameLast : SameRow last last'
  isOpen : last.closedAt = 0
  topped : Topped init' last'

theorem Agrees.ends {s : Issuer.Store} {p : IssuerStore} (h : Agrees s p) :
    ∃ init last init' last', Ends s p init last init' last' := by
  obtain ⟨init, last, he, hopen⟩ := h.sound.table.last_open
  have hrev := List.forall₂_reverse_iff.mpr h.epochs
  rw [he, List.reverse_append, List.reverse_singleton, List.singleton_append,
    List.forall₂_cons_left_iff] at hrev
  obtain ⟨last', rest', hlast, hrest, hp⟩ := hrev
  have hsame : List.Forall₂ SameRow init rest'.reverse := by
    rw [← List.forall₂_reverse_iff, List.reverse_reverse]
    exact hrest
  have hp' : p.epochs = rest'.reverse ++ [last'] := by
    rw [← List.reverse_reverse p.epochs, hp, List.reverse_cons]
  have hclosed : last'.closedAt = none := by
    have := hlast.isNone
    rw [hopen] at this
    exact Option.isNone_iff_eq_none.mp this
  refine ⟨init, last, rest'.reverse, last', he, hp', hsame, hlast, hopen, hclosed, ?_⟩
  intro r' hr'
  have hm : r'.number ∈ rest'.reverse.map EpochRow.number := List.mem_map_of_mem hr'
  rw [numbers_eq hsame, List.mem_map] at hm
  obtain ⟨r, hr, hnum⟩ := hm
  have htable := h.sound.table
  rw [he] at htable
  have hlt := htable.number_lt hr
  rw [← hnum, hlast.number]
  exact_mod_cast hlt

/-! ## Transactions of the SQLite store -/

section
variable {db : Issuer.Database} {init : List Issuer.EpochRow} {last : Issuer.EpochRow} {m : Nat}

/-- Closing the open epoch and inserting its successor. -/
theorem openNext_eq (he : db.epochs = init ++ [last]) (h : Issuer.WellFormed db.epochs)
    (hnum : last.number + 1 < Issuer.sqlLimit) (hm : m < Issuer.sqlLimit) (t : Time) :
    (db.updateEpoch last.number fun r => { r with closedAt := t.unix }).insertEpoch
        (Issuer.Database.newEpochRow (last.number + 1) m t) =
      .ok { db with epochs := init ++ [{ last with closedAt := t.unix },
        Issuer.Database.newEpochRow (last.number + 1) m t] } := by
  have hup := Issuer.updateEpoch_last he h fun r => { r with closedAt := t.unix }
  have hfree : (init ++ [{ last with closedAt := t.unix }]).any
      (·.number == last.number + 1) = false := by
    rw [List.any_eq_false]
    intro r hr
    rw [beq_iff_eq]
    rw [he] at h
    rcases List.mem_append.mp hr with hr | hr
    · have := h.number_lt hr
      omega
    · rw [List.mem_singleton.mp hr]
      dsimp only
      omega
  have h1 : Issuer.sqlUint 1 (last.number + 1) = .ok (last.number + 1) :=
    Issuer.sqlUint_eq_ok.mpr ⟨hnum, rfl⟩
  have h2 : Issuer.sqlUint 2 m = .ok m := Issuer.sqlUint_eq_ok.mpr ⟨hm, rfl⟩
  simp only [Issuer.Database.insertEpoch, Issuer.Database.addEpoch, Issuer.Database.newEpochRow, h1,
    h2, hup, hfree, bind,
    Except.bind, pure, Except.pure, Bool.false_eq_true, if_false]
  simp [Issuer.Database.updateEpoch]

theorem insertEpoch_refused {r : Issuer.EpochRow} (h : Issuer.sqlLimit ≤ r.number) :
    ∃ detail, db.insertEpoch r = .error (.failure detail) := by
  obtain ⟨detail, hd⟩ : ∃ detail, Issuer.sqlUint 1 r.number = .error (.failure detail) :=
    ⟨_, if_pos h⟩
  refine ⟨detail, ?_⟩
  rw [Issuer.Database.insertEpoch, hd]
  rfl

theorem currentEpochInTx_eq (he : db.epochs = init ++ [last]) (hopen : last.closedAt = 0)
    (h : Issuer.WellFormed db.epochs) :
    db.currentEpochInTx = .ok (Issuer.scanEpoch last) := by
  rw [Issuer.Database.currentEpochInTx, Issuer.currentRow_eq he hopen h]

theorem rotateTx_eq (he : db.epochs = init ++ [last]) (hopen : last.closedAt = 0)
    (h : Issuer.WellFormed db.epochs) (hnum : last.number + 1 < Issuer.sqlLimit)
    (hm : m < Issuer.sqlLimit) (t : Time) :
    db.rotateTx m t = .ok
      ({ db with epochs := init ++ [{ last with closedAt := t.unix },
          Issuer.Database.newEpochRow (last.number + 1) m t] },
        Issuer.Database.newEpoch (last.number + 1) m t) := by
  simp only [Issuer.Database.rotateTx, currentEpochInTx_eq he hopen h, Issuer.scanEpoch,
    openNext_eq he h hnum hm]
  rfl

theorem rotateTx_refused (he : db.epochs = init ++ [last]) (hopen : last.closedAt = 0)
    (h : Issuer.WellFormed db.epochs) (hnum : Issuer.sqlLimit ≤ last.number + 1) (t : Time) :
    ∃ detail, db.rotateTx m t = .error (.failure detail) := by
  obtain ⟨detail, hd⟩ := @insertEpoch_refused
    (db.updateEpoch last.number fun r => { r with closedAt := t.unix })
    (Issuer.Database.newEpochRow (last.number + 1) m t) hnum
  refine ⟨"sqlitestore: open new epoch" ++ ": " ++ detail, ?_⟩
  simp only [Issuer.Database.rotateTx, currentEpochInTx_eq he hopen h, Issuer.scanEpoch, hd]
  rfl

/-- `AllocateIndex` when the open epoch has an index left. -/
theorem allocateTx_room (he : db.epochs = init ++ [last]) (hopen : last.closedAt = 0)
    (h : Issuer.WellFormed db.epochs) (hroom : last.nextIdx < last.maxIndices)
    {exp : Time} (hexp : exp.isZero = false) (now : Time) :
    db.allocateTx m exp now = .ok
      ({ db with epochs := init ++ [{ last with
          nextIdx := last.nextIdx + 1
          lastIssued := (later exp (Issuer.scanTime last.lastIssued)).unix }] },
        (last.number, last.nextIdx)) := by
  have hmax : last.maxIndices < Issuer.sqlLimit := (h.bounds last (by simp [he])).max_lt
  have hnext : Issuer.sqlUint 1 ((Issuer.scanEpoch last).nextIdx + 1) =
      .ok (last.nextIdx + 1) := by
    rw [Issuer.sqlUint_eq_ok]
    exact ⟨Nat.lt_of_le_of_lt hroom hmax, rfl⟩
  have hroll : db.rollExhausted m (Issuer.scanEpoch last) now = .ok (db, Issuer.scanEpoch last) :=
    if_neg (Nat.not_le.mpr hroom)
  have hup := Issuer.updateEpoch_last he h fun r => { r with
    nextIdx := last.nextIdx + 1
    lastIssued := (later exp (Issuer.scanTime last.lastIssued)).unix }
  simp only [Issuer.Database.allocateTx, hexp, Bool.false_eq_true, if_false, bind, Except.bind,
    currentEpochInTx_eq he hopen h, hroll, hnext]
  rw [← hup]
  rfl

/-- `AllocateIndex` when the open epoch is exhausted. -/
theorem allocateTx_roll (he : db.epochs = init ++ [last]) (hopen : last.closedAt = 0)
    (h : Issuer.WellFormed db.epochs) (hfull : last.maxIndices ≤ last.nextIdx)
    (hnum : last.number + 1 < Issuer.sqlLimit) (hm : m < Issuer.sqlLimit) {exp : Time}
    (hexp : exp.isZero = false) (now : Time) :
    db.allocateTx m exp now = .ok
      ({ db with epochs := init ++ [{ last with closedAt := now.unix },
          { Issuer.Database.newEpochRow (last.number + 1) m now with
            nextIdx := 1, lastIssued := (later exp Time.zero).unix }] },
        (last.number + 1, 0)) := by
  let closed := { last with closedAt := now.unix }
  let new := Issuer.Database.newEpochRow (last.number + 1) m now
  have hroll : db.rollExhausted m (Issuer.scanEpoch last) now =
      .ok ({ db with epochs := init ++ [closed, new] },
        Issuer.Database.newEpoch (last.number + 1) m now) := by
    have hfull' : (Issuer.scanEpoch last).maxIndices ≤ (Issuer.scanEpoch last).nextIdx := hfull
    rw [Issuer.Database.rollExhausted, if_pos hfull']
    simp only [Issuer.scanEpoch, openNext_eq he h hnum hm]
    rfl
  have hone : Issuer.sqlUint 1 (0 + 1) = .ok 1 := rfl
  have hup : ({ db with epochs := init ++ [closed, new] } : Issuer.Database).updateEpoch
      (last.number + 1) (fun r => { r with
        nextIdx := 1, lastIssued := (later exp Time.zero).unix }) =
      { db with epochs := init ++ [closed, { new with
        nextIdx := 1, lastIssued := (later exp Time.zero).unix }] } := by
    have hinit : init.map (fun r => if r.number = last.number + 1 then
        { r with nextIdx := 1, lastIssued := (later exp Time.zero).unix } else r) = init := by
      conv_rhs => rw [← List.map_id init]
      refine List.map_congr_left fun r hr => ?_
      rw [he] at h
      have hlt := h.number_lt hr
      rw [if_neg (by omega)]
      rfl
    simp [Issuer.Database.updateEpoch, hinit, closed, new, Issuer.Database.newEpochRow]
  simp only [Issuer.Database.allocateTx, hexp, Bool.false_eq_true, if_false, bind, Except.bind,
    currentEpochInTx_eq he hopen h, hroll, Issuer.Database.newEpoch, hone]
  exact congrArg (fun db => Except.ok (db, (last.number + 1, 0))) hup

theorem allocateTx_refused (he : db.epochs = init ++ [last]) (hopen : last.closedAt = 0)
    (h : Issuer.WellFormed db.epochs) (hfull : last.maxIndices ≤ last.nextIdx)
    (hnum : Issuer.sqlLimit ≤ last.number + 1) {exp : Time} (hexp : exp.isZero = false)
    (now : Time) : ∃ detail, db.allocateTx m exp now = .error (.failure detail) := by
  obtain ⟨detail, hd⟩ := @insertEpoch_refused
    (db.updateEpoch last.number fun r => { r with closedAt := now.unix })
    (Issuer.Database.newEpochRow (last.number + 1) m now) hnum
  have hroll : db.rollExhausted m (Issuer.scanEpoch last) now =
      .error (.failure ("sqlitestore: open replacement epoch" ++ ": " ++ detail)) := by
    have hfull' : (Issuer.scanEpoch last).maxIndices ≤ (Issuer.scanEpoch last).nextIdx := hfull
    rw [Issuer.Database.rollExhausted, if_pos hfull']
    simp only [Issuer.scanEpoch, hd]
    rfl
  refine ⟨"sqlitestore: open replacement epoch" ++ ": " ++ detail, ?_⟩
  simp only [Issuer.Database.allocateTx, hexp, Bool.false_eq_true, if_false, bind, Except.bind,
    currentEpochInTx_eq he hopen h, hroll]

end

/-! ## Transactions of the Postgres store -/

theorem runTx_beginFunc {p : IssuerStore} {α : Type} {body : Tx Unit α} {context : String} {a : α}
    {rows : List EpochRow} {now : Time}
    (hbody : Fallible.execute (answer now) body ⟨p.epochs, p.epochs⟩ =
      (.ok a, ⟨p.epochs, rows⟩)) :
    p.runTx now (beginFunc () context body) = ({ p with epochs := rows }, .ok a) := by
  rw [IssuerStore.runTx, execute_beginFunc hbody]

/-! ## Rows that stay the same -/

namespace SameRow

variable {r : Issuer.EpochRow} {p : EpochRow}

theorem new {n m : Nat} {n' : Int} (hn : n' = n) (hm : m < Issuer.sqlLimit) (t t' : Time) :
    SameRow (Issuer.Database.newEpochRow n m t) (newEpochRow n' m t') :=
  ⟨hn, int64_of_lt hm, rfl, .inl ⟨rfl, rfl⟩, .inl ⟨rfl, rfl⟩⟩

theorem close (h : SameRow r p) {t t' : Time} (ht : Whole t) (ht' : Whole t') :
    SameRow { r with closedAt := t.unix } { p with closedAt := some (timestamptz t') } :=
  ⟨h.number, h.maxIndices, h.nextIdx,
    .inr ⟨ht.pos, t', congrArg some ht'.timestamptz_eq, ht'⟩, h.issued⟩

/-- The expiry that both stores keep. -/
theorem later_issued (h : SameRow r p) {exp : Time} (hexp : Whole exp) :
    ∃ w, Whole w ∧ later exp (Issuer.scanTime r.lastIssued) = w ∧
      laterExpiry p.lastIssued exp = w := by
  rcases h.issued with ⟨hr, hp⟩ | ⟨hr, hp⟩
  · refine ⟨exp, hexp, ?_, by rw [hp]; rfl⟩
    rw [hr]
    exact if_pos (Time.after_zero hexp.pos.le)
  · have hscan : Issuer.scanTime r.lastIssued = Time.ofUnix r.lastIssued := if_neg (by omega)
    have hw : Whole (Time.ofUnix r.lastIssued) := ⟨rfl, hr⟩
    have hswap : later (Time.ofUnix r.lastIssued) exp = later exp (Time.ofUnix r.lastIssued) := by
      apply eq_of_nanos
      rw [later_nanos, later_nanos, max_comm]
    refine ⟨later exp (Time.ofUnix r.lastIssued), ?_, by rw [hscan], by rw [hp]; exact hswap⟩
    unfold later
    split
    · exact hexp
    · exact hw

theorem take (h : SameRow r p) (hnext : r.nextIdx + 1 < Issuer.sqlLimit) {exp : Time}
    (hexp : Whole exp) :
    SameRow
      { r with
        nextIdx := r.nextIdx + 1
        lastIssued := (later exp (Issuer.scanTime r.lastIssued)).unix }
      { p with
        nextIdx := int64 (p.nextIdx + 1)
        lastIssued := some (timestamptz (laterExpiry p.lastIssued exp)) } := by
  obtain ⟨w, hw, hr, hp⟩ := h.later_issued hexp
  have hidx : int64 (p.nextIdx + 1) = (r.nextIdx + 1 : Nat) := by
    rw [h.nextIdx]
    exact_mod_cast int64_of_lt hnext
  refine ⟨h.number, h.maxIndices, hidx, h.closed, .inr ?_⟩
  rw [hr, hp, hw.timestamptz_eq]
  exact ⟨hw.pos, congrArg some hw.eq_ofUnix⟩

end SameRow

/-! ## One call -/

/-- The call opens an epoch when the open one is `r`. -/
def opens (r : Issuer.EpochRow) : Call → Bool
  | .rotateEpoch _ _ _ _ => true
  | .allocateIndex _ _ _ => r.maxIndices ≤ r.nextIdx
  | _ => false

/-- The number of the epoch that the call opens, if it opens one, fits a `BIGINT`. -/
def Fits (s : Issuer.Store) (c : Call) : Prop :=
  ∀ r ∈ s.db.currentRow, opens r c = true → r.number + 1 < Issuer.sqlLimit

instance (s : Issuer.Store) (c : Call) : Decidable (Fits s c) :=
  inferInstanceAs (Decidable (∀ r ∈ s.db.currentRow, opens r c = true →
    r.number + 1 < Issuer.sqlLimit))

section
variable {s : Issuer.Store} {p : IssuerStore} {init : List Issuer.EpochRow}
  {last : Issuer.EpochRow} {init' : List EpochRow} {last' : EpochRow}

namespace Ends

theorem currentRow (he : Ends s p init last init' last') (h : s.Sound) :
    s.db.currentRow = some last := Issuer.currentRow_eq he.rows he.isOpen h.table

theorem fits_iff (he : Ends s p init last init' last') (h : s.Sound) (c : Call) :
    Fits s c ↔ (opens last c = true → last.number + 1 < Issuer.sqlLimit) := by
  rw [Fits, he.currentRow h]
  simp

theorem bounds (he : Ends s p init last init' last') (h : s.Sound) : last.InBounds :=
  h.table.bounds last (by simp [he.rows])

theorem number_pos (he : Ends s p init last init' last') (h : s.Sound) : 0 < last'.number := by
  have : 0 < last.number := h.table.number_pos (by simp [he.rows])
  rw [he.sameLast.number]
  omega

theorem next_eq (he : Ends s p init last init' last')
    (hnum : last.number + 1 < Issuer.sqlLimit) :
    int64 (last'.number + 1) = last'.number + 1 := by
  rw [he.sameLast.number]
  exact_mod_cast int64_of_lt hnum

theorem next_number (he : Ends s p init last init' last') :
    last'.number + 1 = (last.number + 1 : Nat) := by
  rw [he.sameLast.number]
  rfl

/-- Every number of the Postgres table is positive. -/
theorem rows_pos (he : Ends s p init last init' last') (h : s.Sound) {r : EpochRow}
    (hr : r ∈ init' ++ [last']) : 0 < r.number := by
  have hsame : List.Forall₂ SameRow s.db.epochs (init' ++ [last']) := by
    rw [he.rows]
    exact List.rel_append he.same (.cons he.sameLast .nil)
  have hm : r.number ∈ (init' ++ [last']).map EpochRow.number := List.mem_map_of_mem hr
  rw [numbers_eq hsame, List.mem_map] at hm
  obtain ⟨r', hr', hnum⟩ := hm
  have := h.table.number_pos hr'
  omega

/-- Past the range of a `BIGINT` the next number wraps around to one that no row has. -/
theorem wraps (he : Ends s p init last init' last') (h : s.Sound)
    (hnum : Issuer.sqlLimit ≤ last.number + 1) :
    ∀ r ∈ init' ++ [last'], r.number ≠ int64 (last'.number + 1) := by
  intro r hr
  have hpos := he.rows_pos h hr
  have hlt := (he.bounds h).number_lt
  have hlast := he.sameLast.number
  unfold Issuer.sqlLimit at hnum hlt
  unfold int64
  omega

end Ends

end

/-- The two stores after a call, with the replies they gave. -/
structure Together (x : Issuer.Store × Reply) (y : IssuerStore × Reply) : Prop where
  agrees : Agrees x.1 y.1
  reply : x.2 = y.2

theorem sound_step {s : Issuer.Store} (h : s.Sound) (c : Call) : (sqliteStep s c).1.Sound := by
  cases c with
  | allocateIndex exp now now' => exact h.step (.allocateIndex exp now)
  | rotateEpoch m t now now' => exact h.step (.rotateEpoch m t now)
  | setRevoked e i t now now' => exact h.step (.setRevoked e i t now)
  | getEpoch n => exact h
  | currentEpoch => exact h
  | listOpenEpochs => exact h
  | loadStatusBits e => exact h

section
variable {s : Issuer.Store} {p : IssuerStore} {scan : List RevocationRow → List RevocationRow}

/-- The ceiling that `RotateEpoch` uses for an argument. -/
theorem Agrees.ceiling_lt (h : Agrees s p) {m : Nat} (hm : m < Issuer.sqlLimit) :
    (if m = 0 then s.maxIndices else m) < Issuer.sqlLimit := by
  split
  · exact h.max_lt
  · exact hm

theorem rotateEpoch_agrees (h : Agrees s p) {m : Nat} {t now now' : Time}
    (hv : (Call.rotateEpoch m t now now').Valid) (hf : Fits s (.rotateEpoch m t now now')) :
    Together (sqliteStep s (.rotateEpoch m t now now'))
      (pgStep scan p (.rotateEpoch m t now now')) := by
  obtain ⟨init, last, init', last', he⟩ := h.ends
  obtain ⟨hm, ht, -, -⟩ := hv
  have hnum : last.number + 1 < Issuer.sqlLimit := (he.fits_iff h.sound _).mp hf rfl
  have hceil := h.ceiling_lt hm
  have hs : s.rotateEpoch m t now =
      ({ s with db := { s.db with epochs := init ++ [{ last with closedAt := t.unix },
          Issuer.Database.newEpochRow (last.number + 1)
            (if m = 0 then s.maxIndices else m) t] } },
        .ok (Issuer.Database.newEpoch (last.number + 1)
          (if m = 0 then s.maxIndices else m) t)) := by
    rw [Issuer.Store.rotateEpoch, ht.orNow,
      rotateTx_eq he.rows he.isOpen h.sound.table hnum hceil]
    rfl
  have hbody := @execute_rotateBody now' ⟨p.epochs, p.epochs⟩ _ _ he.topped he.rows'
    (he.number_pos h.sound) _ (he.next_eq hnum) (fun r hr => he.topped.ne_succ hr)
    (if m = 0 then p.maxIndices else m) t
  have hp := @runTx_beginFunc _ _ _ "pgstore: rotate epoch" _ _ _ hbody
  rw [← rotateEpoch_eq ht.not_zero] at hp
  have hsound := sound_step h.sound (.rotateEpoch m t now now')
  simp only [sqliteStep, hs] at hsound
  simp only [sqliteStep, pgStep, hs, hp]
  refine ⟨⟨hsound, h.maxIndices, h.max_lt, ?_, h.revocations⟩, ?_⟩
  · refine List.rel_append he.same (.cons (he.sameLast.close ht ht) (.cons ?_ .nil))
    rw [h.maxIndices]
    exact SameRow.new he.next_number hceil t t
  · rw [he.next_number, uint64_natCast hnum, h.maxIndices]
    rfl

theorem allocateIndex_agrees (h : Agrees s p) {exp now now' : Time}
    (hv : (Call.allocateIndex exp now now').Valid) (hf : Fits s (.allocateIndex exp now now')) :
    Together (sqliteStep s (.allocateIndex exp now now'))
      (pgStep scan p (.allocateIndex exp now now')) := by
  obtain ⟨init, last, init', last', he⟩ := h.ends
  obtain ⟨hexp, hnow, hnow'⟩ := hv
  have hb := he.bounds h.sound
  have hsound := sound_step h.sound (.allocateIndex exp now now')
  by_cases hroom : last.nextIdx < last.maxIndices
  · have hs := @allocateTx_room _ _ _ s.maxIndices he.rows he.isOpen h.sound.table hroom _
      hexp.not_zero now
    have hroom' : last'.nextIdx < last'.maxIndices := by
      rw [he.sameLast.nextIdx, he.sameLast.maxIndices]
      exact_mod_cast hroom
    have hp := @runTx_beginFunc _ _ _ "pgstore: allocate index" _ _ _
      (@execute_allocateBody now' ⟨p.epochs, p.epochs⟩ _ _ he.topped he.rows' hroom'
        p.maxIndices exp)
    rw [← allocateIndex_eq hexp.not_zero] at hp
    simp only [sqliteStep, Issuer.Store.allocateIndex, Issuer.Store.commit, hs] at hsound
    simp only [sqliteStep, pgStep, Issuer.Store.allocateIndex, Issuer.Store.commit, hs, hp]
    refine ⟨⟨hsound, h.maxIndices, h.max_lt, ?_, h.revocations⟩, ?_⟩
    · have hnext : last.nextIdx + 1 < Issuer.sqlLimit := Nat.lt_of_le_of_lt hroom hb.max_lt
      exact List.rel_append he.same (.cons (he.sameLast.take hnext hexp) .nil)
    · rw [he.sameLast.number, he.sameLast.nextIdx, uint64_natCast hb.number_lt,
        uint64_natCast (hroom.trans hb.max_lt)]
  · have hfull : last.maxIndices ≤ last.nextIdx := Nat.le_of_not_lt hroom
    have hnum : last.number + 1 < Issuer.sqlLimit :=
      (he.fits_iff h.sound _).mp hf (decide_eq_true hfull)
    have hs := allocateTx_roll he.rows he.isOpen h.sound.table hfull hnum h.max_lt
      hexp.not_zero now
    have hfull' : last'.maxIndices ≤ last'.nextIdx := by
      rw [he.sameLast.nextIdx, he.sameLast.maxIndices]
      exact_mod_cast hfull
    have hp := @runTx_beginFunc _ _ _ "pgstore: allocate index" _ _ _
      (@execute_allocateBody_full now' ⟨p.epochs, p.epochs⟩ _ _ he.topped he.rows' hfull' _
        (he.next_eq hnum) (fun r hr => he.topped.ne_succ hr) p.maxIndices exp)
    rw [← allocateIndex_eq hexp.not_zero] at hp
    simp only [sqliteStep, Issuer.Store.allocateIndex, Issuer.Store.commit, hs] at hsound
    simp only [sqliteStep, pgStep, Issuer.Store.allocateIndex, Issuer.Store.commit, hs, hp]
    refine ⟨⟨hsound, h.maxIndices, h.max_lt, ?_, h.revocations⟩, ?_⟩
    · refine List.rel_append he.same (.cons (he.sameLast.close hnow hnow') (.cons ?_ .nil))
      have hnew : SameRow (Issuer.Database.newEpochRow (last.number + 1) s.maxIndices now)
          (newEpochRow (last'.number + 1) s.maxIndices now') :=
        SameRow.new he.next_number h.max_lt now now'
      have hone : int64 (0 + 1) = 1 := by decide
      have htake := hnew.take (show 0 + 1 < Issuer.sqlLimit by decide) hexp
      rw [h.maxIndices]
      exact hone ▸ htake
    · rw [he.next_number, uint64_natCast hnum]

theorem setRevoked_agrees (h : Agrees s p) {epoch idx : Nat} {t now now' : Time}
    (hv : (Call.setRevoked epoch idx t now now').Valid) :
    Together (sqliteStep s (.setRevoked epoch idx t now now'))
      (pgStep scan p (.setRevoked epoch idx t now now')) := by
  obtain ⟨he, hi, ht, -, -⟩ := hv
  have hsound := sound_step h.sound (.setRevoked epoch idx t now now')
  have h1 : Issuer.sqlUint 1 epoch = .ok epoch := Issuer.sqlUint_eq_ok.mpr ⟨he, rfl⟩
  have h2 : Issuer.sqlUint 2 idx = .ok idx := Issuer.sqlUint_eq_ok.mpr ⟨hi, rfl⟩
  simp only [sqliteStep, pgStep, Issuer.Store.setRevoked, IssuerStore.setRevoked,
    Issuer.Database.setRevokedTx, ht.orNow] at hsound ⊢
  rcases h.getEpoch_cases he with ⟨hs, hp⟩ | ⟨r, r', hr, hrow, hs, hp⟩
  · rw [hs, hp]
    exact ⟨h, rfl⟩
  · have hmax : (scanEpochRow r').maxIndices = (Issuer.scanEpoch r).maxIndices := by
      rw [scanEpochRow, hrow.maxIndices, uint64_natCast (h.sound.table.bounds r hr).max_lt]
      rfl
    simp only [hs, hp, bind, Except.bind, hmax, Issuer.Database.insertRevocation, h1, h2,
      any_revocation h.revocations he hi] at hsound ⊢
    by_cases hlt : (Issuer.scanEpoch r).maxIndices ≤ idx
    · simp only [if_pos hlt] at hsound ⊢
      exact ⟨h, rfl⟩
    · by_cases hany : s.db.revocations.any fun row => row.epoch == epoch && row.idx == idx
      · simp only [if_neg hlt, if_pos hany] at hsound ⊢
        exact ⟨h, rfl⟩
      · simp only [if_neg hlt, if_neg hany] at hsound ⊢
        refine ⟨⟨hsound, h.maxIndices, h.max_lt, h.epochs, ?_⟩, rfl⟩
        refine List.rel_append h.revocations (.cons ⟨?_, ?_, hi, ?_⟩ .nil)
        · exact int64_of_lt he
        · exact int64_of_lt hi
        · exact ht.timestamptz_eq.trans ht.eq_ofUnix

theorem currentEpoch_agrees (h : Agrees s p) :
    Together (sqliteStep s .currentEpoch) (pgStep scan p .currentEpoch) := by
  obtain ⟨init, last, init', last', he⟩ := h.ends
  refine ⟨h, ?_⟩
  have hs := currentEpochInTx_eq he.rows he.isOpen h.sound.table
  have hp : p.currentEpoch = .ok (scanEpochRow last') := by
    rw [IssuerStore.currentEpoch, he.rows', he.topped.openRow_eq]
  simp only [sqliteStep, pgStep, hs, hp, Reply.of, he.sameLast.view_eq (he.bounds h.sound)]

/-- Rows in the order of their numbers are not moved by `ORDER BY number`. -/
theorem listOpenEpochs_agrees (h : Agrees s p) :
    Together (sqliteStep s .listOpenEpochs) (pgStep scan p .listOpenEpochs) := by
  refine ⟨h, ?_⟩
  have hsorted : s.db.epochs.Pairwise fun a b => a.number < b.number := by
    rw [← List.pairwise_map (f := Issuer.EpochRow.number), h.sound.table.numbers]
    exact List.pairwise_lt_range'
  have hsorted' : p.epochs.Pairwise fun a b => a.number < b.number := by
    rw [← List.pairwise_map (f := EpochRow.number), numbers_eq h.epochs, List.pairwise_map]
    exact hsorted.imp fun hlt => by exact_mod_cast hlt
  have hs := @List.mergeSort_of_pairwise _
    (fun a b : Issuer.EpochRow => decide (a.number ≤ b.number)) _
    ((hsorted.filter (·.closedAt == 0)).imp fun hlt => decide_eq_true hlt.le)
  have hp := @List.mergeSort_of_pairwise _
    (fun a b : EpochRow => decide (a.number ≤ b.number)) _
    ((hsorted'.filter (·.closedAt.isNone)).imp fun hlt => decide_eq_true hlt.le)
  have hviews := views_eq (isNone_filter h.epochs) fun r hr =>
    h.sound.table.bounds r (List.mem_of_mem_filter hr)
  simp only [sqliteStep, pgStep, sqliteListOpenEpochs, IssuerStore.listOpenEpochs, hs, hp,
    Reply.of, List.map_map]
  exact congrArg Reply.epochs hviews.symm

theorem loadStatusBits_agrees (hscan : ∀ rows, (scan rows).Perm rows) (h : Agrees s p)
    {epoch : Nat} (he : epoch < Issuer.sqlLimit) :
    Together (sqliteStep s (.loadStatusBits epoch)) (pgStep scan p (.loadStatusBits epoch)) := by
  refine ⟨h, ?_⟩
  have h1 : Issuer.sqlUint 1 epoch = .ok epoch := Issuer.sqlUint_eq_ok.mpr ⟨he, rfl⟩
  simp only [sqliteStep, pgStep, Issuer.Database.loadStatusBits, IssuerStore.loadStatusBits]
  rcases h.getEpoch_cases he with ⟨hs, hp⟩ | ⟨r, r', hr, hrow, hs, hp⟩
  · rw [hs, hp]
    rfl
  · have hmax : (scanEpochRow r').maxIndices = (Issuer.scanEpoch r).maxIndices := by
      rw [scanEpochRow, hrow.maxIndices, uint64_natCast (h.sound.table.bounds r hr).max_lt]
      rfl
    simp only [hs, hp, h1, bind, Except.bind, hmax]
    rw [foldl_loadRow_perm (hscan _), foldl_loadRow_eq (filter_epoch h.revocations he)]
    rfl

end

/-! ## Whole runs -/

/-- Every call of the run fits. -/
def FitsRun : Issuer.Store → List Call → Prop
  | _, [] => True
  | s, c :: calls => Fits s c ∧ FitsRun (sqliteStep s c).1 calls

instance FitsRun.instDecidable : (s : Issuer.Store) → (calls : List Call) →
    Decidable (FitsRun s calls)
  | _, [] => isTrue trivial
  | s, c :: calls =>
    have := FitsRun.instDecidable (sqliteStep s c).1 calls
    inferInstanceAs (Decidable (Fits s c ∧ FitsRun (sqliteStep s c).1 calls))

section
variable {s : Issuer.Store} {p : IssuerStore} {scan : List RevocationRow → List RevocationRow}

theorem step_agrees (hscan : ∀ rows, (scan rows).Perm rows) (h : Agrees s p) {c : Call}
    (hv : c.Valid) (hf : Fits s c) : Together (sqliteStep s c) (pgStep scan p c) := by
  cases c with
  | allocateIndex exp now now' => exact allocateIndex_agrees h hv hf
  | rotateEpoch m t now now' => exact rotateEpoch_agrees h hv hf
  | setRevoked epoch idx t now now' => exact setRevoked_agrees h hv
  | getEpoch n => exact ⟨h, (h.getEpoch_reply hv).symm⟩
  | currentEpoch => exact currentEpoch_agrees h
  | listOpenEpochs => exact listOpenEpochs_agrees h
  | loadStatusBits epoch => exact loadStatusBits_agrees hscan h hv

/-- The SQLite store refuses what does not fit, and the Postgres store does it. -/
theorem step_differs (h : Agrees s p) {c : Call} (hv : c.Valid) (hf : ¬ Fits s c) :
    (sqliteStep s c).2 = .failed .other ∧ ∀ k, (pgStep scan p c).2 ≠ .failed k := by
  obtain ⟨init, last, init', last', he⟩ := h.ends
  rw [he.fits_iff h.sound, Classical.not_imp, Nat.not_lt] at hf
  obtain ⟨hopens, hnum⟩ := hf
  have hwraps := he.wraps h.sound hnum
  cases c with
  | rotateEpoch m t now now' =>
    obtain ⟨hm, ht, -, -⟩ := hv
    obtain ⟨detail, hs⟩ := @rotateTx_refused _ _ _ (if m = 0 then s.maxIndices else m) he.rows
      he.isOpen h.sound.table hnum t
    have hp := @runTx_beginFunc _ _ _ "pgstore: rotate epoch" _ _ _
      (@execute_rotateBody now' ⟨p.epochs, p.epochs⟩ _ _ he.topped he.rows'
        (he.number_pos h.sound) _ rfl hwraps (if m = 0 then p.maxIndices else m) t)
    rw [← rotateEpoch_eq ht.not_zero] at hp
    constructor
    · simp only [sqliteStep, Issuer.Store.rotateEpoch, ht.orNow, hs]
      rfl
    · intro k
      simp only [pgStep, hp, Reply.of]
      exact Reply.noConfusion
  | allocateIndex exp now now' =>
    have hfull : last.maxIndices ≤ last.nextIdx := of_decide_eq_true hopens
    obtain ⟨detail, hs⟩ := @allocateTx_refused _ _ _ s.maxIndices he.rows he.isOpen h.sound.table
      hfull hnum _ hv.1.not_zero now
    have hfull' : last'.maxIndices ≤ last'.nextIdx := by
      rw [he.sameLast.nextIdx, he.sameLast.maxIndices]
      exact_mod_cast hfull
    have hp := @runTx_beginFunc _ _ _ "pgstore: allocate index" _ _ _
      (@execute_allocateBody_full now' ⟨p.epochs, p.epochs⟩ _ _ he.topped he.rows' hfull' _
        rfl hwraps p.maxIndices exp)
    rw [← allocateIndex_eq hv.1.not_zero] at hp
    constructor
    · simp only [sqliteStep, Issuer.Store.allocateIndex, hs]
      rfl
    · intro k
      simp only [pgStep, hp, Reply.of]
      exact Reply.noConfusion
  | setRevoked epoch idx t now now' => cases hopens
  | getEpoch n => cases hopens
  | currentEpoch => cases hopens
  | listOpenEpochs => cases hopens
  | loadStatusBits epoch => cases hopens

theorem history_eq_iff (hscan : ∀ rows, (scan rows).Perm rows) (h : Agrees s p)
    {calls : List Call} (hv : ∀ c ∈ calls, c.Valid) :
    history sqliteStep s calls = history (pgStep scan) p calls ↔ FitsRun s calls := by
  induction calls generalizing s p with
  | nil => exact ⟨fun _ => trivial, fun _ => rfl⟩
  | cons c calls ih =>
    have hc : c.Valid := hv c List.mem_cons_self
    have hrest : ∀ d ∈ calls, d.Valid := fun d hd => hv d (List.mem_cons_of_mem _ hd)
    rw [history, history, List.cons.injEq, Prod.mk.injEq, FitsRun]
    by_cases hf : Fits s c
    · have ht := step_agrees hscan h hc hf
      rw [ih ht.agrees hrest]
      exact ⟨fun hh => ⟨hf, hh.2⟩, fun hh => ⟨⟨rfl, ht.reply⟩, hh.2⟩⟩
    · obtain ⟨hs, hp⟩ := @step_differs _ _ scan h _ hc hf
      refine ⟨fun hh => ?_, fun hh => absurd hh.1 hf⟩
      exact absurd (hh.1.2.symm.trans hs) (hp _)

end

/-- Freshly opened stores agree. -/
theorem agrees_open {m : Nat} {now now' : Time} {s : Issuer.Store}
    (ho : Issuer.Store.openStore .empty m now = .ok s) :
    Agrees s (IssuerStore.newIssuerStore m now') := by
  have hsound := (Issuer.openStore_empty ho).1
  simp only [Issuer.Store.openStore, bind_eq_ok, mapError_eq_ok, pure_eq_ok] at ho
  obtain ⟨db, hdb, rfl⟩ := ho
  obtain ⟨hep, hmax, hrest⟩ := Issuer.ensureCurrentEpoch_ok hdb
  refine ⟨hsound, rfl, hmax, ?_, ?_⟩
  · rw [hep]
    exact .cons (SameRow.new rfl hmax now now') .nil
  · rw [hrest.revocations]
    exact .nil

/-- Over every run of valid calls on stores opened with the same ceiling, in whatever order
Postgres scans the revocations: the two stores give the same replies exactly when no call opens
an epoch whose number does not fit a `BIGINT`. -/
theorem interchangeable_iff {m : Nat} {now now' : Time} {s : Issuer.Store}
    (ho : Issuer.Store.openStore .empty m now = .ok s)
    {scan : List RevocationRow → List RevocationRow} (hscan : ∀ rows, (scan rows).Perm rows)
    {calls : List Call} (hv : ∀ c ∈ calls, c.Valid) :
    history sqliteStep s calls =
        history (pgStep scan) (IssuerStore.newIssuerStore m now') calls ↔ FitsRun s calls :=
  history_eq_iff hscan (agrees_open ho) hv

instance (t : Time) : Decidable (Whole t) :=
  decidable_of_iff (t.nsec = 0 ∧ 0 < t.sec) ⟨fun h => ⟨h.1, h.2⟩, fun h => ⟨h.1, h.2⟩⟩

instance : DecidablePred Call.Valid
  | .allocateIndex exp now now' =>
    inferInstanceAs (Decidable (Whole exp ∧ Whole now ∧ Whole now'))
  | .rotateEpoch m t now now' =>
    inferInstanceAs (Decidable (m < Issuer.sqlLimit ∧ Whole t ∧ Whole now ∧ Whole now'))
  | .setRevoked e i t now now' => inferInstanceAs (Decidable
      (e < Issuer.sqlLimit ∧ i < Issuer.sqlLimit ∧ Whole t ∧ Whole now ∧ Whole now'))
  | .getEpoch n => inferInstanceAs (Decidable (n < Issuer.sqlLimit))
  | .currentEpoch => inferInstanceAs (Decidable True)
  | .listOpenEpochs => inferInstanceAs (Decidable True)
  | .loadStatusBits e => inferInstanceAs (Decidable (e < Issuer.sqlLimit))

/-- The first epoch is filled and rolled, then rotated away, with a revocation in it. -/
def mixedCalls : List Call :=
  [.allocateIndex (Time.ofUnix 1000) (Time.ofUnix 101) (Time.ofUnix 102),
    .allocateIndex (Time.ofUnix 900) (Time.ofUnix 103) (Time.ofUnix 104),
    .setRevoked 1 1 (Time.ofUnix 110) (Time.ofUnix 110) (Time.ofUnix 111),
    .setRevoked 1 0 (Time.ofUnix 105) (Time.ofUnix 112) (Time.ofUnix 113),
    .setRevoked 1 2 (Time.ofUnix 114) (Time.ofUnix 114) (Time.ofUnix 114),
    .allocateIndex (Time.ofUnix 1100) (Time.ofUnix 120) (Time.ofUnix 121),
    .rotateEpoch 5 (Time.ofUnix 130) (Time.ofUnix 130) (Time.ofUnix 131),
    .loadStatusBits 1, .getEpoch 1, .getEpoch 9, .currentEpoch, .listOpenEpochs]

theorem interchangeable_mixed :
    history sqliteStep Issuer.smallStore mixedCalls =
      history (pgStep List.reverse) (IssuerStore.newIssuerStore 2 (Time.ofUnix 101))
        mixedCalls := by
  have ho : Issuer.Store.openStore .empty 2 (Time.ofUnix 100) = .ok Issuer.smallStore := rfl
  have hfits : FitsRun Issuer.smallStore mixedCalls := by decide
  exact (interchangeable_iff ho (fun rows => rows.reverse_perm) (by decide)).mpr hfits

/-- Each rotation of a run that fits adds a row. -/
theorem length_add_lt {s : Issuer.Store} (h : s.Sound) (hmax : s.maxIndices < Issuer.sqlLimit)
    {m : Nat} {t now now' : Time} (hm : m < Issuer.sqlLimit) (ht : Whole t) {n : Nat}
    (hf : FitsRun s (List.replicate n (.rotateEpoch m t now now'))) :
    s.db.epochs.length + n < Issuer.sqlLimit := by
  induction n generalizing s with
  | zero =>
    obtain ⟨init, last, he, -⟩ := h.table.last_open
    have hb := (h.table.bounds last (by simp [he])).number_lt
    have hnum := h.table.numbers
    rw [he] at hnum
    rw [he, List.length_append, List.length_singleton, Nat.add_zero,
      ← (Issuer.numbers_concat hnum).2]
    exact hb
  | succ n ih =>
    obtain ⟨init, last, he, hopen⟩ := h.table.last_open
    rw [List.replicate_succ] at hf
    obtain ⟨hfirst, hrest⟩ := hf
    have hnum : last.number + 1 < Issuer.sqlLimit :=
      hfirst last (Issuer.currentRow_eq he hopen h.table) rfl
    have hceil : (if m = 0 then s.maxIndices else m) < Issuer.sqlLimit := by
      split
      · exact hmax
      · exact hm
    have hs : (sqliteStep s (.rotateEpoch m t now now')).1 =
        { s with db := { s.db with epochs := init ++ [{ last with closedAt := t.unix },
            Issuer.Database.newEpochRow (last.number + 1)
              (if m = 0 then s.maxIndices else m) t] } } := by
      simp only [sqliteStep, Issuer.Store.rotateEpoch, ht.orNow,
        rotateTx_eq he hopen h.table hnum hceil]
      rfl
    have hsound := sound_step h (.rotateEpoch m t now now')
    rw [hs] at hrest hsound
    have hlen := ih hsound hmax hrest
    simp only [List.length_append, List.length_cons, List.length_nil] at hlen
    rw [he, List.length_append, List.length_singleton]
    omega

/-- Rotating a fresh store once for every epoch number a `BIGINT` has: the last rotation fails
in the SQLite store and succeeds in the Postgres store. -/
theorem interchangeable_overflow :
    ¬ ∀ (m : Nat) (now now' : Time) (s : Issuer.Store)
      (scan : List RevocationRow → List RevocationRow) (calls : List Call),
      Issuer.Store.openStore .empty m now = .ok s → (∀ rows, (scan rows).Perm rows) →
      (∀ c ∈ calls, c.Valid) →
      history sqliteStep s calls =
        history (pgStep scan) (IssuerStore.newIssuerStore m now') calls := by
  intro h
  have ho : Issuer.Store.openStore .empty 2 (Time.ofUnix 100) = .ok Issuer.smallStore := rfl
  have hvalid : (Call.rotateEpoch 2 (Time.ofUnix 200) (Time.ofUnix 200) (Time.ofUnix 200)).Valid :=
    by decide
  have hv : ∀ c ∈ List.replicate (Issuer.sqlLimit - 1)
      (Call.rotateEpoch 2 (Time.ofUnix 200) (Time.ofUnix 200) (Time.ofUnix 200)), c.Valid := by
    intro c hc
    rw [List.eq_of_mem_replicate hc]
    exact hvalid
  have heq := h 2 (Time.ofUnix 100) (Time.ofUnix 100) Issuer.smallStore id _ ho
    (fun rows => List.Perm.refl rows) hv
  have hfits := (history_eq_iff (fun rows => List.Perm.refl rows) (agrees_open ho) hv).mp heq
  have hlt := length_add_lt (Issuer.openStore_empty ho).1 (by decide) hvalid.1 hvalid.2.1 hfits
  have hlen : Issuer.smallStore.db.epochs.length = 1 := rfl
  have hlimit : 0 < Issuer.sqlLimit := by decide
  omega

end Shadownet.Postgres
