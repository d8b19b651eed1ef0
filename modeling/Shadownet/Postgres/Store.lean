import Mathlib.Data.List.MinMax
import Shadownet.Foundation.Fallible
import Shadownet.Issuer.Status

/-!
# The Postgres issuer store

`core/pgstore/issuer.go`. `RotateEpoch` and `AllocateIndex` are transactions: programs over SQL
statements, which name the transaction they belong to. Here they run alone (`answer`); what
several of them do at the same time is in `Postgres/Locks.lean`. The other calls are single
statements.

Columns are `BIGINT`, so a `uint64` is converted on the way in and out, and times are
`TIMESTAMPTZ`, which keeps microseconds.
-/

namespace Shadownet.Postgres

open Foundation Go

export Issuer (StoreError Epoch)

/-- `int64(x)`. -/
def int64 (x : Int) : Int := (x + 9223372036854775808) % 18446744073709551616 - 9223372036854775808

/-- `uint64(x)` of an `int64`. -/
def uint64 (x : Int) : Nat := (x % 18446744073709551616).toNat

/-- A time as a `TIMESTAMPTZ` column keeps it. -/
def timestamptz (t : Time) : Time :=
  ⟨t.sec, t.nsec / 1000 * 1000, (Nat.div_mul_le_self _ _).trans_lt t.nsec_lt⟩

/-- A row of `issuer_epochs`. -/
structure EpochRow where
  number : Int
  maxIndices : Int
  nextIdx : Int
  openedAt : Time
  closedAt : Option Time
  lastIssued : Option Time
  deriving DecidableEq

/-- A row of `issuer_revocations`. -/
structure RevocationRow where
  epoch : Int
  idx : Int
  revokedAt : Time
  deriving DecidableEq

/-- `scanEpochRow`, also `scanEpochRowCols`. -/
def scanEpochRow (r : EpochRow) : Epoch :=
  { number := uint64 r.number, maxIndices := uint64 r.maxIndices, nextIdx := uint64 r.nextIdx
    openedAt := r.openedAt
    closedAt := r.closedAt.getD Time.zero
    lastIssuedExpiresAt := r.lastIssued.getD Time.zero }

/-! ## Statements -/

/-- `WHERE closed_at IS NULL ORDER BY number DESC LIMIT 1`. -/
def openRow (rows : List EpochRow) : Option EpochRow :=
  @List.argmax _ _ Int.instLinearOrder.toPreorder Int.decLt EpochRow.number
    (rows.filter (·.closedAt.isNone))

/-- What a statement of a transaction writes. -/
inductive Write where
  | close (number : Int) (t : Time)
  | insert (row : EpochRow)
  | bump (number nextIdx : Int) (lastIssued : Time)
  deriving DecidableEq

/-- `UPDATE issuer_epochs SET … WHERE number = …`. -/
def updateRows (rows : List EpochRow) (number : Int) (f : EpochRow → EpochRow) : List EpochRow :=
  rows.map fun r => if r.number = number then f r else r

def Write.apply (rows : List EpochRow) : Write → List EpochRow
  | .close number t => updateRows rows number fun r => { r with closedAt := some (timestamptz t) }
  | .insert row => rows ++ [row]
  | .bump number nextIdx lastIssued => updateRows rows number fun r =>
      { r with nextIdx, lastIssued := some (timestamptz lastIssued) }

/-- The error of an `INSERT` whose primary key is taken. -/
def duplicateKey : StoreError :=
  .failure ("ERROR: duplicate key value violates unique constraint \"issuer_epochs_pkey\" " ++
    "(SQLSTATE 23505)")

/-- The statements of the transaction `tx`, and the clock. `SELECT … FOR UPDATE` is two of them:
the candidate of its snapshot, and the lock on that row, which answers with the row only when
it still matches. -/
inductive Stmt (ι : Type) where
  | now
  | candidate (tx : ι)
  | lockRow (tx : ι) (number : Int)
  | write (tx : ι) (w : Write)
  | commit (tx : ι)
  | rollback (tx : ι)

/-- The type of the answers. -/
@[reducible] def Ans {ι : Type} : Stmt ι → Type
  | .now => Time
  | .candidate _ => Option Int
  | .lockRow _ _ => Option EpochRow
  | .write _ _ => Except StoreError Unit
  | .commit _ => Unit
  | .rollback _ => Unit

abbrev Tx (ι α : Type) := Fallible (Stmt ι) Ans StoreError α

section
variable {ι α : Type}

/-- A statement of a transaction. -/
def ask (o : Stmt ι) : Tx ι (Ans o) := Fallible.ask o

/-- `tx.Exec`. -/
def exec (tx : ι) (w : Write) : Tx ι Unit := do
  let r ← ask (.write tx w)
  Fallible.ofExcept r

/-- `SELECT … WHERE closed_at IS NULL ORDER BY number DESC LIMIT 1 FOR UPDATE`. -/
def selectForUpdate (tx : ι) : Tx ι (Option EpochRow) := do
  let candidate ← ask (.candidate tx)
  match candidate with
  | none => pure none
  | some number => ask (.lockRow tx number)

/-- The row `INSERT INTO issuer_epochs (number, max_indices, next_idx, opened_at)` writes. -/
def newEpochRow (number : Int) (maxIndices : Nat) (t : Time) : EpochRow :=
  { number, maxIndices := int64 maxIndices, nextIdx := 0, openedAt := timestamptz t
    closedAt := none, lastIssued := none }

/-- `pgx.BeginFunc`: commits what the body did, or rolls it back and passes its error on. -/
def beginFunc (tx : ι) (context : String) (body : Tx ι α) : Tx ι α :=
  ExceptT.mk (body.run >>= fun r => match r with
    | .ok a => .call (.commit tx) fun _ => .ret (.ok a)
    | .error e => .call (.rollback tx) fun _ => .ret (.error (e.wrap context)))

/-- The switch of `RotateEpoch`: the number of the epoch it closed, or zero. -/
def closeCurrent (tx : ι) (t : Time) : Option EpochRow → Tx ι Int
  | none => pure 0
  | some row => do
    exec tx (.close row.number t)
    pure row.number

/-- The body of `RotateEpoch`. -/
def rotateBody (tx : ι) (maxIndices : Nat) (t : Time) : Tx ι Epoch := do
  let row ← selectForUpdate tx
  let currentNum ← closeCurrent tx t row
  let next := if 0 < currentNum then int64 (currentNum + 1) else 1
  exec tx (.insert (newEpochRow next maxIndices t))
  pure { number := uint64 next, maxIndices, nextIdx := 0, openedAt := t, closedAt := Time.zero
         lastIssuedExpiresAt := Time.zero }

/-- The first part of the body of `AllocateIndex`: number, next index and last expiry of the
epoch to take from, an exhausted one replaced inline. -/
def rollExhausted (tx : ι) (maxIndices : Nat) (row : EpochRow) :
    Tx ι (Int × Int × Option Time) :=
  if row.maxIndices ≤ row.nextIdx then do
    let now ← ask .now
    exec tx (.close row.number now)
    let next := int64 (row.number + 1)
    exec tx (.insert (newEpochRow next maxIndices now))
    pure (next, 0, none)
  else pure (row.number, row.nextIdx, row.lastIssued)

/-- The later of the expiries, `lastIssuedRaw` first. -/
def laterExpiry (lastIssuedRaw : Option Time) (credentialExp : Time) : Time :=
  match lastIssuedRaw with
  | some last => if last.after credentialExp then last else credentialExp
  | none => credentialExp

/-- The body of `AllocateIndex`. -/
def allocateBody (tx : ι) (maxIndices : Nat) (credentialExp : Time) : Tx ι (Nat × Nat) := do
  let row ← selectForUpdate tx
  match row with
  | none => throw (.failure "no rows in result set")
  | some row => do
    let (num, idx, lastIssuedRaw) ← rollExhausted tx maxIndices row
    exec tx (.bump num (int64 (idx + 1)) (laterExpiry lastIssuedRaw credentialExp))
    pure (uint64 num, uint64 idx)

/-- `RotateEpoch` of a store with the ceiling `maxIndices`, for the argument `arg`. -/
def rotateEpoch (tx : ι) (maxIndices arg : Nat) (t : Time) : Tx ι Epoch := do
  let t ← if t.isZero then ask .now else pure t
  beginFunc tx "pgstore: rotate epoch"
    (rotateBody tx (if arg = 0 then maxIndices else arg) t)

/-- `AllocateIndex` of a store with the ceiling `maxIndices`. -/
def allocateIndex (tx : ι) (maxIndices : Nat) (credentialExp : Time) : Tx ι (Nat × Nat) :=
  if credentialExp.isZero then throw (.invalid "credentialExp required")
  else beginFunc tx "pgstore: allocate index" (allocateBody tx maxIndices credentialExp)

end

section
variable {ι : Type} {tx : ι} {m arg : Nat} {t exp : Time}

theorem rotateEpoch_eq (ht : t.isZero = false) :
    rotateEpoch tx m arg t = beginFunc tx "pgstore: rotate epoch"
      (rotateBody tx (if arg = 0 then m else arg) t) := by
  rw [rotateEpoch, ht, if_neg Bool.false_ne_true]
  rfl

theorem allocateIndex_eq (hexp : exp.isZero = false) :
    allocateIndex tx m exp = beginFunc tx "pgstore: allocate index" (allocateBody tx m exp) := by
  rw [allocateIndex, hexp, if_neg Bool.false_ne_true]

end

/-! ## One call at a time -/

/-- The committed rows, and what the one open transaction sees. -/
structure Session where
  committed : List EpochRow
  current : List EpochRow

/-- A statement of the only transaction, with the clock at `now`. -/
def answer (now : Time) (s : Session) : (o : Stmt Unit) → Ans o × Session
  | .now => (now, s)
  | .candidate _ => ((openRow s.current).map EpochRow.number, s)
  | .lockRow _ number => (s.current.find? fun r => r.number = number ∧ r.closedAt = none, s)
  | .write _ (.insert row) =>
    if s.current.any (·.number == row.number) then (.error duplicateKey, s)
    else (.ok (), { s with current := (Write.insert row).apply s.current })
  | .write _ w => (.ok (), { s with current := w.apply s.current })
  | .commit _ => ((), { s with committed := s.current })
  | .rollback _ => ((), { s with current := s.committed })

/-- `IssuerStore`: the two tables and the ceiling new epochs are opened with. -/
structure IssuerStore where
  epochs : List EpochRow
  revocations : List RevocationRow
  maxIndices : Nat

namespace IssuerStore

/-- A transaction that runs alone. -/
def runTx {α : Type} (s : IssuerStore) (now : Time) (x : Tx Unit α) :
    IssuerStore × Except StoreError α :=
  let (r, session) := Fallible.execute (answer now) x ⟨s.epochs, s.epochs⟩
  ({ s with epochs := session.committed }, r)

/-- `NewIssuerStore` on empty tables. -/
def newIssuerStore (maxIndices : Nat) (now : Time) : IssuerStore :=
  let maxIndices := if maxIndices = 0 then Issuer.defaultMaxIndices else maxIndices
  { epochs := [newEpochRow 1 maxIndices now], revocations := [], maxIndices }

/-- `CurrentEpoch`. -/
def currentEpoch (s : IssuerStore) : Except StoreError Epoch :=
  match openRow s.epochs with
  | some r => .ok (scanEpochRow r)
  | none => .error .notFound

/-- `GetEpoch`. -/
def getEpoch (s : IssuerStore) (n : Nat) : Except StoreError Epoch :=
  match s.epochs.find? (·.number == int64 n) with
  | some r => .ok (scanEpochRow r)
  | none => .error .notFound

/-- `ListOpenEpochs`. -/
def listOpenEpochs (s : IssuerStore) : Except StoreError (List Epoch) :=
  .ok (((s.epochs.filter (·.closedAt.isNone)).mergeSort fun a b => a.number ≤ b.number).map
    scanEpochRow)

/-- `SetRevoked`. -/
def setRevoked (s : IssuerStore) (epoch idx : Nat) (t now : Time) :
    IssuerStore × Except StoreError Unit :=
  match s.getEpoch epoch with
  | .error e => (s, .error e)
  | .ok e =>
    if e.maxIndices ≤ idx then
      (s, .error (.invalid s!"idx {idx} not in [0,{e.maxIndices})"))
    else if s.revocations.any fun r => r.epoch == int64 epoch && r.idx == int64 idx then (s, .ok ())
    else
      ({ s with revocations :=
          s.revocations ++ [⟨int64 epoch, int64 idx, timestamptz (t.orNow now)⟩] }, .ok ())

/-- The row loop of `LoadStatusBits`. -/
def loadRow (maxIndices : Nat) (acc : Bytes × Time) (r : RevocationRow) : Bytes × Time :=
  if maxIndices ≤ uint64 r.idx then acc
  else (setBit acc.1 (uint64 r.idx), if r.revokedAt.after acc.2 then r.revokedAt else acc.2)

/-- `LoadStatusBits`; without `ORDER BY` the rows come in the order `scan` gives them. -/
def loadStatusBits (scan : List RevocationRow → List RevocationRow) (s : IssuerStore)
    (epoch : Nat) : Except StoreError (Bytes × Time) := do
  let e ← s.getEpoch epoch
  let bits := List.replicate ((e.maxIndices + 7) / 8) 0
  pure ((scan (s.revocations.filter (·.epoch == int64 epoch))).foldl (loadRow e.maxIndices)
    (bits, Time.zero))

end IssuerStore

/-! ## Tables whose last row is the open epoch -/

theorem updateRows_concat {init : List EpochRow} {last : EpochRow}
    (h : ∀ r ∈ init, r.number ≠ last.number) (f : EpochRow → EpochRow) :
    updateRows (init ++ [last]) last.number f = init ++ [f last] := by
  have hinit : init.map (fun r => if r.number = last.number then f r else r) = init := by
    conv_rhs => rw [← List.map_id init]
    refine List.map_congr_left fun r hr => ?_
    simp [h r hr]
  simp [updateRows, hinit]

/-- A number that no row has is free after an update that keeps the numbers. -/
theorem free_concat {init : List EpochRow} {last last' : EpochRow} {number : Int}
    (h : ∀ r ∈ init ++ [last], r.number ≠ number) (hl : last'.number = last.number) :
    (init ++ [last']).any (·.number == number) = false := by
  rw [List.any_eq_false]
  intro r hr
  rw [beq_iff_eq]
  rcases List.mem_append.mp hr with hr | hr
  · exact h r (List.mem_append_left _ hr)
  · rw [List.mem_singleton.mp hr, hl]
    exact h last (by simp)

/-- The last row is open and has the greatest number. -/
structure Topped (init : List EpochRow) (last : EpochRow) : Prop where
  isOpen : last.closedAt = none
  lt : ∀ r ∈ init, r.number < last.number

namespace Topped

variable {init : List EpochRow} {last : EpochRow}

theorem openRow_eq (h : Topped init last) : openRow (init ++ [last]) = some last := by
  have hlast : [last].filter (·.closedAt.isNone) = [last] := by simp [h.isOpen]
  rw [openRow, List.filter_append, hlast, List.argmax_concat]
  cases hm : List.argmax EpochRow.number (init.filter (·.closedAt.isNone)) with
  | none => rfl
  | some c =>
    have hc : c ∈ init := List.mem_of_mem_filter (List.argmax_mem hm)
    simp [h.lt c hc]

theorem find?_eq (h : Topped init last) :
    (init ++ [last]).find? (fun r => r.number = last.number ∧ r.closedAt = none) = some last := by
  have hnone : init.find? (fun r => r.number = last.number ∧ r.closedAt = none) = none := by
    rw [List.find?_eq_none]
    intro r hr
    have hlt := h.lt r hr
    simp only [decide_eq_true_eq, not_and]
    omega
  rw [List.find?_append, hnone]
  simp [h.isOpen]

theorem updateRows_eq (h : Topped init last) (f : EpochRow → EpochRow) :
    updateRows (init ++ [last]) last.number f = init ++ [f last] :=
  updateRows_concat (fun r hr => (h.lt r hr).ne) f

theorem ne_succ (h : Topped init last) {r : EpochRow} (hr : r ∈ init ++ [last]) :
    r.number ≠ last.number + 1 := by
  rcases List.mem_append.mp hr with hr | hr
  · have := h.lt r hr
    omega
  · rw [List.mem_singleton.mp hr]
    omega

/-- Closing the open epoch and opening one with a greater number. -/
theorem rotate (h : Topped init last) {closed new : EpochRow} (hc : closed.number = last.number)
    (hnew : new.closedAt = none) (hn : last.number < new.number) :
    Topped (init ++ [closed]) new := by
  refine ⟨hnew, fun r hr => ?_⟩
  rcases List.mem_append.mp hr with hr | hr
  · exact (h.lt r hr).trans hn
  · rw [List.mem_singleton.mp hr, hc]
    exact hn

end Topped

/-! ## Transactions that run alone -/

section
variable {now : Time} {s s₁ : Session}

theorem execute_ask (o : Stmt Unit) : Fallible.execute (answer now) (ask o) s =
    (.ok (answer now s o).1, (answer now s o).2) := rfl

theorem execute_close {number : Int} {t : Time} :
    Fallible.execute (answer now) (exec () (.close number t)) s =
      (.ok (), { s with current := (Write.close number t).apply s.current }) := rfl

theorem execute_bump {number nextIdx : Int} {t : Time} :
    Fallible.execute (answer now) (exec () (.bump number nextIdx t)) s =
      (.ok (), { s with current := (Write.bump number nextIdx t).apply s.current }) := rfl

theorem execute_insert {row : EpochRow} (h : s.current.any (·.number == row.number) = false) :
    Fallible.execute (answer now) (exec () (.insert row)) s =
      (.ok (), { s with current := s.current ++ [row] }) := by
  have hans : answer now s (.write () (.insert row)) =
      (.ok (), { s with current := s.current ++ [row] }) := by
    rw [answer, h]
    rfl
  change Prog.execute (answer now) (.call (.write () (.insert row)) fun r => .ret r) s = _
  rw [Prog.execute, hans]
  rfl

theorem execute_selectForUpdate {init : List EpochRow} {last : EpochRow} (h : Topped init last)
    (hs : s.current = init ++ [last]) :
    Fallible.execute (answer now) (selectForUpdate ()) s = (.ok (some last), s) := by
  have hcand : answer now s (.candidate ()) = (some last.number, s) := by
    rw [answer, hs, h.openRow_eq]
    rfl
  have hlock : answer now s (.lockRow () last.number) = (some last, s) := by
    rw [answer, hs, h.find?_eq]
  have hask := @execute_ask now s (.candidate ())
  rw [hcand] at hask
  rw [selectForUpdate, Fallible.execute_bind_ok hask]
  dsimp only
  rw [execute_ask, hlock]

theorem execute_beginFunc {α : Type} {context : String} {body : Tx Unit α} {a : α}
    (h : Fallible.execute (answer now) body s = (.ok a, s₁)) :
    Fallible.execute (answer now) (beginFunc () context body) s =
      (.ok a, ⟨s₁.current, s₁.current⟩) := by
  change Prog.execute (answer now) (body.run >>= _) s = _
  rw [Prog.execute_bind]
  have hb : body.run.execute (answer now) s = (.ok a, s₁) := h
  rw [hb]
  rfl

/-- The body of `RotateEpoch` on a table whose last row is the open epoch. -/
theorem execute_rotateBody {init : List EpochRow} {last : EpochRow} (h : Topped init last)
    (hs : s.current = init ++ [last]) (hpos : 0 < last.number) {next : Int}
    (hnext : int64 (last.number + 1) = next) (hne : ∀ r ∈ init ++ [last], r.number ≠ next)
    (m : Nat) (t : Time) :
    Fallible.execute (answer now) (rotateBody () m t) s =
      (.ok { number := uint64 next, maxIndices := m, nextIdx := 0, openedAt := t
             closedAt := Time.zero, lastIssuedExpiresAt := Time.zero },
        { s with current := init ++ [{ last with closedAt := some (timestamptz t) },
            newEpochRow next m t] }) := by
  have hclose : Fallible.execute (answer now) (exec () (.close last.number t)) s =
      (.ok (), { s with current := init ++ [{ last with closedAt := some (timestamptz t) }] }) := by
    rw [execute_close, hs, Write.apply, h.updateRows_eq]
  have hcurrent : Fallible.execute (answer now) (closeCurrent () t (some last)) s =
      (.ok last.number,
        { s with current := init ++ [{ last with closedAt := some (timestamptz t) }] }) := by
    rw [closeCurrent, Fallible.execute_bind_ok hclose]
    rfl
  have hfree : (init ++ [{ last with closedAt := some (timestamptz t) }]).any
      (·.number == (newEpochRow next m t).number) = false := free_concat hne rfl
  rw [rotateBody, Fallible.execute_bind_ok (execute_selectForUpdate h hs)]
  rw [Fallible.execute_bind_ok hcurrent]
  dsimp only
  rw [if_pos hpos, hnext, Fallible.execute_bind_ok (execute_insert hfree), List.append_assoc]
  rfl

/-- The body of `AllocateIndex` when the open epoch has an index left. -/
theorem execute_allocateBody {init : List EpochRow} {last : EpochRow} (h : Topped init last)
    (hs : s.current = init ++ [last]) (hroom : last.nextIdx < last.maxIndices) (m : Nat)
    (exp : Time) :
    Fallible.execute (answer now) (allocateBody () m exp) s =
      (.ok (uint64 last.number, uint64 last.nextIdx),
        { s with current := init ++ [{ last with
            nextIdx := int64 (last.nextIdx + 1)
            lastIssued := some (timestamptz (laterExpiry last.lastIssued exp)) }] }) := by
  have hroll : Fallible.execute (answer now) (rollExhausted () m last) s =
      (.ok (last.number, last.nextIdx, last.lastIssued), s) := by
    rw [rollExhausted, if_neg (by omega)]
    rfl
  have hbump : Fallible.execute (answer now) (exec () (.bump last.number
      (int64 (last.nextIdx + 1)) (laterExpiry last.lastIssued exp))) s =
      (.ok (), { s with current := init ++ [{ last with
        nextIdx := int64 (last.nextIdx + 1)
        lastIssued := some (timestamptz (laterExpiry last.lastIssued exp)) }] }) := by
    rw [execute_bump, hs, Write.apply, h.updateRows_eq]
  rw [allocateBody, Fallible.execute_bind_ok (execute_selectForUpdate h hs)]
  dsimp only
  rw [Fallible.execute_bind_ok hroll]
  dsimp only
  rw [Fallible.execute_bind_ok hbump]
  rfl

/-- The body of `AllocateIndex` when the open epoch is exhausted. -/
theorem execute_allocateBody_full {init : List EpochRow} {last : EpochRow} (h : Topped init last)
    (hs : s.current = init ++ [last]) (hfull : last.maxIndices ≤ last.nextIdx) {next : Int}
    (hnext : int64 (last.number + 1) = next) (hne : ∀ r ∈ init ++ [last], r.number ≠ next)
    (m : Nat) (exp : Time) :
    Fallible.execute (answer now) (allocateBody () m exp) s =
      (.ok (uint64 next, 0),
        { s with current := init ++ [{ last with closedAt := some (timestamptz now) },
            { newEpochRow next m now with
              nextIdx := 1
              lastIssued := some (timestamptz exp) }] }) := by
  let closed := { last with closedAt := some (timestamptz now) }
  let new := newEpochRow next m now
  have hclose : Fallible.execute (answer now) (exec () (.close last.number now)) s =
      (.ok (), { s with current := init ++ [closed] }) := by
    rw [execute_close, hs, Write.apply, h.updateRows_eq]
  have hfree : (init ++ [closed]).any (·.number == new.number) = false := free_concat hne rfl
  have hnow : Fallible.execute (answer now) (ask .now : Tx Unit Time) s = (.ok now, s) := rfl
  have hroll : Fallible.execute (answer now) (rollExhausted () m last) s =
      (.ok (next, 0, none), { s with current := (init ++ [closed]) ++ [new] }) := by
    rw [rollExhausted, if_pos hfull, Fallible.execute_bind_ok hnow,
      Fallible.execute_bind_ok hclose]
    dsimp only
    rw [hnext, Fallible.execute_bind_ok (execute_insert hfree)]
    rfl
  have hclosed : ∀ r ∈ init ++ [closed], r.number ≠ new.number := by
    simpa only [List.any_eq_false, beq_iff_eq] using hfree
  have hbump : Fallible.execute (answer now) (exec () (.bump next 1 exp))
      { s with current := (init ++ [closed]) ++ [new] } =
      (.ok (), { s with current := (init ++ [closed]) ++ [{ new with
        nextIdx := 1
        lastIssued := some (timestamptz exp) }] }) := by
    rw [execute_bump, Write.apply]
    exact congrArg (fun rows => (Except.ok (), { s with current := rows }))
      (updateRows_concat hclosed
        fun r => { r with nextIdx := 1, lastIssued := some (timestamptz exp) })
  rw [allocateBody, Fallible.execute_bind_ok (execute_selectForUpdate h hs)]
  dsimp only
  rw [Fallible.execute_bind_ok hroll]
  have hone : int64 (0 + 1) = 1 := by decide
  dsimp only [laterExpiry]
  rw [hone, Fallible.execute_bind_ok hbump, List.append_assoc]
  rfl

end

end Shadownet.Postgres
