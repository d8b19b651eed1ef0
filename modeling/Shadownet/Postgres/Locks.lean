import Shadownet.Postgres.Store

/-!
# Concurrent transactions on the epoch table

The database server under READ COMMITTED. A statement sees the committed rows and its own
transaction's writes. A transaction that wrote a row, or read it `FOR UPDATE`, keeps the lock on
it to its end, and the others wait.

`SELECT … FOR UPDATE` picks its row before it has the lock. Once it has the lock it looks at that
row again, and at no other: when the row was closed in the meantime the answer is empty, although
there is an open row.

`Disciplined` is what the transactions of the issuer store keep to, whatever the answers are:
`request_disciplined` says that both calls do.
-/

namespace Shadownet.Postgres

open Foundation Go

/-! ## The server -/

structure Server (ι : Type) where
  committed : List EpochRow
  /-- The uncommitted writes of a transaction. -/
  pending : ι → List Write
  /-- The rows a transaction has locked. -/
  locks : ι → List Int
  /-- The row a `SELECT … FOR UPDATE` has picked and not locked yet. -/
  waiting : ι → Option Int

namespace Server

variable {ι : Type} [DecidableEq ι]

/-- What a statement of the transaction sees. -/
def view (s : Server ι) (i : ι) : List EpochRow := (s.pending i).foldl Write.apply s.committed

/-- No other transaction has locked the row. -/
def Free (s : Server ι) (i : ι) (number : Int) : Prop := ∀ j, j ≠ i → number ∉ s.locks j

def write (s : Server ι) (i : ι) (w : Write) : Server ι :=
  { s with pending := Function.update s.pending i (s.pending i ++ [w]) }

def lock (s : Server ι) (i : ι) (number : Int) : Server ι :=
  { s with locks := Function.update s.locks i (number :: s.locks i) }

/-- An `UPDATE` of the row `number`: waits for its lock, and writes it if it is there. -/
def Update (s : Server ι) (i : ι) (w : Write) (number : Int) (a : Except StoreError Unit)
    (s' : Server ι) : Prop :=
  s.Free i number ∧ a = .ok () ∧
    s' = if (s.view i).any (·.number == number) then (s.write i w).lock i number else s

/-- An `INSERT`: waits while another transaction is inserting the same key. Nobody else sees the
new row, so there is nothing to lock. -/
def Insert (s : Server ι) (i : ι) (row : EpochRow) (a : Except StoreError Unit)
    (s' : Server ι) : Prop :=
  (∀ j, j ≠ i → ∀ row', .insert row' ∈ s.pending j → row'.number ≠ row.number) ∧
    if (s.view i).any (·.number == row.number) then a = .error duplicateKey ∧ s' = s
    else a = .ok () ∧ s' = s.write i (.insert row)

/-- The transaction ends. -/
def finish (s : Server ι) (i : ι) (rows : List EpochRow) : Server ι :=
  { committed := rows
    pending := Function.update s.pending i []
    locks := Function.update s.locks i []
    waiting := Function.update s.waiting i none }

/-- `o` called in `s` may answer `a` and leave `s'`; it waits when there is no such answer. -/
def Handle (s : Server ι) : (o : Stmt ι) → Ans o → Server ι → Prop
  | .now, _, s' => s' = s
  | .candidate i, a, s' =>
    a = (openRow (s.view i)).map EpochRow.number ∧
      s' = { s with waiting := Function.update s.waiting i a }
  | .lockRow i number, a, s' =>
    s.Free i number ∧ a = (s.view i).find? (fun r => r.number = number ∧ r.closedAt = none) ∧
      s' = { s.lock i number with waiting := Function.update s.waiting i none }
  | .write i (.insert row), a, s' => s.Insert i row a s'
  | .write i (.close number t), a, s' => s.Update i (.close number t) number a s'
  | .write i (.bump number nextIdx t), a, s' => s.Update i (.bump number nextIdx t) number a s'
  | .commit i, _, s' => s' = s.finish i (s.view i)
  | .rollback i, _, s' => s' = s.finish i s.committed

end Server

/-! ## The calls -/

/-- One call of one client. -/
inductive Request where
  | allocateIndex (credentialExp : Time)
  | rotateEpoch (maxIndices : Nat) (t : Time)

inductive Outcome where
  | allocated (p : Nat × Nat)
  | rotated (e : Epoch)

/-- The pair a call gave out. -/
def Outcome.pair : Outcome → Option (Nat × Nat)
  | .allocated p => some p
  | .rotated _ => none

/-- The argument is a `uint64`, and the expiry is there. -/
def Request.Valid : Request → Prop
  | .allocateIndex exp => exp.isZero = false
  | .rotateEpoch m _ => m < 18446744073709551616

/-- A request as the transaction `i`, on a store with the ceiling `m`. -/
def request {ι : Type} (m : Nat) (i : ι) :
    Request → Prog (Stmt ι) Ans (Except StoreError Outcome)
  | .allocateIndex exp => (allocateIndex i m exp).run >>= fun r => .ret (r.map .allocated)
  | .rotateEpoch arg t => (rotateEpoch i m arg t).run >>= fun r => .ret (r.map .rotated)

/-! ## What a transaction may do -/

/-- How far a transaction is. `locked row writes` has the open row, which was `row` when it was
locked, and has done `writes`; `lost` found its row closed. -/
inductive Local where
  | idle
  | waiting (number : Int)
  | locked (row : EpochRow) (writes : List Write)
  | done (pair : Option (Nat × Nat))
  | lost
  | failed

/-- Numbers as `BIGINT` columns hold them, and an epoch that is not overrun. -/
structure Sane (r : EpochRow) : Prop where
  number_pos : 0 < r.number
  number_lt : r.number < 9223372036854775808
  next_nonneg : 0 ≤ r.nextIdx
  next_le : r.nextIdx ≤ uint64 r.maxIndices
  max_lt : r.maxIndices < 9223372036854775808

/-- A ceiling of a new epoch. -/
def Ceiling (m : Nat) : Prop := 0 < m ∧ m < 18446744073709551616

/-- The next write of a transaction that has locked the open row: it takes an index, or closes
the epoch, opens the next one and may take the first index of that. -/
inductive Step (row : EpochRow) : List Write → Write → Prop
  | close (t : Time) : Step row [] (.close row.number t)
  | insert (t t' : Time) {m : Nat} (hm : Ceiling m) :
      Step row [.close row.number t] (.insert (newEpochRow (int64 (row.number + 1)) m t'))
  | take (hroom : row.nextIdx < row.maxIndices) (exp : Time) :
      Step row [] (.bump row.number (int64 (row.nextIdx + 1)) exp)
  | first (t t' : Time) {m : Nat} (hm : Ceiling m) (exp : Time) :
      Step row [.close row.number t, .insert (newEpochRow (int64 (row.number + 1)) m t')]
        (.bump (int64 (row.number + 1)) 1 exp)

/-- The writes a transaction may commit, with the pair it then returns. -/
inductive Commits (row : EpochRow) : List Write → Option (Nat × Nat) → Prop
  | take (hroom : row.nextIdx < row.maxIndices) (exp : Time) :
      Commits row [.bump row.number (int64 (row.nextIdx + 1)) exp]
        (some (uint64 row.number, uint64 row.nextIdx))
  | rotate (t t' : Time) {m : Nat} (hm : Ceiling m) :
      Commits row [.close row.number t, .insert (newEpochRow (int64 (row.number + 1)) m t')] none
  | roll (t t' : Time) {m : Nat} (hm : Ceiling m) (exp : Time) :
      Commits row [.close row.number t, .insert (newEpochRow (int64 (row.number + 1)) m t'),
        .bump (int64 (row.number + 1)) 1 exp] (some (uint64 (int64 (row.number + 1)), 0))

/-- What is left of a transaction keeps to the plan. A transaction that lost its row ends in an
error; before, it may try to open epoch 1 again. -/
inductive Disciplined {ι : Type} (i : ι) :
    Local → Prog (Stmt ι) Ans (Except StoreError Outcome) → Prop
  | now {l : Local} {k : Time → Prog (Stmt ι) Ans (Except StoreError Outcome)}
      (h : ∀ t, Disciplined i l (k t)) : Disciplined i l (.call .now k)
  | candidate {k : Option Int → Prog (Stmt ι) Ans (Except StoreError Outcome)}
      (h : ∀ n, Disciplined i (.waiting n) (k (some n))) :
      Disciplined i .idle (.call (.candidate i) k)
  | lockRow {n : Int} {k : Option EpochRow → Prog (Stmt ι) Ans (Except StoreError Outcome)}
      (hlost : Disciplined i .lost (k none))
      (h : ∀ row, Sane row → Disciplined i (.locked row []) (k (some row))) :
      Disciplined i (.waiting n) (.call (.lockRow i n) k)
  | write {row : EpochRow} {writes : List Write} {w : Write}
      {k : Except StoreError Unit → Prog (Stmt ι) Ans (Except StoreError Outcome)}
      (hw : Step row writes w) (h : Disciplined i (.locked row (writes ++ [w])) (k (.ok ()))) :
      Disciplined i (.locked row writes) (.call (.write i w) k)
  | commit {row : EpochRow} {writes : List Write} (out : Outcome)
      {k : Unit → Prog (Stmt ι) Ans (Except StoreError Outcome)}
      (hc : Commits row writes out.pair) (h : k () = .ret (.ok out)) :
      Disciplined i (.locked row writes) (.call (.commit i) k)
  | insertFirst {row : EpochRow}
      {k : Except StoreError Unit → Prog (Stmt ι) Ans (Except StoreError Outcome)}
      (hrow : row.number = 1) (h : Disciplined i .lost (k (.error duplicateKey))) :
      Disciplined i .lost (.call (.write i (.insert row)) k)
  | rollback {e : StoreError} {k : Unit → Prog (Stmt ι) Ans (Except StoreError Outcome)}
      (h : k () = .ret (.error e)) : Disciplined i .lost (.call (.rollback i) k)
  | done (out : Outcome) : Disciplined i (.done out.pair) (.ret (.ok out))
  | failed (e : StoreError) : Disciplined i .failed (.ret (.error e))

section
variable {ι : Type} {i : ι} {m : Nat}

theorem allocateIndex_disciplined (hm : Ceiling m) {exp : Time} (hexp : exp.isZero = false) :
    Disciplined i .idle (request m i (.allocateIndex exp)) := by
  rw [request, allocateIndex_eq hexp]
  refine .candidate fun n => .lockRow (.rollback rfl) fun row hrow => ?_
  change Disciplined i (.locked row []) ((beginFunc i "pgstore: allocate index" (do
    let next ← rollExhausted i m row
    exec i (.bump next.1 (int64 (next.2.1 + 1)) (laterExpiry next.2.2 exp))
    pure (uint64 next.1, uint64 next.2.1))).run >>= fun r => .ret (r.map .allocated))
  by_cases hfull : row.maxIndices ≤ row.nextIdx
  · rw [rollExhausted, if_pos hfull]
    refine .now fun t => .write (.close t) (.write (.insert t t hm) ?_)
    exact .write (.first t t hm exp)
      (.commit (.allocated (uint64 (int64 (row.number + 1)), 0)) (.roll t t hm exp) rfl)
  · rw [rollExhausted, if_neg hfull]
    have hroom : row.nextIdx < row.maxIndices := Int.lt_of_not_ge hfull
    exact .write (.take hroom _)
      (.commit (.allocated (uint64 row.number, uint64 row.nextIdx)) (.take hroom _) rfl)

theorem rotateEpoch_disciplined (hm : Ceiling m) {arg : Nat}
    (harg : arg < 18446744073709551616) (t : Time) :
    Disciplined i .idle (request m i (.rotateEpoch arg t)) := by
  have hceil : Ceiling (if arg = 0 then m else arg) := by
    split
    · exact hm
    · exact ⟨by omega, harg⟩
  -- the transaction, once its time is known
  have hbody : ∀ t, Disciplined i .idle ((beginFunc i "pgstore: rotate epoch"
      (rotateBody i (if arg = 0 then m else arg) t)).run >>= fun r => .ret (r.map .rotated)) := by
    intro t
    refine .candidate fun n => .lockRow ?_ fun row hrow => ?_
    · exact .insertFirst rfl (.rollback rfl)
    · refine .write (.close t) ?_
      change Disciplined i (.locked row [.close row.number t]) ((beginFunc i
        "pgstore: rotate epoch" (do
          let next := if 0 < row.number then int64 (row.number + 1) else 1
          exec i (.insert (newEpochRow next (if arg = 0 then m else arg) t))
          pure { number := uint64 next, maxIndices := if arg = 0 then m else arg, nextIdx := 0
                 openedAt := t, closedAt := Time.zero
                 lastIssuedExpiresAt := Time.zero })).run >>= fun r => .ret (r.map .rotated))
      rw [if_pos hrow.number_pos]
      exact .write (.insert t t hceil) (.commit (.rotated _) (.rotate t t hceil) rfl)
  by_cases ht : t.isZero = true
  · rw [request, rotateEpoch, if_pos ht]
    exact .now hbody
  · rw [request, rotateEpoch_eq (by simpa using ht)]
    exact hbody t

/-- Both calls keep to the plan. -/
theorem request_disciplined (hm : Ceiling m) {q : Request} (hq : q.Valid) :
    Disciplined i .idle (request m i q) := by
  cases q with
  | allocateIndex exp => exact allocateIndex_disciplined hm hq
  | rotateEpoch arg t => exact rotateEpoch_disciplined hm hq t

end

end Shadownet.Postgres
