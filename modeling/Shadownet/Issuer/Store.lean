import Mathlib.Data.List.MinMax
import Shadownet.Foundation.Outcome
import Shadownet.Foundation.Trace
import Shadownet.Go.Basic

/-!
# The SQLite issuer store

The tables of `core/internal/issuer/sqlitestore` as lists of rows, and the store calls as
functions of the database. A transaction computes the new database or an error; an error
rolls back, so the database is unchanged (`commit`).

Numbers are the `uint64` values of the Go code. `database/sql` refuses a `uint64` with the
high bit set, so a statement with such an argument fails (`sqlUint`). Clock readings are
arguments.
-/

namespace Shadownet.Issuer

open Foundation Go

/-- `2^63`, the first value an SQLite `INTEGER` column cannot hold. -/
def sqlLimit : Nat := 9223372036854775808

/-- The error kinds callers tell apart with `errors.Is`, each with its text. -/
inductive StoreError where
  | notFound
  | invalid (detail : String)
  | failure (detail : String)
  deriving DecidableEq, Repr

/-- A row of `issuer_epochs`. -/
structure EpochRow where
  number : Nat
  maxIndices : Nat
  nextIdx : Nat
  openedAt : Int
  closedAt : Int
  lastIssued : Int
  deriving DecidableEq, Repr

/-- A row of `issuer_revocations`. -/
structure RevocationRow where
  epoch : Nat
  idx : Nat
  revokedAt : Int
  deriving DecidableEq, Repr

/-- A row of `issuer_credentials`; also the Go `issuer.Credential` with its two times as
the second counts the table keeps. -/
structure CredentialRow where
  idempotencyKey : Bytes
  jws : Bytes
  iss : Bytes
  sub : Bytes
  org : Bytes
  epoch : Nat
  idx : Nat
  issuedAt : Int
  expiresAt : Int
  deriving DecidableEq, Repr

structure Database where
  epochs : List EpochRow
  revocations : List RevocationRow
  credentials : List CredentialRow
  deriving DecidableEq

/-- `sqlitestore.Store`: the database and the ceiling new epochs are opened with. -/
structure Store where
  db : Database
  maxIndices : Nat
  deriving DecidableEq

/-- `issuer.Epoch`. -/
structure Epoch where
  number : Nat
  maxIndices : Nat
  nextIdx : Nat
  openedAt : Time
  closedAt : Time
  lastIssuedExpiresAt : Time

/-- `DefaultMaxIndices`. -/
def defaultMaxIndices : Nat := 131072

/-- The `fmt.Errorf` wrapping around an error of the database. -/
def StoreError.wrap (context : String) : StoreError → StoreError
  | .failure detail => .failure (context ++ ": " ++ detail)
  | e => e

/-- The `uint64` argument at position `arg` of a statement. -/
def sqlUint (arg n : Nat) : Except StoreError Nat :=
  if sqlLimit ≤ n then
    throw (.failure (s!"sql: converting argument ${arg} type: uint64 values with high bit " ++
      "set are not supported"))
  else pure n

/-- A second count read from a column; zero stands for the zero time. -/
def scanTime (sec : Int) : Time := if sec = 0 then Time.zero else Time.ofUnix sec

/-- `scanEpoch`, also the scan of `currentEpochInTx`. -/
def scanEpoch (r : EpochRow) : Epoch :=
  { number := r.number, maxIndices := r.maxIndices, nextIdx := r.nextIdx
    openedAt := Time.ofUnix r.openedAt
    closedAt := scanTime r.closedAt
    lastIssuedExpiresAt := scanTime r.lastIssued }

namespace Database

/-- `INSERT INTO issuer_epochs`; refused when the primary key is taken. -/
def addEpoch (db : Database) (r : EpochRow) : Except StoreError Database :=
  if db.epochs.any (·.number == r.number) then
    throw (.failure "UNIQUE constraint failed: issuer_epochs.number")
  else pure { db with epochs := db.epochs ++ [r] }

/-- The insert of `AllocateIndex` and `RotateEpoch`: number and ceiling are arguments 1 and 2. -/
def insertEpoch (db : Database) (r : EpochRow) : Except StoreError Database := do
  let number ← sqlUint 1 r.number
  let maxIndices ← sqlUint 2 r.maxIndices
  db.addEpoch { r with number, maxIndices }

/-- `UPDATE issuer_epochs SET … WHERE number = ?`. -/
def updateEpoch (db : Database) (number : Nat) (f : EpochRow → EpochRow) : Database :=
  { db with epochs := db.epochs.map fun r => if r.number = number then f r else r }

/-- `SELECT … WHERE closed_at_unix = 0 ORDER BY number DESC LIMIT 1`. -/
def currentRow (db : Database) : Option EpochRow :=
  (db.epochs.filter (·.closedAt == 0)).argmax EpochRow.number

/-- `currentEpochInTx`, also `CurrentEpoch`. -/
def currentEpochInTx (db : Database) : Except StoreError Epoch :=
  match db.currentRow with
  | some r => .ok (scanEpoch r)
  | none => .error .notFound

/-- `GetEpoch`. -/
def getEpoch (db : Database) (n : Nat) : Except StoreError Epoch := do
  let n ← (sqlUint 1 n).mapError (.wrap "sqlitestore: scan epoch")
  match db.epochs.find? (·.number == n) with
  | some r => pure (scanEpoch r)
  | none => throw .notFound

/-- A new epoch as it is inserted, and as the Go code holds it. -/
def newEpochRow (number maxIndices : Nat) (t : Time) : EpochRow :=
  { number, maxIndices, nextIdx := 0, openedAt := t.unix, closedAt := 0, lastIssued := 0 }

def newEpoch (number maxIndices : Nat) (t : Time) : Epoch :=
  { number, maxIndices, nextIdx := 0, openedAt := t, closedAt := Time.zero
    lastIssuedExpiresAt := Time.zero }

/-- The first part of `AllocateIndex`: an exhausted epoch is closed and replaced inline. -/
def rollExhausted (db : Database) (maxIndices : Nat) (current : Epoch) (now : Time) :
    Except StoreError (Database × Epoch) :=
  if current.maxIndices ≤ current.nextIdx then do
    let db := db.updateEpoch current.number fun r => { r with closedAt := now.unix }
    let db ← (db.insertEpoch (newEpochRow (current.number + 1) maxIndices now)).mapError
      (.wrap "sqlitestore: open replacement epoch")
    pure (db, newEpoch (current.number + 1) maxIndices now)
  else pure (db, current)

/-- The transaction of `AllocateIndex`. -/
def allocateTx (db : Database) (maxIndices : Nat) (credentialExp now : Time) :
    Except StoreError (Database × (Nat × Nat)) :=
  if credentialExp.isZero then throw (.invalid "credentialExp required")
  else do
    let current ← db.currentEpochInTx
    let (db, current) ← db.rollExhausted maxIndices current now
    let idx := current.nextIdx
    let newLastExp :=
      if credentialExp.after current.lastIssuedExpiresAt then credentialExp
      else current.lastIssuedExpiresAt
    let newNext ← (sqlUint 1 (idx + 1)).mapError (.wrap "sqlitestore: bump next_idx")
    let db := db.updateEpoch current.number fun r =>
      { r with nextIdx := newNext, lastIssued := newLastExp.unix }
    pure (db, (current.number, idx))

/-- The transaction of `RotateEpoch`. -/
def rotateTx (db : Database) (maxIndices : Nat) (t : Time) :
    Except StoreError (Database × Epoch) :=
  match db.currentEpochInTx with
  | .ok current => do
    let db := db.updateEpoch current.number fun r => { r with closedAt := t.unix }
    let db ← (db.insertEpoch (newEpochRow (current.number + 1) maxIndices t)).mapError
      (.wrap "sqlitestore: open new epoch")
    pure (db, newEpoch (current.number + 1) maxIndices t)
  | .error .notFound => do
    let db ← (db.insertEpoch (newEpochRow 1 maxIndices t)).mapError
      (.wrap "sqlitestore: open new epoch")
    pure (db, newEpoch 1 maxIndices t)
  | .error e => throw e

/-- `ensureCurrentEpoch`. Its insert has the number 1 in the text of the statement, and the
ceiling as argument 1. -/
def ensureCurrentEpoch (db : Database) (maxIndices : Nat) (now : Time) :
    Except StoreError Database :=
  if 0 < (db.epochs.filter (·.closedAt == 0)).length then pure db
  else do
    let maxIndices ← sqlUint 1 maxIndices
    db.addEpoch (newEpochRow 1 maxIndices now)

/-- `INSERT OR IGNORE INTO issuer_revocations`. -/
def insertRevocation (db : Database) (epoch idx : Nat) (t : Time) :
    Except StoreError Database := do
  let epoch ← sqlUint 1 epoch
  let idx ← sqlUint 2 idx
  if db.revocations.any fun r => r.epoch == epoch && r.idx == idx then pure db
  else pure { db with revocations := db.revocations ++ [⟨epoch, idx, t.unix⟩] }

/-- The two statements of `SetRevoked`. -/
def setRevokedTx (db : Database) (epoch idx : Nat) (t : Time) :
    Except StoreError Database := do
  let e ← db.getEpoch epoch
  if e.maxIndices ≤ idx then
    throw (.invalid s!"idx {idx} not in [0,{e.maxIndices})")
  else
    (db.insertRevocation epoch idx t).mapError (.wrap "sqlitestore: insert revocation")

/-- `PutCredential`, refused when the idempotency key is taken. -/
def putCredential (db : Database) (c : CredentialRow) : Except StoreError Database := do
  let epoch ← (sqlUint 6 c.epoch).mapError (.wrap "sqlitestore: insert credential")
  let idx ← (sqlUint 7 c.idx).mapError (.wrap "sqlitestore: insert credential")
  if db.credentials.any (·.idempotencyKey == c.idempotencyKey) then
    throw (.failure ("sqlitestore: insert credential: UNIQUE constraint failed: " ++
      "issuer_credentials.idempotency_key"))
  else pure { db with credentials := db.credentials ++ [{ c with epoch, idx }] }

/-- `GetByIdempotencyKey`. -/
def getByIdempotencyKey (db : Database) (key : Bytes) : Except StoreError CredentialRow :=
  match db.credentials.find? (·.idempotencyKey == key) with
  | some c => pure c
  | none => throw .notFound

end Database

/-- A committed transaction replaces the database; a failed one is rolled back. -/
def Store.commit {α : Type} (s : Store) :
    Except StoreError (Database × α) → Store × Except StoreError α
  | .ok (db, a) => ({ s with db }, .ok a)
  | .error e => (s, .error e)

namespace Store

/-- `Open` on an existing database file, or on a new one (`db` without rows). -/
def openStore (db : Database) (maxIndices : Nat) (now : Time) : Except StoreError Store := do
  let maxIndices := if maxIndices = 0 then defaultMaxIndices else maxIndices
  let db ← (db.ensureCurrentEpoch maxIndices now).mapError
    (.wrap "sqlitestore: bootstrap epoch")
  pure { db, maxIndices }

/-- `AllocateIndex`. -/
def allocateIndex (s : Store) (credentialExp now : Time) :
    Store × Except StoreError (Nat × Nat) :=
  s.commit (s.db.allocateTx s.maxIndices credentialExp now)

/-- `RotateEpoch`. -/
def rotateEpoch (s : Store) (maxIndices : Nat) (t now : Time) :
    Store × Except StoreError Epoch :=
  s.commit (s.db.rotateTx (if maxIndices = 0 then s.maxIndices else maxIndices)
    (t.orNow now))

/-- `PutCredential`. -/
def putCredential (s : Store) (c : CredentialRow) : Store × Except StoreError Unit :=
  s.commit ((s.db.putCredential c).map (·, ()))

/-- `SetRevoked`. -/
def setRevoked (s : Store) (epoch idx : Nat) (t now : Time) : Store × Except StoreError Unit :=
  s.commit ((s.db.setRevokedTx epoch idx (t.orNow now)).map (·, ()))

end Store

/-! ## Runs -/

/-- The calls of a run. `reopen` is `Close` followed by `Open` of the same database. -/
inductive Call where
  | allocateIndex (credentialExp now : Time)
  | rotateEpoch (maxIndices : Nat) (t now : Time)
  | setRevoked (epoch idx : Nat) (t now : Time)
  | reopen (maxIndices : Nat) (now : Time)
  deriving DecidableEq

/-- What a call returns. -/
inductive Answer where
  | allocated (epoch idx : Nat)
  | done
  | failed (e : StoreError)
  deriving DecidableEq, Repr

/-- The answer of a call from its result. -/
def Answer.of {α : Type} (f : α → Answer) : Except StoreError α → Answer
  | .ok a => f a
  | .error e => .failed e

/-- One call. A failed `Open` leaves the process without a store; the database is the one
that was closed, and the next `reopen` finds it so. -/
def Store.step (s : Store) : Call → Store × Answer
  | .allocateIndex exp now =>
    ((s.allocateIndex exp now).1,
      Answer.of (fun p => .allocated p.1 p.2) (s.allocateIndex exp now).2)
  | .rotateEpoch m t now =>
    ((s.rotateEpoch m t now).1, Answer.of (fun _ => .done) (s.rotateEpoch m t now).2)
  | .setRevoked e i t now =>
    ((s.setRevoked e i t now).1, Answer.of (fun _ => .done) (s.setRevoked e i t now).2)
  | .reopen m now =>
    match Store.openStore s.db m now with
    | .ok s' => (s', .done)
    | .error e => (s, .failed e)

/-- A database file without rows. -/
def Database.empty : Database := ⟨[], [], []⟩

end Shadownet.Issuer
