import Shadownet.Foundation.Fallible
import Shadownet.Issuer.Handler

/-!
# The queue hook

`core/internal/issuer/hooks/queue` over the table `issuer_pendings`: the hook parks every new
request as a `Pending`, and answers a repeated request with the state of its `Pending`. The
issuer with this hook is `serveIssue` with the program of the hook in place of each call of
`Hook.Evaluate` (`serveQueued`).
-/

namespace Shadownet.Issuer

open Foundation Go

/-! ## The table -/

inductive PendingStatus where
  | new
  | approved
  | rejected
  | other (n : Int)
  deriving DecidableEq, Repr

/-- `issuer.Pending`; also a row of `issuer_pendings`, with its times in whole seconds. -/
structure Pending where
  handleID : Bytes
  idempotencyKey : Bytes
  iss : Bytes
  aud : Bytes
  kind : Bytes
  org : Bytes
  subjectPubKey : Bytes
  status : PendingStatus
  nextURL : Bytes
  reason : Bytes
  createdAt : Time
  updatedAt : Time
  ceremonyExpiry : Time
  deriving DecidableEq

/-- The row `PutPending` writes, as `scanPending` reads it. -/
def Pending.row (p : Pending) (now : Time) : Pending :=
  { p with
    createdAt := Time.ofUnix (p.createdAt.orNow now).unix
    updatedAt := Time.ofUnix (p.updatedAt.orNow now).unix
    ceremonyExpiry := Time.ofUnix p.ceremonyExpiry.unix }

/-- `PutPending`: an upsert on `handle_id`, refused when the idempotency key is taken. -/
def putPending (rows : List Pending) (p : Pending) (now : Time) :
    Except StoreError (List Pending) :=
  let row := p.row now
  if rows.any (·.handleID == row.handleID) then
    pure (rows.map fun r =>
      if r.handleID = row.handleID then
        { r with status := row.status, nextURL := row.nextURL, reason := row.reason
                 updatedAt := row.updatedAt }
      else r)
  else if rows.any (·.idempotencyKey == row.idempotencyKey) then
    throw (.failure ("sqlitestore: upsert pending: UNIQUE constraint failed: " ++
      "issuer_pendings.idempotency_key"))
  else pure (rows ++ [row])

/-- `GetPendingByIdempotencyKey`. -/
def getPendingByIdempotencyKey (rows : List Pending) (key : Bytes) : Except StoreError Pending :=
  match rows.find? (·.idempotencyKey == key) with
  | some p => pure p
  | none => throw .notFound

/-- `UpdatePendingStatus`. -/
def updatePendingStatus (rows : List Pending) (handleID : Bytes) (status : PendingStatus)
    (reason : Bytes) (t now : Time) : Except StoreError (List Pending) :=
  if rows.any (·.handleID == handleID) then
    pure (rows.map fun r =>
      if r.handleID = handleID then
        { r with status, reason, updatedAt := Time.ofUnix (t.orNow now).unix }
      else r)
  else throw .notFound

/-! ## The calls -/

inductive QueueOp where
  | issue (o : IssueOp)
  | getPendingByIdempotencyKey (key : Bytes)
  | newHandleID
  | hookNow
  | putPending (p : Pending)

@[reducible] def QueueAns : QueueOp → Type
  | .issue o => IssueAns o
  | .getPendingByIdempotencyKey _ => Except StoreError Pending
  | .newHandleID => GoM Bytes
  | .hookNow => Time
  | .putPending _ => Except StoreError Unit

abbrev QueueProg (α : Type) := Prog QueueOp QueueAns α

/-! ## The hook -/

/-- `queue.Hook`, with the part of its `Config` that is not code. -/
structure Hook where
  nextURL : Bytes

/-- `queue.New` on a store. -/
def newHook (nextURL : Bytes) : GoM Hook :=
  if nextURL = [] then throw (bytes "queue: NextURL required") else pure ⟨nextURL⟩

/-- The text of a store's error. -/
def StoreError.text : StoreError → Bytes
  | .notFound => bytes "issuer: not found"
  | .invalid detail => bytes "issuer: invalid: " ++ bytes detail
  | .failure detail => bytes detail

/-- `Hook.decisionForPending`. -/
def decisionForPending (p : Pending) : Decision :=
  match p.status with
  | .approved => { outcome := .approve, reason := [], nextURL := [] }
  | .rejected => { outcome := .reject, reason := p.reason, nextURL := [] }
  | _ => { outcome := .pending, reason := [], nextURL := p.nextURL }

namespace Hook

/-- The `Pending` that `Evaluate` parks. -/
def pending (h : Hook) (view : CsrView) (idem pubMB handle : Bytes) (now : Time) : Pending :=
  { handleID := handle, idempotencyKey := idem, iss := view.iss, aud := view.aud
    kind := view.kind, org := view.org, subjectPubKey := pubMB, status := .new
    nextURL := h.nextURL, reason := [], createdAt := now, updatedAt := now
    ceremonyExpiry := view.expiry }

/-- `Evaluate` on the answer of `PutPending`. -/
def afterPark (h : Hook) : Except StoreError Unit → GoM Decision
  | .ok _ => pure { outcome := .pending, reason := [], nextURL := h.nextURL }
  | .error e => throw (bytes "queue: park pending: " ++ e.text)

/-- `Evaluate` with the subject's encoded key, on the answer of `newHandleID`. -/
def afterHandle (h : Hook) (view : CsrView) (idem pubMB : Bytes) :
    GoM Bytes → QueueProg (GoM Decision)
  | .error e => pure (throw (bytes "queue: new handle: " ++ e))
  | .ok handle =>
    .call .hookNow fun now =>
      .call (.putPending (h.pending view idem pubMB handle now)) fun stored =>
        pure (h.afterPark stored)

/-- `Evaluate` on the answer of the lookup. -/
def afterLookup (h : Hook) (view : CsrView) (subjectPub idem : Bytes) :
    Except StoreError Pending → QueueProg (GoM Decision)
  | .ok existing => pure (pure (decisionForPending existing))
  | .error .notFound =>
    match encodePubKey subjectPub with
    | .error e => pure (throw (bytes "queue: encode subject pub: " ++ e))
    | .ok pubMB => .call .newHandleID (h.afterHandle view idem pubMB)
  | .error e => pure (throw (bytes "queue: lookup: " ++ e.text))

/-- `Hook.Evaluate`. -/
def evaluate (h : Hook) (G : Runtime) (view : CsrView) (subjectPub : Bytes) :
    QueueProg (GoM Decision) :=
  match idempotencyKey G view.iss view.aud ⟨view.kind, view.org⟩ with
  | .error e => pure (throw (bytes "queue: idempotency key: " ++ e))
  | .ok idem => .call (.getPendingByIdempotencyKey idem) (h.afterLookup view subjectPub idem)

/-- The calls of the handler: the hook's are programs, the others stay calls. -/
def answers (h : Hook) (G : Runtime) : (o : IssueOp) → QueueProg (IssueAns o)
  | .evaluate view subjectPub => h.evaluate G view subjectPub
  | .now => .call (.issue .now) .ret
  | .authorize iss org => .call (.issue (.authorize iss org)) .ret
  | .getByIdempotencyKey key => .call (.issue (.getByIdempotencyKey key)) .ret
  | .allocateIndex exp => .call (.issue (.allocateIndex exp)) .ret
  | .putCredential c => .call (.issue (.putCredential c)) .ret

end Hook

/-- `Handler.serveIssue` of an issuer with the queue hook. -/
def serveQueued (G : Runtime) (V : Verifier) (cfg : HandlerConfig) (h : Hook)
    (body : Option Bytes) : QueueProg Response :=
  (serveIssue G V cfg body).interp (h.answers G)

end Shadownet.Issuer
