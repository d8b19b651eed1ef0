import Shadownet.Foundation.Base64
import Shadownet.Foundation.Bitstring
import Shadownet.Go.Http
import Shadownet.Issuer.Store

/-!
# Serving a revocation list

`LoadStatusBits` of the SQLite store, `FromRaw`, `Empty` and `Encode` of
`core/internal/status`, and `Handler.serveStatus`. The gzip writer is a parameter.
-/

namespace Shadownet.Issuer

open Foundation Go

/-- The row loop of `LoadStatusBits`: sets the bit of each row in range and keeps the
latest revocation time. -/
def loadRow (maxIndices : Nat) (acc : Bytes × Time) (r : RevocationRow) : Bytes × Time :=
  if maxIndices ≤ r.idx then acc
  else
    (setBit acc.1 r.idx,
      if (Time.ofUnix r.revokedAt).after acc.2 then Time.ofUnix r.revokedAt else acc.2)

/-- `LoadStatusBits`. -/
def Database.loadStatusBits (db : Database) (epoch : Nat) : Except StoreError (Bytes × Time) := do
  let e ← db.getEpoch epoch
  let epoch ← (sqlUint 1 epoch).mapError (.wrap "sqlitestore: select revocations")
  let bits := List.replicate ((e.maxIndices + 7) / 8) 0
  pure ((db.revocations.filter (·.epoch == epoch)).foldl (loadRow e.maxIndices)
    (bits, Time.zero))

/-- `status.List`. -/
structure StatusBits where
  bits : Bytes
  size : Nat

/-- `status.Empty`. -/
def StatusBits.empty (size : Int) : StatusBits :=
  let size := if size ≤ 0 then 8 else size.toNat
  { bits := List.replicate ((size + 7) / 8) 0, size := (size + 7) / 8 * 8 }

/-- `status.FromRaw`. -/
def StatusBits.fromRaw (bits : Bytes) : StatusBits := { bits, size := bits.length * 8 }

/-- `List.Encode`: gzip, then base64url. -/
def StatusBits.encode (compress : Bytes → Except Bytes Bytes) (l : StatusBits) :
    Except Bytes Bytes := do
  let z ← compress l.bits
  pure (utf8 (base64Url z))

/-- `Handler.serveStatus` for the path value `epochStr`. -/
def serveStatus (compress : Bytes → Except Bytes Bytes) (statusMaxAgeSecs : Int)
    (db : Database) (epochStr : Bytes) : Response :=
  match parseUint epochStr with
  | none => httpError "bad epoch" 400
  | some epoch =>
    match db.loadStatusBits epoch with
    | .error .notFound => httpError "unknown epoch" 404
    | .error _ => httpError "internal error" 500
    | .ok (bits, _) =>
      let list := if 0 < bits.length then StatusBits.fromRaw bits else StatusBits.empty 8
      match list.encode compress with
      | .error _ => httpError "internal error" 500
      | .ok encoded =>
        { status := 200
          headers := [(bytes "Content-Type", bytes "text/plain"),
            (bytes "Cache-Control", bytes "max-age=" ++ itoa statusMaxAgeSecs)]
          body := encoded }

end Shadownet.Issuer
