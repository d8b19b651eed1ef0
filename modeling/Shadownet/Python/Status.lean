import Shadownet.Python.Stdlib

/-!
# Reading a revocation list

`StatusList` and `decode_status_list` of `shadownet/status.py`. `gzip.decompress` is a
parameter.
-/

namespace Shadownet.Python

open Foundation

structure StatusList where
  bits : Bytes
  size : Int
  deriving DecidableEq

def statusListError (msg : Text) : Exc := ⟨.statusListError, msg⟩

/-- `StatusList.is_revoked`. -/
def StatusList.isRevoked (l : StatusList) (idx : Int) : Py Bool :=
  if idx < 0 ∨ l.size ≤ idx then
    throw (statusListError (text "status index " ++ decimal idx ++
      text " out of range (size " ++ decimal l.size ++ text ")"))
  else
    match l.bits[idx.toNat / 8]? with
    | some byte => pure ((byte.toNat >>> (7 - idx.toNat % 8)) &&& 1 == 1)
    | none => throw ⟨.other, text "index out of range"⟩

/-- `decode_status_list`. -/
def decodeStatusList (decompress : Bytes → Py Bytes) (body : Text) : Py StatusList :=
  let cleaned := strip body
  if cleaned = [] then throw (statusListError (text "empty status list body"))
  else do
    let compressed ← reraise [.valueError, .binasciiError]
      (fun exc => statusListError (text "status list base64url decode failed: " ++ exc.msg))
      (urlsafeB64decode (cleaned ++ padding cleaned))
    let raw ← reraise [.osError]
      (fun exc => statusListError (text "status list gunzip failed: " ++ exc.msg))
      (decompress compressed)
    if raw = [] then throw (statusListError (text "status list bitstring is empty"))
    else pure ⟨raw, raw.length * 8⟩

end Shadownet.Python
