import Shadownet.Python.Credential
import Shadownet.Python.Status

/-!
# Fetching a revocation list

`build_status_list_url`, `fetch_status_list`, `_interpret_status_response` and
`check_revocation` of `shadownet/status.py`, with the functions they use by default, and the
asynchronous siblings.
-/

namespace Shadownet.Python

open Foundation

/-- `MAX_STATUS_BODY_BYTES`. -/
def maxStatusBodyBytes : Nat := 8 * 1024 * 1024

/-- What is read of an `httpx.Response`; `body` is its `text`. -/
structure StatusResponse where
  statusCode : Nat
  body : Text
  cacheControl : Option Text

/-- What fetching calls: `client.get`, `gzip.decompress` and `int` of a text, where `none` is a
`ValueError`. -/
structure StatusClient where
  get : Text → Py StatusResponse
  decompress : Bytes → Py Bytes
  int : Text → Option Int

/-- `build_status_list_url`. -/
def buildStatusListUrl (issuerDomain epoch : Text) : Py Text :=
  if issuerDomain = [] ∨ epoch = [] then
    throw (statusListError (text "issuer_domain and epoch are both required"))
  else pure (text "https://" ++ issuerDomain ++ text "/.well-known/shadownet/status/" ++ epoch)

/-- The loop of `_parse_max_age`. -/
def maxAgeIn (G : Runtime) (int : Text → Option Int) : List Text → Option Int
  | [] => none
  | part :: parts =>
    let token := G.lower (strip part)
    if (text "max-age=").isPrefixOf token then int (token.drop 8)
    else maxAgeIn G int parts

/-- `_parse_max_age`. -/
def parseMaxAge (G : Runtime) (int : Text → Option Int) : Option Text → Option Int
  | none => none
  | some cacheControl =>
    if cacheControl = [] then none else maxAgeIn G int (cacheControl.splitOn 44)

/-- `len(body.encode("ascii", errors="ignore"))`. -/
def asciiLength (body : Text) : Nat := body.countP fun c => decide c.IsAscii

/-- `_interpret_status_response`. -/
def interpretStatusResponse (G : Runtime) (C : StatusClient) (response : StatusResponse)
    (url : Text) : Py (StatusList × Option Int) :=
  if response.statusCode ≠ 200 then
    throw (statusListError (text "status list " ++ G.reprStr url ++ text " returned HTTP " ++
      decimal response.statusCode))
  else if maxStatusBodyBytes < asciiLength response.body then
    throw (statusListError (text "status list " ++ G.reprStr url ++ text " exceeds size cap"))
  else do
    let statusList ← decodeStatusList C.decompress response.body
    pure (statusList, parseMaxAge G C.int response.cacheControl)

/-- `fetch_status_list`. -/
def fetchStatusList (G : Runtime) (C : StatusClient) (issuerDomain epoch : Text) :
    Py (StatusList × Option Int) := do
  let url ← buildStatusListUrl issuerDomain epoch
  let response ← reraise [.httpError]
    (fun exc => statusListError (text "status list fetch failed for " ++ G.reprStr url ++
      text ": " ++ exc.msg))
    (C.get url)
  interpretStatusResponse G C response url

/-- `_raise_if_revoked`. -/
def raiseIfRevoked (G : Runtime) (credential : VerifiedCredential) (statusList : StatusList) :
    Py Unit := do
  let revoked ← statusList.isRevoked credential.payload.rev.idx
  if revoked then
    throw (statusListError (text "credential revoked at epoch=" ++
      G.reprStr credential.payload.rev.epoch ++ text " idx=" ++
      decimal credential.payload.rev.idx))
  else pure ()

/-- `check_revocation` with the default fetcher. -/
def checkRevocation (G : Runtime) (C : StatusClient) (credential : VerifiedCredential) :
    Py Unit := do
  let (statusList, _) ← fetchStatusList G C credential.payload.iss credential.payload.rev.epoch
  raiseIfRevoked G credential statusList

/-- `afetch_status_list`, with `await` before the request. -/
def afetchStatusList (G : Runtime) (C : StatusClient) (issuerDomain epoch : Text) :
    Py (StatusList × Option Int) := do
  let url ← buildStatusListUrl issuerDomain epoch
  let response ← reraise [.httpError]
    (fun exc => statusListError (text "status list fetch failed for " ++ G.reprStr url ++
      text ": " ++ exc.msg))
    (C.get url)
  interpretStatusResponse G C response url

/-- `acheck_revocation` with the default fetcher. -/
def acheckRevocation (G : Runtime) (C : StatusClient) (credential : VerifiedCredential) :
    Py Unit := do
  let (statusList, _) ← afetchStatusList G C credential.payload.iss credential.payload.rev.epoch
  raiseIfRevoked G credential statusList

theorem acheckRevocation_eq : acheckRevocation = checkRevocation := rfl

/-! ## What they raise -/

section
variable {G : Runtime} {C : StatusClient}

theorem raises_buildStatusListUrl {issuerDomain epoch : Text} :
    Raises .statusListError (buildStatusListUrl issuerDomain epoch) :=
  .ite (.throw _) (.pure _)

/-- A list that was decoded has a byte for each index below its size. -/
theorem raises_isRevoked {l : StatusList} (hsize : l.size = l.bits.length * 8) (idx : Int) :
    Raises .statusListError (l.isRevoked idx) := by
  rw [StatusList.isRevoked]
  by_cases hout : idx < 0 ∨ l.size ≤ idx
  · rw [if_pos hout]
    exact .throw _
  · have hlt : idx.toNat / 8 < l.bits.length := by omega
    rw [if_neg hout, List.getElem?_eq_getElem hlt]
    exact .pure _

theorem raises_raiseIfRevoked {credential : VerifiedCredential} {l : StatusList}
    (hsize : l.size = l.bits.length * 8) :
    Raises .statusListError (raiseIfRevoked G credential l) :=
  .bind (raises_isRevoked hsize _) fun _ => .ite (.throw _) (.pure _)

theorem decodeStatusList_size {decompress : Bytes → Py Bytes} {body : Text} {l : StatusList}
    (h : decodeStatusList decompress body = .ok l) :
    0 < l.bits.length ∧ l.size = l.bits.length * 8 := by
  simp only [decodeStatusList, guard_eq_ok, bind_eq_ok, pure_eq_ok] at h
  obtain ⟨-, compressed, -, raw, -, hraw, rfl⟩ := h
  exact ⟨List.length_pos_iff.mpr hraw, rfl⟩

theorem interpretStatusResponse_eq_ok {response : StatusResponse} {url : Text} {l : StatusList}
    {maxAge : Option Int} : interpretStatusResponse G C response url = .ok (l, maxAge) ↔
      response.statusCode = 200 ∧ asciiLength response.body ≤ maxStatusBodyBytes ∧
        decodeStatusList C.decompress response.body = .ok l ∧
        maxAge = parseMaxAge G C.int response.cacheControl := by
  rw [interpretStatusResponse, guard_eq_ok, guard_eq_ok, not_not, not_lt, bind_eq_ok]
  constructor
  · rintro ⟨hstatus, hlen, l', hl, hpair⟩
    cases pure_eq_ok.mp hpair
    exact ⟨hstatus, hlen, hl, rfl⟩
  · rintro ⟨hstatus, hlen, hl, rfl⟩
    exact ⟨hstatus, hlen, l, hl, rfl⟩

/-- What `fetch_status_list` and `check_revocation` raise over a response whose list is decoded or
refused. -/
theorem raises_checkRevocation {credential : VerifiedCredential}
    (hget : ∀ url, Raises .httpError (C.get url))
    (hdecode : ∀ url response, C.get url = .ok response →
      Raises .statusListError (decodeStatusList C.decompress response.body)) :
    Raises .statusListError (checkRevocation G C credential) := by
  rw [checkRevocation, fetchStatusList]
  simp only [bind_assoc]
  refine .bind raises_buildStatusListUrl fun url => ?_
  have hcaught : [ExcClass.httpError].any ExcClass.httpError.isA = true := by decide
  have hfetch : ∀ msg : Exc → Text, Raises .statusListError
      (reraise [.httpError] (fun exc => statusListError (msg exc)) (C.get url)) := fun _ =>
    (hget url).reraise hcaught fun _ => rfl
  refine (raises_bind_iff (hfetch _)).mpr fun response hresponse => ?_
  have hlist := hdecode url response (reraise_eq_ok.mp hresponse)
  refine (raises_bind_iff (.ite (.throw _) (.ite (.throw _) (.bind hlist fun _ => .pure _)))).mpr ?_
  rintro ⟨l, maxAge⟩ hl
  obtain ⟨-, -, hl, -⟩ := interpretStatusResponse_eq_ok.mp hl
  exact raises_raiseIfRevoked (decodeStatusList_size hl).2

end

end Shadownet.Python
