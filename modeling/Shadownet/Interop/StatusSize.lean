import Mathlib.Data.List.DropRight
import Shadownet.Interop.Requests
import Shadownet.Issuer.Revocation
import Shadownet.Python.StatusFetch

/-!
# Lists that are too large to read

`Decode` of `core/internal/status` bounds the bits of a list, `_interpret_status_response` the text
of its body, each by 8 MiB. Nothing bounds `max_indices` where an epoch is opened.

* `decode_served`, `interpret_served`: what the two readers make of a served body.
* `statusList_readable_iff`: the epochs whose list both of them read.
-/

namespace Shadownet.Issuer

open Foundation Go

/-! ## `status.Decode` -/

/-- `status.MaxBodyBytes`. -/
def maxBodyBytes : Nat := 8 * 1024 * 1024

def isTrimmed (b : UInt8) : Bool := b == 0x20 || b == 0x09 || b == 0x0A || b == 0x0D

/-- `trimSpace`. -/
def trimSpace (s : Bytes) : Bytes := (s.dropWhile isTrimmed).rdropWhile isTrimmed

/-- `base64.URLEncoding.DecodeString`: line ends are skipped, and padding completes the last
group. -/
def paddedUrlDecode (cs : List Nat) : Option Bytes :=
  let cs := cs.filter fun c => c ≠ 10 ∧ c ≠ 13
  let data := cs.rdropWhile (· == 61)
  if cs.length % 4 = 0 ∧ cs.length ≤ data.length + 2 then (data.mapM urlSextet).bind unsextets
  else none

/-- The two attempts of `Decode` at the base64 text. -/
def decodeBase64 (G : Runtime) (body : Bytes) : GoM Bytes :=
  match rawUrlDecode (body.map UInt8.toNat) with
  | some compressed => pure compressed
  | none =>
    match paddedUrlDecode (body.map UInt8.toNat) with
    | some compressed => pure compressed
    | none => throw (bytes "status: base64 decode: " ++ G.base64Error body)

/-- `gzip.NewReader`, and `io.ReadAll` of at most so many bytes from the reader. -/
abbrev GzipReader := Bytes → GoM (Nat → GoM Bytes)

/-- `Decode`. -/
def decode (G : Runtime) (newReader : GzipReader) (body : Bytes) : GoM StatusBits :=
  let body := trimSpace body
  if body = [] then throw (bytes "status: bitstring is empty")
  else do
    let compressed ← decodeBase64 G body
    let read ← (newReader compressed).mapError (bytes "status: gzip reader: " ++ ·)
    let bits ← (read (maxBodyBytes + 1)).mapError (bytes "status: gunzip read: " ++ ·)
    if maxBodyBytes < bits.length then throw (bytes "status: bitstring exceeds size cap")
    else if bits = [] then throw (bytes "status: bitstring is empty")
    else pure (.fromRaw bits)

end Shadownet.Issuer

namespace Shadownet.Interop

open Foundation Issuer

/-! ## What the readers make of a body -/

/-- What the code relies on: both readers of gzip give back what the writer was given. -/
def GzipReads (compress : Bytes → Except Bytes Bytes) (newReader : GzipReader)
    (decompress : Bytes → Python.Py Bytes) : Prop :=
  ∀ b, ∃ z, compress b = .ok z ∧ z ≠ [] ∧ decompress z = .ok b ∧
    ∃ read, newReader z = .ok read ∧ ∀ n, read n = .ok (b.take n)

section
variable {newReader : GzipReader} {z bits : Bytes}

theorem trimSpace_base64Url (z : Bytes) : trimSpace (utf8 (base64Url z)) = utf8 (base64Url z) := by
  have hnot : ∀ b ∈ utf8 (base64Url z), isTrimmed b = false := by
    intro b hb
    have hcode : b.toNat ∈ base64UrlCodes z := by
      rw [← codes_base64Url]
      exact List.mem_map_of_mem hb
    obtain ⟨x, hx, hval⟩ := List.mem_map.mp hcode
    have := sextetCode_alphabet (sextets_lt z x hx)
    simp only [isTrimmed, Bool.or_eq_false_iff, beq_eq_false_iff_ne, ne_eq, ← UInt8.toNat_inj]
    refine ⟨⟨⟨?_, ?_⟩, ?_⟩, ?_⟩ <;> intro h <;> simp at h <;> omega
  rw [trimSpace, List.dropWhile_eq_self_iff.mpr, List.rdropWhile_eq_self_iff.mpr]
  · intro hne
    simpa using hnot _ (List.getLast_mem hne)
  · intro hpos
    simpa using hnot _ (List.getElem_mem hpos)

/-- `Decode` reads a list that is not above its bound. -/
theorem decode_served (G : Go.Runtime) (hz : z ≠ []) (hbits : bits ≠ [])
    (hread : ∃ read, newReader z = .ok read ∧ ∀ n, read n = .ok (bits.take n)) :
    decode G newReader (utf8 (base64Url z)) =
      if bits.length ≤ maxBodyBytes then .ok (.fromRaw bits)
      else .error (bytes "status: bitstring exceeds size cap") := by
  obtain ⟨read, hread, htake⟩ := hread
  have hbody : utf8 (base64Url z) ≠ [] := by
    rw [utf8_ascii (base64Url_ascii z), Ne, List.map_eq_nil_iff]
    exact base64Url_ne_nil hz
  have hcompressed : decodeBase64 G (utf8 (base64Url z)) = .ok z := by
    rw [decodeBase64, codes_base64Url, rawUrlDecode_base64Url]
    rfl
  rw [decode, trimSpace_base64Url, if_neg hbody, hcompressed, ok_bind, hread]
  simp only [Except.mapError, ok_bind, htake]
  by_cases hlen : bits.length ≤ maxBodyBytes
  · rw [List.take_of_length_le (by omega), if_neg (not_lt.mpr hlen), if_neg hbits, if_pos hlen]
    rfl
  · have hlong : (bits.take (maxBodyBytes + 1)).length = maxBodyBytes + 1 :=
      List.length_take_of_le (by omega)
    rw [hlong, if_pos (Nat.lt_succ_self _), if_neg hlen]
    rfl

theorem asciiLength_base64Url (z : Bytes) :
    Python.asciiLength (base64Url z) = (z.length * 4 + 2) / 3 := by
  rw [Python.asciiLength, List.countP_eq_length.mpr, length_base64Url]
  intro c hc
  exact decide_eq_true (base64Url_ascii z c hc)

/-- `_interpret_status_response` reads a list whose text is not above its bound. -/
theorem interpret_served {P : Python.Runtime} {C : Python.StatusClient} (hz : z ≠ [])
    (hbits : bits ≠ []) (hd : C.decompress z = .ok bits) (cacheControl : Option Text) (url : Text) :
    (∃ maxAge, Python.interpretStatusResponse P C ⟨200, base64Url z, cacheControl⟩ url =
      .ok (⟨bits, bits.length * 8⟩, maxAge)) ↔ z.length ≤ 6 * 1024 * 1024 := by
  have hlen : (z.length * 4 + 2) / 3 ≤ Python.maxStatusBodyBytes ↔ z.length ≤ 6 * 1024 * 1024 := by
    rw [Python.maxStatusBodyBytes]
    omega
  simp only [Python.interpretStatusResponse_eq_ok, asciiLength_base64Url, hlen,
    decodeStatusList_base64Url hz hd hbits, true_and]
  exact ⟨fun ⟨_, h, _⟩ => h, fun h => ⟨_, h, rfl⟩⟩

/-! ## Served lists -/

/-- A response that gives back the bits to both readers. -/
structure ReadBack (G : Go.Runtime) (newReader : GzipReader) (P : Python.Runtime)
    (C : Python.StatusClient) (response : Go.Response) (bits : Bytes) : Prop where
  status : response.status = 200
  go : decode G newReader response.body = .ok (.fromRaw bits)
  python : ∃ body, utf8Decode response.body = some body ∧ ∀ cacheControl url, ∃ maxAge,
    Python.interpretStatusResponse P C ⟨200, body, cacheControl⟩ url =
      .ok (⟨bits, bits.length * 8⟩, maxAge)

theorem utf8Decode_base64Url (z : Bytes) : utf8Decode (utf8 (base64Url z)) = some (base64Url z) :=
  utf8Decode_utf8 (clean_of_ascii (base64Url_ascii z))

/-- In every run of a fresh store, whatever ceilings its epochs were opened with, the list of an
epoch is read back by Go and by Python exactly when its ceiling is at most `2 ^ 26` and the gzip
of its bits at most six MiB. -/
theorem statusList_readable_iff {m : Nat} {now : Go.Time} {s : Store}
    (ho : Store.openStore .empty m now = .ok s) (calls : List Call)
    {compress : Bytes → Except Bytes Bytes} {C : Python.StatusClient}
    (hgz : GzipReads compress newReader C.decompress) (G : Go.Runtime) (P : Python.Runtime)
    (maxAge : Int) {epochStr : Bytes} {r : EpochRow}
    (hr : r ∈ (final Store.step s calls).db.epochs) (hp : Go.parseUint epochStr = some r.number)
    (hbits : IsBitstring r.maxIndices (Revoked (history Store.step s calls) r.number) bits) :
    ReadBack G newReader P C
        (serveStatus compress maxAge (final Store.step s calls).db epochStr) bits ↔
      r.maxIndices ≤ 2 ^ 26 ∧ ∀ z, compress bits = .ok z → z.length ≤ 6 * 1024 * 1024 := by
  have hw := (issued_of_open ho calls).sound.table
  have hrun := revokedPairs_run ho calls
  generalize (final Store.step s calls).db = db at hr hw hrun ⊢
  obtain ⟨loaded, latest, hload, hlen, hbit⟩ := loadStatusBits_row hw hr
  obtain rfl : loaded = bits := by
    refine IsBitstring.unique ⟨hlen, fun i => ?_⟩ hbits
    rw [hbit, decide_eq_true_eq, hrun]
  have hmax := (hw.bounds r hr).max_pos
  have hpos : 0 < loaded.length := by omega
  have hne : loaded ≠ [] := List.length_pos_iff.mp hpos
  obtain ⟨z, hz, hzne, hd, hread⟩ := hgz loaded
  have hsize : loaded.length ≤ maxBodyBytes ↔ r.maxIndices ≤ 2 ^ 26 := by
    rw [hlen, maxBodyBytes]
    omega
  have hgo := decode_served G hzne hne hread
  have hpython := @interpret_served _ _ P C hzne hne hd
  have hgzip : (∀ z, compress loaded = .ok z → z.length ≤ 6 * 1024 * 1024) ↔
      z.length ≤ 6 * 1024 * 1024 := by
    simp only [hz, Except.ok.injEq, forall_eq']
  rw [serveStatus_encoded hp hload hpos hz, hgzip, ← hsize]
  constructor
  · rintro ⟨-, hdecoded, body, hbody, hinterpret⟩
    rw [utf8Decode_base64Url] at hbody
    cases hbody
    refine ⟨?_, (hpython none []).mp (hinterpret none [])⟩
    by_contra hlong
    rw [hgo, if_neg hlong] at hdecoded
    cases hdecoded
  · rintro ⟨hshort, hsmall⟩
    exact ⟨rfl, by rw [hgo, if_pos hshort], _, utf8Decode_base64Url z, fun cacheControl url =>
      (hpython cacheControl url).mpr hsmall⟩

end

/-! ### Three indices, and eight more than the readers take -/

/-- A reader that is the real one on the gzip of the byte `0x40`. -/
def sampleReader : GzipReader := fun z =>
  .ok fun n => .ok ((if z = gzipOfByte40 then [0x40] else z.drop 1).take n)

def sampleClient : Python.StatusClient where
  get _ := .error ⟨.httpError, []⟩
  decompress := sampleDecompress
  int _ := none

theorem sampleGzip_reads : GzipReads sampleCompress sampleReader sampleClient.decompress := by
  intro b
  obtain ⟨z, hz, hne, hd⟩ := sampleGzip_roundTrip b
  refine ⟨z, hz, hne, hd, _, rfl, fun n => ?_⟩
  rw [← Except.ok.inj hd]

theorem isBitstring_middle :
    IsBitstring 3 (Revoked (history Store.step threeStore revokeMiddle) 1) [0x40] := by
  refine ⟨rfl, fun i => ?_⟩
  have hrevoked : Revoked (history Store.step threeStore revokeMiddle) 1 i ↔ i = 1 := by
    constructor
    · rintro ⟨t, now, hm⟩
      simp only [revokeMiddle, history, List.mem_singleton, Prod.mk.injEq, Call.setRevoked.injEq]
        at hm
      exact hm.1.2.1
    · rintro rfl
      exact ⟨Go.Time.ofUnix 200, Go.Time.ofUnix 200, by decide⟩
  rw [hrevoked]
  by_cases hi : i < 8
  · interval_cases i <;> decide
  · have hnone : ([0x40] : Bytes)[i / 8]? = none := List.getElem?_eq_none (by simp; omega)
    rw [bitAt, hnone]
    exact iff_of_false (by simp) (by omega)

theorem statusList_readable_middle :
    ReadBack plainGo sampleReader Python.bareRuntime sampleClient
      (serveStatus sampleCompress 300 (final Store.step threeStore revokeMiddle).db (bytes "1"))
      [0x40] := by
  have ho : Store.openStore .empty 3 (Go.Time.ofUnix 100) = .ok threeStore := rfl
  refine (statusList_readable_iff ho revokeMiddle sampleGzip_reads plainGo Python.bareRuntime 300
    (by decide : Database.newEpochRow 1 3 (Go.Time.ofUnix 100) ∈ _) (by decide)
    isBitstring_middle).mpr ⟨by decide, fun z hz => ?_⟩
  rw [← Except.ok.inj hz]
  decide

/-- A fresh store with `2 ^ 26 + 8` indices per epoch. -/
def hugeStore : Store :=
  ⟨⟨[Database.newEpochRow 1 67108872 (Go.Time.ofUnix 100)], [], []⟩, 67108872⟩

/-- The list of its first epoch is refused before any revocation. -/
theorem statusList_unreadable :
    Store.openStore .empty 67108872 (Go.Time.ofUnix 100) = .ok hugeStore ∧
      ∀ bits, ¬ ReadBack plainGo sampleReader Python.bareRuntime sampleClient
        (serveStatus sampleCompress 300 hugeStore.db (bytes "1")) bits := by
  have ho : Store.openStore .empty 67108872 (Go.Time.ofUnix 100) = .ok hugeStore := rfl
  refine ⟨ho, fun bits h => ?_⟩
  have hw := (issued_of_open ho []).sound.table
  obtain ⟨loaded, latest, hload, hlen, -⟩ := @loadStatusBits_row hugeStore.db hw
    (Database.newEpochRow 1 67108872 (Go.Time.ofUnix 100)) List.mem_cons_self
  have hlong : maxBodyBytes < loaded.length := by
    rw [hlen, maxBodyBytes]
    decide
  have hpos : 0 < loaded.length := by omega
  obtain ⟨z, hz, hzne, -, hread⟩ := sampleGzip_reads loaded
  have hdecoded := h.go
  rw [serveStatus_encoded (by decide) hload hpos hz,
    decode_served plainGo hzne (List.length_pos_iff.mp hpos) hread,
    if_neg (not_le.mpr hlong)] at hdecoded
  cases hdecoded

end Shadownet.Interop
