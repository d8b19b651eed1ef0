import Shadownet.Issuer.EpochTable
import Shadownet.Issuer.Status
import Shadownet.Python.Status

/-!
# Revocation from the issuer to the verifier

The set of revoked indices has four forms: the calls of `SetRevoked` that returned `nil`,
the rows of `issuer_revocations`, the bits `serveStatus` packs and sends, and the bits the
verifier reads. Each section below connects one form with the next.
-/

namespace Shadownet.Issuer

open Foundation Go

/-! ## Calls and rows -/

/-- The pairs of `issuer_revocations`. -/
def revokedPairs (rows : List RevocationRow) : List (Nat × Nat) :=
  rows.map fun r => (r.epoch, r.idx)

/-- The pairs some `SetRevoked` of the history returned `nil` for. -/
def Revoked (h : List (Call × Answer)) (epoch idx : Nat) : Prop :=
  ∃ t now, (Call.setRevoked epoch idx t now, Answer.done) ∈ h

theorem insertRevocation_pairs {db db' : Database} {epoch idx : Nat} {t : Time}
    (h : db.insertRevocation epoch idx t = .ok db') (p : Nat × Nat) :
    p ∈ revokedPairs db'.revocations ↔ p ∈ revokedPairs db.revocations ∨ p = (epoch, idx) := by
  simp only [Database.insertRevocation, bind_eq_ok, sqlUint_eq_ok] at h
  obtain ⟨_, ⟨-, rfl⟩, _, ⟨-, rfl⟩, h⟩ := h
  split at h
  · rename_i hany
    obtain rfl := pure_eq_ok.mp h
    obtain ⟨r, hr, he⟩ := List.any_eq_true.mp hany
    simp only [Bool.and_eq_true, beq_iff_eq] at he
    constructor
    · exact Or.inl
    · rintro (hp | rfl)
      · exact hp
      · exact List.mem_map.mpr ⟨r, hr, by rw [he.1, he.2]⟩
  · obtain rfl := pure_eq_ok.mp h
    simp [revokedPairs]

/-- Only `SetRevoked` writes revocations, and it writes its own arguments. -/
theorem step_revocations {s : Store} (h : s.Sound) (c : Call) (p : Nat × Nat) :
    p ∈ revokedPairs (s.step c).1.db.revocations ↔
      p ∈ revokedPairs s.db.revocations ∨
        ∃ t now, c = .setRevoked p.1 p.2 t now ∧ (s.step c).2 = .done := by
  cases c with
  | allocateIndex exp now =>
    have : (s.step (.allocateIndex exp now)).1.db.revocations = s.db.revocations := by
      cases hr : s.db.allocateTx s.maxIndices exp now with
      | error e => simp [Store.step, Store.allocateIndex, Store.commit, hr]
      | ok r =>
        simp only [Store.step, Store.allocateIndex, Store.commit, hr]
        exact (allocateTx_ok h.table h.max_pos hr).2.revocations
    simp [this]
  | rotateEpoch m t now =>
    have hm : 0 < if m = 0 then s.maxIndices else m := by
      split
      · exact h.max_pos
      · omega
    have : (s.step (.rotateEpoch m t now)).1.db.revocations = s.db.revocations := by
      cases hr : s.db.rotateTx (if m = 0 then s.maxIndices else m) (t.orNow now) with
      | error e => simp [Store.step, Store.rotateEpoch, Store.commit, hr]
      | ok r =>
        simp only [Store.step, Store.rotateEpoch, Store.commit, hr]
        exact (rotateTx_ok h.table hm hr).2.revocations
    simp [this]
  | setRevoked e i t now =>
    cases hr : s.db.setRevokedTx e i (t.orNow now) with
    | error err =>
      simp [Store.step, Store.setRevoked, Store.commit, hr, Except.map, Answer.of]
    | ok db =>
      simp only [Store.step, Store.setRevoked, Store.commit, hr, Except.map, Answer.of]
      simp only [Database.setRevokedTx, bind_eq_ok, guard_eq_ok, mapError_eq_ok] at hr
      obtain ⟨_, -, -, hins⟩ := hr
      rw [insertRevocation_pairs hins]
      constructor
      · rintro (hp | rfl)
        · exact .inl hp
        · exact .inr ⟨t, now, rfl, trivial⟩
      · rintro (hp | ⟨t', now', hc, -⟩)
        · exact .inl hp
        · simp only [Call.setRevoked.injEq] at hc
          exact .inr (Prod.ext hc.1.symm hc.2.1.symm)
  | reopen m now =>
    simp [Store.step, Store.openStore, ensureCurrentEpoch_eq h.table, bind, Except.bind,
      Except.mapError, pure, Except.pure]

theorem openStore_revocations {m : Nat} {now : Time} {s : Store}
    (ho : Store.openStore .empty m now = .ok s) : s.db.revocations = [] := by
  simp only [Store.openStore, bind_eq_ok, mapError_eq_ok, pure_eq_ok] at ho
  obtain ⟨db, hdb, rfl⟩ := ho
  exact (ensureCurrentEpoch_ok hdb).2.2.revocations

/-- The rows of a run are the calls that succeeded. -/
theorem revokedPairs_run {m : Nat} {now : Time} {s : Store}
    (ho : Store.openStore .empty m now = .ok s) (calls : List Call) (epoch idx : Nat) :
    (epoch, idx) ∈ revokedPairs (final Store.step s calls).db.revocations ↔
      Revoked (history Store.step s calls) epoch idx := by
  have h0 : s.db.revocations = [] := openStore_revocations ho
  refine (history_induction (G := fun _ _ => True) (P := fun (s : Store) h => s.Sound ∧
    ((epoch, idx) ∈ revokedPairs s.db.revocations ↔ Revoked h epoch idx)) ?_ ?_
    (fun _ _ _ _ => trivial)).2
  · exact ⟨(openStore_empty ho).1, by simp [h0, revokedPairs, Revoked]⟩
  · rintro s h c ⟨hs, hi⟩ -
    refine ⟨hs.step c, ?_⟩
    rw [step_revocations hs, hi]
    constructor
    · rintro (⟨t, now, hm⟩ | ⟨t, now, rfl, hd⟩)
      · exact ⟨t, now, List.mem_append_left _ hm⟩
      · exact ⟨t, now, by simp [hd]⟩
    · rintro ⟨t, now, hm⟩
      rcases List.mem_append.mp hm with hm | hm
      · exact .inl ⟨t, now, hm⟩
      · obtain ⟨h1, h2⟩ := Prod.mk.inj (List.mem_singleton.mp hm)
        exact .inr ⟨t, now, h1.symm, h2.symm⟩

/-! ## Revoked before allocated -/

theorem getEpoch_row {db : Database} (hw : WellFormed db.epochs) {r : EpochRow}
    (hr : r ∈ db.epochs) : db.getEpoch r.number = .ok (scanEpoch r) := by
  have hfind : db.epochs.find? (·.number == r.number) = some r := by
    cases hf : db.epochs.find? (·.number == r.number) with
    | none => exact absurd (List.find?_eq_none.mp hf r hr) (by simp)
    | some r' =>
      have he : r'.number = r.number := by simpa using List.find?_some hf
      rw [hw.row_unique (List.mem_of_find?_eq_some hf) hr he]
  simp only [Database.getEpoch, bind_eq_ok, mapError_eq_ok, sqlUint_eq_ok]
  exact ⟨r.number, ⟨(hw.bounds r hr).number_lt, rfl⟩, by rw [hfind]; rfl⟩

/-- `SetRevoked` asks that the epoch exists and that the index is below its ceiling, not that
the index has been given out. -/
theorem setRevoked_done_iff {s : Store} (h : s.Sound) (epoch idx : Nat) (t now : Time) :
    (s.step (.setRevoked epoch idx t now)).2 = .done ↔
      ∃ r ∈ s.db.epochs, r.number = epoch ∧ idx < r.maxIndices := by
  have hiff : (s.step (.setRevoked epoch idx t now)).2 = .done ↔
      ∃ db, s.db.setRevokedTx epoch idx (t.orNow now) = .ok db := by
    cases hr : s.db.setRevokedTx epoch idx (t.orNow now) <;>
      simp [Store.step, Store.setRevoked, Store.commit, hr, Except.map, Answer.of]
  rw [hiff]
  constructor
  · rintro ⟨db, hdb⟩
    simp only [Database.setRevokedTx, Database.getEpoch, bind_eq_ok, guard_eq_ok, mapError_eq_ok,
      sqlUint_eq_ok] at hdb
    obtain ⟨e, ⟨_, ⟨-, rfl⟩, hget⟩, hlt, -⟩ := hdb
    split at hget
    · next r hfind =>
      obtain rfl := pure_eq_ok.mp hget
      exact ⟨r, List.mem_of_find?_eq_some hfind, by simpa using List.find?_some hfind,
        Nat.lt_of_not_le hlt⟩
    · cases hget
  · rintro ⟨r, hr, rfl, hlt⟩
    have hbounds := h.table.bounds r hr
    have hidx : idx < sqlLimit := hlt.trans_le hbounds.max_lt.le
    have hget := getEpoch_row h.table hr
    simp only [Database.setRevokedTx, Database.insertRevocation, hget, bind_eq_ok, guard_eq_ok,
      mapError_eq_ok, sqlUint_eq_ok]
    by_cases hany : s.db.revocations.any fun row => row.epoch == r.number && row.idx == idx
    · exact ⟨_, _, rfl, Nat.not_le.mpr hlt, _, ⟨hbounds.number_lt, rfl⟩, _, ⟨hidx, rfl⟩,
        if_pos hany⟩
    · exact ⟨_, _, rfl, Nat.not_le.mpr hlt, _, ⟨hbounds.number_lt, rfl⟩, _, ⟨hidx, rfl⟩,
        if_neg hany⟩

/-- Every revocation of the history named a pair that had been given out. -/
def RevokesIssued (h : List (Call × Answer)) : Prop :=
  ∀ before after epoch idx t now, h = before ++ (Call.setRevoked epoch idx t now, .done) :: after →
    (epoch, idx) ∈ allocations before

/-- In every run of a fresh store, the pair an `AllocateIndex` returns is revoked at that moment
exactly when an earlier `SetRevoked` for it succeeded, which needs an index below the ceiling of
an epoch of the table and nothing else; it is not revoked when the earlier calls only revoked
pairs that had been given out. -/
theorem born_revoked_run {m : Nat} {now : Time} {s : Store}
    (ho : Store.openStore .empty m now = .ok s) (calls : List Call) :
    (∀ exp now' epoch idx,
      ((final Store.step s calls).step (.allocateIndex exp now')).2 = .allocated epoch idx →
      ((epoch, idx) ∈ revokedPairs
          ((final Store.step s calls).step (.allocateIndex exp now')).1.db.revocations ↔
        Revoked (history Store.step s calls) epoch idx) ∧
      (RevokesIssued (history Store.step s calls) → (epoch, idx) ∉ revokedPairs
        ((final Store.step s calls).step (.allocateIndex exp now')).1.db.revocations)) ∧
    ∀ epoch idx t now',
      ((final Store.step s calls).step (.setRevoked epoch idx t now')).2 = .done ↔
        ∃ r ∈ (final Store.step s calls).db.epochs, r.number = epoch ∧ idx < r.maxIndices := by
  have hissued := issued_of_open ho calls
  refine ⟨fun exp now' epoch idx ha => ?_, setRevoked_done_iff hissued.sound⟩
  have hiff : (epoch, idx) ∈ revokedPairs
      ((final Store.step s calls).step (.allocateIndex exp now')).1.db.revocations ↔
        Revoked (history Store.step s calls) epoch idx := by
    rw [step_revocations hissued.sound, revokedPairs_run ho]
    constructor
    · rintro (h | ⟨_, _, hc, -⟩)
      · exact h
      · cases hc
    · exact .inl
  refine ⟨hiff, fun hrev hmem => ?_⟩
  -- the earlier call named a pair given out before, and this call gives it out again
  obtain ⟨t, now'', hin⟩ := hiff.mp hmem
  obtain ⟨before, after, hsplit⟩ := List.append_of_mem hin
  have hbefore := hrev before after epoch idx t now'' hsplit
  have hearlier : (epoch, idx) ∈ allocations (history Store.step s calls) := by
    rw [hsplit, allocations, List.filterMap_append]
    exact List.mem_append_left _ hbefore
  have hnodup := (hissued.step (.allocateIndex exp now')).nodup
  rw [allocations_concat, ha, allocatedPair, Option.toList_some, List.nodup_append] at hnodup
  exact hnodup.2.2 _ hearlier _ (List.mem_singleton.mpr rfl) rfl

/-- An index is revoked, then given out. -/
theorem born_revoked_run_early :
    (1, 0) ∈ revokedPairs (final Store.step smallStore
      [.setRevoked 1 0 (Time.ofUnix 200) (Time.ofUnix 200),
        .allocateIndex (Time.ofUnix 1000) (Time.ofUnix 201)]).db.revocations := by
  have ho : Store.openStore .empty 2 (Time.ofUnix 100) = .ok smallStore := rfl
  have halloc := (born_revoked_run ho [.setRevoked 1 0 (Time.ofUnix 200) (Time.ofUnix 200)]).1
    (Time.ofUnix 1000) (Time.ofUnix 201) 1 0 (by decide)
  exact halloc.1.mpr ⟨Time.ofUnix 200, Time.ofUnix 200, by decide⟩

/-- A revocation of an index that has not been given out succeeds, and the next allocation
returns that index. -/
theorem revoked_before_allocated :
    ∃ (m : Nat) (now : Time) (s : Store) (before : List Call) (exp now' : Time) (epoch idx : Nat),
      Store.openStore .empty m now = .ok s ∧
      ((final Store.step s before).step (.allocateIndex exp now')).2 = .allocated epoch idx ∧
      (epoch, idx) ∈ revokedPairs
        ((final Store.step s before).step (.allocateIndex exp now')).1.db.revocations :=
  ⟨2, Time.ofUnix 100, smallStore, [.setRevoked 1 0 (Time.ofUnix 200) (Time.ofUnix 200)],
    Time.ofUnix 1000, Time.ofUnix 201, 1, 0, rfl, by decide, by decide⟩

/-! ## Rows and bits -/

theorem loadRows_bits (maxIndices : Nat) (rows : List RevocationRow) (acc : Bytes × Time) :
    (rows.foldl (loadRow maxIndices) acc).1 =
      ((rows.map RevocationRow.idx).filter (· < maxIndices)).foldl setBit acc.1 := by
  induction rows generalizing acc with
  | nil => rfl
  | cons r rows ih =>
    rw [List.foldl_cons, ih, loadRow, List.map_cons]
    by_cases h : maxIndices ≤ r.idx
    · rw [if_pos h, List.filter_cons_of_neg (by simpa using h)]
    · rw [if_neg h, List.filter_cons_of_pos (by simpa using h), List.foldl_cons]

/-- The bits of an epoch of the table: a bit is set exactly when its index is below the ceiling and
the pair is among the revocations. -/
theorem loadStatusBits_row {db : Database} (hw : WellFormed db.epochs) {r : EpochRow}
    (hr : r ∈ db.epochs) :
    ∃ bits latest, db.loadStatusBits r.number = .ok (bits, latest) ∧
      bits.length = (r.maxIndices + 7) / 8 ∧
      ∀ i, bitAt bits i =
        decide ((r.number, i) ∈ revokedPairs db.revocations ∧ i < r.maxIndices) := by
  have hlt := (hw.bounds r hr).number_lt
  have hget := getEpoch_row hw hr
  have hload : db.loadStatusBits r.number =
      .ok ((db.revocations.filter (·.epoch == r.number)).foldl (loadRow r.maxIndices)
        (List.replicate ((r.maxIndices + 7) / 8) 0, Time.zero)) := by
    simp only [Database.loadStatusBits, bind_eq_ok, mapError_eq_ok, sqlUint_eq_ok]
    exact ⟨_, hget, r.number, ⟨hlt, rfl⟩, rfl⟩
  refine ⟨_, _, hload, ?_, fun i => ?_⟩
  · rw [loadRows_bits, length_setBits, List.length_replicate]
  · rw [loadRows_bits, bitAt_setBits, bitAt_replicate_zero, Bool.false_or, decide_eq_decide]
    · simp only [List.mem_filter, List.mem_map, decide_eq_true_eq, revokedPairs, beq_iff_eq,
        Prod.mk.injEq]
      constructor
      · rintro ⟨⟨row, ⟨hm, he⟩, rfl⟩, hi⟩
        exact ⟨⟨row, hm, he, rfl⟩, hi⟩
      · rintro ⟨⟨row, hm, he, rfl⟩, hi⟩
        exact ⟨⟨row, ⟨hm, he⟩, rfl⟩, hi⟩
    · intro j hj
      have hlt : j < r.maxIndices := by simpa using (List.mem_filter.mp hj).2
      rw [List.length_replicate]
      omega

/-! ## Bits, text and bits again -/

/-- What the code relies on: the verifier's gzip reads what the issuer's gzip writes, which
is never empty. -/
def GzipRoundTrip (compress : Bytes → Except Bytes Bytes)
    (decompress : Bytes → Python.Py Bytes) : Prop :=
  ∀ b, ∃ z, compress b = .ok z ∧ z ≠ [] ∧ decompress z = .ok b

/-- The verifier decodes what `Encode` writes. -/
theorem decodeStatusList_base64Url {decompress : Bytes → Python.Py Bytes} {z raw : Bytes}
    (hz : z ≠ []) (hd : decompress z = .ok raw) (hraw : raw ≠ []) :
    Python.decodeStatusList decompress (base64Url z) = .ok ⟨raw, raw.length * 8⟩ := by
  have hstrip : Python.strip (base64Url z) = base64Url z := by
    refine Python.strip_eq_self fun c hc => ?_
    have := base64Url_mem hc
    simp only [Python.isSpace, Bool.or_eq_false_iff, Bool.and_eq_false_iff,
      decide_eq_false_iff_not, beq_eq_false_iff_ne]
    omega
  simp only [Python.decodeStatusList, hstrip, if_neg (base64Url_ne_nil hz), bind_eq_ok,
    Python.reraise_eq_ok, guard_eq_ok, pure_eq_ok]
  exact ⟨z, Python.urlsafeB64decode_base64Url z, raw, hd, hraw, rfl⟩

/-- Reading a bit of the decoded list. -/
theorem isRevoked_bitAt {raw : Bytes} {i : Nat} (hi : i < raw.length * 8) :
    Python.StatusList.isRevoked ⟨raw, raw.length * 8⟩ i = .ok (bitAt raw i) := by
  have hlt : i / 8 < raw.length := by omega
  have hnot : ¬ ((i : Int) < 0 ∨ ((raw.length : Int) * 8) ≤ i) := by omega
  rw [Python.StatusList.isRevoked, if_neg hnot]
  simp only [Int.toNat_natCast, bitAt, List.getElem?_eq_getElem hlt]
  simp only [pure, Except.pure, Except.ok.injEq, Nat.testBit, Nat.and_comm 1]
  have h2 := Nat.and_one_is_mod (raw[i / 8].toNat >>> (7 - i % 8))
  rcases Nat.mod_two_eq_zero_or_one (raw[i / 8].toNat >>> (7 - i % 8)) with h | h <;>
    simp [h2, h]

theorem isRevoked_out_of_range {l : Python.StatusList} {idx : Int} (hi : l.size ≤ idx) :
    ∃ e, l.isRevoked idx = .error e ∧ e.cls = .statusListError := by
  rw [Python.StatusList.isRevoked, if_pos (Or.inr hi)]
  exact ⟨_, rfl, rfl⟩

/-- What `serveStatus` sends for the bits of an epoch. -/
theorem serveStatus_encoded {compress : Bytes → Except Bytes Bytes} {maxAge : Int} {db : Database}
    {epochStr : Bytes} {epoch : Nat} {bits z : Bytes} {latest : Time}
    (hp : parseUint epochStr = some epoch) (hload : db.loadStatusBits epoch = .ok (bits, latest))
    (hpos : 0 < bits.length) (hz : compress bits = .ok z) :
    serveStatus compress maxAge db epochStr =
      { status := 200
        headers := [(bytes "Content-Type", bytes "text/plain"),
          (bytes "Cache-Control", bytes "max-age=" ++ itoa maxAge)]
        body := utf8 (base64Url z) } := by
  simp only [serveStatus, hp, hload, if_pos hpos, StatusBits.encode, StatusBits.fromRaw, hz,
    bind, Except.bind, pure, Except.pure]

/-- For every run of a fresh store and every epoch of its table, the body `serveStatus`
writes decodes on the verifier's side, a bit below the epoch's ceiling is set exactly when
some `SetRevoked` for it succeeded, and an index past the decoded size is an error. -/
theorem revocation_end_to_end {m : Nat} {now : Time} {s : Store}
    (ho : Store.openStore .empty m now = .ok s) (calls : List Call)
    {compress : Bytes → Except Bytes Bytes} {decompress : Bytes → Python.Py Bytes}
    (hgz : GzipRoundTrip compress decompress) (maxAge : Int) {epochStr : Bytes} {r : EpochRow}
    (hr : r ∈ (final Store.step s calls).db.epochs) (hp : parseUint epochStr = some r.number) :
    ∃ (body : Text) (l : Python.StatusList),
      (serveStatus compress maxAge (final Store.step s calls).db epochStr).status = 200 ∧
      utf8Decode (serveStatus compress maxAge (final Store.step s calls).db epochStr).body =
        some body ∧
      Python.decodeStatusList decompress body = .ok l ∧
      (∀ idx < r.maxIndices, ∃ b, l.isRevoked idx = .ok b ∧
        (b = true ↔ Revoked (history Store.step s calls) r.number idx)) ∧
      ∀ idx, l.size ≤ idx → ∃ e, l.isRevoked idx = .error e ∧ e.cls = .statusListError := by
  have hw := (issued_of_open ho calls).sound.table
  have hrun := revokedPairs_run ho calls
  generalize (final Store.step s calls).db = db at hr hw hrun ⊢
  obtain ⟨bits, latest, hload, hlen, hbit⟩ := loadStatusBits_row hw hr
  have hmax := (hw.bounds r hr).max_pos
  have hpos : 0 < bits.length := by omega
  obtain ⟨z, hz, hzne, hd⟩ := hgz bits
  rw [serveStatus_encoded hp hload hpos hz]
  have hscalar : ∀ c ∈ base64Url z, ¬ c.IsSurrogate := by
    intro c hc
    have := base64Url_mem hc
    unfold CodePoint.IsSurrogate
    omega
  refine ⟨base64Url z, ⟨bits, bits.length * 8⟩, rfl, utf8Decode_utf8 hscalar,
    decodeStatusList_base64Url hzne hd (List.length_pos_iff.mp hpos), ?_, ?_⟩
  · intro idx hidx
    refine ⟨_, isRevoked_bitAt (by omega), ?_⟩
    rw [hbit idx, decide_eq_true_eq, and_iff_left hidx, hrun]
  · intro idx hidx
    exact isRevoked_out_of_range hidx

/-- The gzip stream the Go writer produces for the single byte `0x40`. -/
def gzipOfByte40 : Bytes :=
  [31, 139, 8, 0, 0, 0, 0, 0, 2, 255, 114, 0, 4, 0, 0, 255, 255, 29, 174, 222, 164, 1, 0, 0, 0]

/-- A gzip that is the real one on the byte `0x40`. -/
def sampleCompress (b : Bytes) : Except Bytes Bytes :=
  .ok (if b = [0x40] then gzipOfByte40 else 0 :: b)

def sampleDecompress (z : Bytes) : Python.Py Bytes :=
  .ok (if z = gzipOfByte40 then [0x40] else z.drop 1)

theorem sampleGzip_roundTrip : GzipRoundTrip sampleCompress sampleDecompress := by
  intro b
  refine ⟨_, rfl, ?_⟩
  by_cases hb : b = [0x40]
  · rw [if_pos hb, hb]
    exact ⟨by decide, rfl⟩
  · rw [if_neg hb]
    refine ⟨List.cons_ne_nil _ _, ?_⟩
    rw [sampleDecompress, if_neg (by simp [gzipOfByte40])]
    rfl

/-- A fresh store of three indices per epoch. -/
def threeStore : Store := ⟨⟨[Database.newEpochRow 1 3 (Time.ofUnix 100)], [], []⟩, 3⟩

/-- One revocation, of the index in the middle. -/
def revokeMiddle : List Call := [.setRevoked 1 1 (Time.ofUnix 200) (Time.ofUnix 200)]

theorem revocation_end_to_end_middle :
    ∃ body l, utf8Decode (serveStatus sampleCompress 300
        (final Store.step threeStore revokeMiddle).db (bytes "1")).body = some body ∧
      Python.decodeStatusList sampleDecompress body = .ok l ∧
      l.isRevoked (0 : Nat) = .ok false ∧ l.isRevoked (1 : Nat) = .ok true := by
  have ho : Store.openStore .empty 3 (Time.ofUnix 100) = .ok threeStore := rfl
  have hr : Database.newEpochRow 1 3 (Time.ofUnix 100) ∈
      (final Store.step threeStore revokeMiddle).db.epochs := by decide
  have hp : parseUint (bytes "1") =
      some (Database.newEpochRow 1 3 (Time.ofUnix 100)).number := by decide
  obtain ⟨body, l, -, hb, hl, hbits, -⟩ :=
    revocation_end_to_end ho revokeMiddle sampleGzip_roundTrip 300 hr hp
  obtain ⟨b0, h0, h0'⟩ := hbits 0 (by decide)
  obtain ⟨b1, h1, h1'⟩ := hbits 1 (by decide)
  have hno : ¬ Revoked (history Store.step threeStore revokeMiddle) 1 0 := by
    rintro ⟨t, now, hm⟩
    simp [revokeMiddle, history] at hm
  have hyes : Revoked (history Store.step threeStore revokeMiddle) 1 1 :=
    ⟨Time.ofUnix 200, Time.ofUnix 200, by decide⟩
  refine ⟨body, l, hb, hl, ?_, ?_⟩
  · rw [h0, Bool.eq_false_iff.mpr fun ht => hno (h0'.mp ht)]
  · rw [h1, h1'.mpr hyes]

end Shadownet.Issuer
