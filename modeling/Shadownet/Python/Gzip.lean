import Shadownet.Foundation.Gzip
import Shadownet.Python.Stdlib

/-!
# `gzip.decompress`

The function of CPython 3.12 with `_read_gzip_header` and `_read_exact`, over the reader of raw
deflate streams of `zlib`.

* `gzipDecompress_eq_ok`: it returns what a complete file holds, and nothing else.
* `gzipDecompress_osError`: it raises an `OSError` for the defective files, and for no other. Every
  other file ends in an `EOFError` or a `zlib.error`, which is no `OSError`.
-/

namespace Shadownet.Python

open Foundation Foundation.Gzip

/-! ## The functions -/

def badGzipFile (msg : Text) : Exc := ⟨.badGzipFile, msg⟩

def endOfFile : Exc :=
  ⟨.eofError, text "Compressed file ended before the end-of-stream marker was reached"⟩

/-- One byte in `repr`, between single quotes. -/
def reprByte (quote : UInt8) (b : UInt8) : Text :=
  let c : CodePoint := Fin.ofNat 0x110000 b.toNat
  if b = quote ∨ b = 92 then [92, c]
  else if b = 9 then text "\\t"
  else if b = 10 then text "\\n"
  else if b = 13 then text "\\r"
  else if b < 32 ∨ 127 ≤ b then
    text "\\x" ++ [hexDigit 97 (b.toNat / 16), hexDigit 97 (b.toNat % 16)]
  else [c]

/-- `repr` of a byte string. -/
def reprBytes (bs : Bytes) : Text :=
  let quote : UInt8 := if 39 ∈ bs ∧ 34 ∉ bs then 34 else 39
  text "b" ++ Fin.ofNat 0x110000 quote.toNat :: bs.flatMap (reprByte quote) ++
    [Fin.ofNat 0x110000 quote.toNat]

/-- `_read_exact`: the bytes read and the bytes left. -/
def readExact (n : Nat) (fp : Bytes) : Py (Bytes × Bytes) :=
  if fp.length < n then throw endOfFile else pure (fp.take n, fp.drop n)

/-- The loop over a text that ends with zero, or with the file. -/
def skipString (fp : Bytes) : Bytes := (fp.dropWhile (· != 0)).drop 1

/-- The extra field. -/
def skipExtra (fp : Bytes) : Py Bytes := do
  let (size, fp) ← readExact 2 fp
  let (_, fp) ← readExact (leValue size) fp
  pure fp

/-- The checksum of the header. -/
def skipCrc (fp : Bytes) : Py Bytes := do
  let (_, fp) ← readExact 2 fp
  pure fp

/-- A part that is skipped when its bit is set. -/
def skipIf (flags : UInt8) (bit : Nat) (skip : Bytes → Py Bytes) (fp : Bytes) : Py Bytes :=
  if flags.toNat.testBit bit then skip fp else pure fp

/-- The parts after the first ten bytes: `FEXTRA`, `FNAME`, `FCOMMENT` and `FHCRC`. -/
def skipOptions (flags : UInt8) (fp : Bytes) : Py Bytes := do
  let fp ← skipIf flags 2 skipExtra fp
  let fp ← skipIf flags 3 (fun fp => pure (skipString fp)) fp
  let fp ← skipIf flags 4 (fun fp => pure (skipString fp)) fp
  skipIf flags 1 skipCrc fp

/-- `_read_gzip_header`: what follows the header, and `None` at the end of the file. -/
def readGzipHeader (fp : Bytes) : Py (Option Bytes) :=
  if fp.take 2 = [] then pure none
  else if fp.take 2 ≠ magic then
    throw (badGzipFile (text "Not a gzipped file (" ++ reprBytes (fp.take 2) ++ text ")"))
  else do
    let (fields, fp) ← readExact 8 (fp.drop 2)
    if fields.head? ≠ some 8 then throw (badGzipFile (text "Unknown compression method"))
    else some <$> skipOptions (fields.getD 1 0) fp

/-- The checks after `do.decompress`: the output, and the data that the next round reads. -/
def checkMember (r : Inflated) : Py (Bytes × Bytes) :=
  if r.eof = false ∨ r.unused.length < 8 then throw endOfFile
  else if leValue (r.unused.take 4) ≠ (crc32 r.output).toNat then
    throw (badGzipFile (text "CRC check failed"))
  else if leValue ((r.unused.take 8).drop 4) ≠ r.output.length % 2 ^ 32 then
    throw (badGzipFile (text "Incorrect length of data produced"))
  else pure (r.output, unpad (r.unused.drop 8))

/-- One round of the loop. -/
def readMember (Z : Deflate) (data : Bytes) : Py (Option (Bytes × Bytes)) := do
  match ← readGzipHeader data with
  | none => pure none
  | some body =>
    let r ← (Z.inflate body).mapError fun msg => (⟨.zlibError, msg⟩ : Exc)
    some <$> checkMember r

/-! ## Raising one class -/

section
variable {α β : Type} {c d : ExcClass}

/-- `x` raises an exception that `except c` catches. -/
def FailsAs (c : ExcClass) (x : Py α) : Prop := ∃ e, x = .error e ∧ e.cls.isA c = true

theorem not_failsAs_ok (a : α) : ¬ FailsAs c (.ok a) := nofun

theorem failsAs_bind_iff {x : Py α} {f : α → Py β} :
    FailsAs c (x >>= f) ↔ FailsAs c x ∨ ∃ a, x = .ok a ∧ FailsAs c (f a) := by
  cases x with
  | error e =>
    rw [error_bind]
    simp [FailsAs]
  | ok a =>
    rw [ok_bind]
    simp [not_failsAs_ok]

theorem failsAs_map_iff {x : Py α} {f : α → β} : FailsAs c (f <$> x) ↔ FailsAs c x := by
  cases x with
  | error e => exact ⟨fun ⟨e', h, hc⟩ => ⟨e', by cases h; rfl, hc⟩,
      fun ⟨e', h, hc⟩ => ⟨e', by cases h; rfl, hc⟩⟩
  | ok a => exact iff_of_false (not_failsAs_ok _) (not_failsAs_ok _)

theorem failsAs_guard_iff {p : Prop} [Decidable p] {e : Exc} {x : Py α} :
    FailsAs c (if p then throw e else x) ↔
      (p ∧ e.cls.isA c = true) ∨ (¬ p ∧ FailsAs c x) := by
  by_cases h : p
  · rw [if_pos h]
    simp only [h, true_and, not_true, false_and, or_false]
    exact ⟨fun ⟨e', h, hc⟩ => Except.error.inj h ▸ hc, fun hc => ⟨e, rfl, hc⟩⟩
  · simp [h]

theorem Raises.not_failsAs {x : Py α} (hx : Raises d x) (hd : d.isA c = false) :
    ¬ FailsAs c x := by
  rintro ⟨e, he, hc⟩
  rw [hx e he, hd] at hc
  cases hc

end

/-! ## Headers -/

theorem readExact_eq_ok {n : Nat} {fp a b : Bytes} :
    readExact n fp = .ok (a, b) ↔ fp = a ++ b ∧ a.length = n := by
  rw [readExact, guard_eq_ok, pure_eq_ok, Prod.mk.injEq]
  constructor
  · rintro ⟨hle, rfl, rfl⟩
    exact ⟨(List.take_append_drop n fp).symm, List.length_take_of_le (not_lt.mp hle)⟩
  · rintro ⟨rfl, rfl⟩
    refine ⟨?_, List.take_left, List.drop_left⟩
    rw [List.length_append]
    omega

theorem raises_readExact {n : Nat} {fp : Bytes} : Raises .eofError (readExact n fp) :=
  .ite (.throw _) (.pure _)

section
variable {flags : UInt8} {bit : Nat} {fp rest : Bytes}

theorem skipString_eq (hrest : rest ≠ []) :
    skipString fp = rest ↔ ∃ s, IsString s ∧ fp = s ++ rest := by
  constructor
  · intro h
    cases htail : fp.dropWhile (· != 0) with
    | nil =>
      rw [skipString, htail] at h
      exact absurd h.symm hrest
    | cons b tail =>
      have hsplit := List.takeWhile_append_dropWhile (p := (· != 0)) (l := fp)
      have hb := List.head?_dropWhile_not (· != 0) fp
      rw [htail] at hb hsplit
      rw [skipString, htail, List.drop_succ_cons, List.drop_zero] at h
      have hzero : b = 0 := bne_eq_false_iff_eq.mp hb
      refine ⟨fp.takeWhile (· != 0) ++ [0], ⟨_, fun h0 => ?_, rfl⟩, ?_⟩
      · simpa using List.mem_takeWhile_imp h0
      · calc fp = fp.takeWhile (· != 0) ++ b :: tail := hsplit.symm
          _ = fp.takeWhile (· != 0) ++ [0] ++ rest := by rw [hzero, h, List.append_cons]
  · rintro ⟨_, ⟨s, hs, rfl⟩, rfl⟩
    have hall : ∀ b ∈ s, (b != 0) = true := by
      intro b hb
      refine bne_iff_ne.mpr ?_
      rintro rfl
      exact hs hb
    rw [skipString, List.append_assoc, List.dropWhile_append_of_pos hall]
    rfl

theorem skipExtra_eq_ok : skipExtra fp = .ok rest ↔ ∃ s, IsExtra s ∧ fp = s ++ rest := by
  simp only [skipExtra, bind_eq_ok, Prod.exists, readExact_eq_ok, pure_eq_ok]
  constructor
  · rintro ⟨size, _, ⟨rfl, hsize⟩, data, _, ⟨rfl, hdata⟩, rfl⟩
    exact ⟨size ++ data, ⟨size, data, rfl, hsize, hdata⟩, by rw [List.append_assoc]⟩
  · rintro ⟨_, ⟨size, data, rfl, hsize, hdata⟩, rfl⟩
    exact ⟨size, data ++ rest, ⟨by rw [List.append_assoc], hsize⟩, data, rest, ⟨rfl, hdata⟩, rfl⟩

theorem skipCrc_eq_ok : skipCrc fp = .ok rest ↔ ∃ s : Bytes, s.length = 2 ∧ fp = s ++ rest := by
  simp only [skipCrc, bind_eq_ok, Prod.exists, readExact_eq_ok, pure_eq_ok]
  constructor
  · rintro ⟨s, _, ⟨rfl, hs⟩, rfl⟩
    exact ⟨s, hs, rfl⟩
  · rintro ⟨s, hs, rfl⟩
    exact ⟨s, rest, ⟨rfl, hs⟩, rfl⟩

theorem skipIf_eq_ok {skip : Bytes → Py Bytes} {P : Bytes → Prop}
    (h : skip fp = .ok rest ↔ ∃ s, P s ∧ fp = s ++ rest) :
    skipIf flags bit skip fp = .ok rest ↔ ∃ s, IsOptional flags bit P s ∧ fp = s ++ rest := by
  unfold skipIf IsOptional
  cases flags.toNat.testBit bit with
  | false => simp
  | true => exact h

theorem skipOptions_eq_ok (hrest : rest ≠ []) :
    skipOptions flags fp = .ok rest ↔ ∃ s, IsOptions flags s ∧ fp = s ++ rest := by
  have hne : ∀ s : Bytes, s ++ rest ≠ [] := fun s h => hrest (List.append_eq_nil_iff.mp h).2
  have hstring : ∀ (bit : Nat) {fp rest : Bytes}, rest ≠ [] →
      (skipIf flags bit (fun fp => pure (skipString fp)) fp = .ok rest ↔
        ∃ s, IsOptional flags bit IsString s ∧ fp = s ++ rest) := fun bit _ _ hr =>
    skipIf_eq_ok (by rw [pure_eq_ok, skipString_eq hr])
  simp only [skipOptions, bind_eq_ok]
  constructor
  · rintro ⟨fp₁, h₁, fp₂, h₂, fp₃, h₃, h₄⟩
    obtain ⟨crc, hcrc, rfl⟩ := (skipIf_eq_ok skipCrc_eq_ok).mp h₄
    obtain ⟨comment, hcomment, rfl⟩ := (hstring 4 (hne _)).mp h₃
    rw [← List.append_assoc] at h₂
    obtain ⟨name, hname, rfl⟩ := (hstring 3 (hne _)).mp h₂
    obtain ⟨extra, hextra, rfl⟩ := (skipIf_eq_ok skipExtra_eq_ok).mp h₁
    exact ⟨_, ⟨extra, name, comment, crc, rfl, hextra, hname, hcomment, hcrc⟩, by simp⟩
  · rintro ⟨_, ⟨extra, name, comment, crc, rfl, hextra, hname, hcomment, hcrc⟩, rfl⟩
    refine ⟨name ++ (comment ++ (crc ++ rest)),
      (skipIf_eq_ok skipExtra_eq_ok).mpr ⟨extra, hextra, by simp⟩,
      comment ++ (crc ++ rest), (hstring 3 ?_).mpr ⟨name, hname, rfl⟩,
      crc ++ rest, (hstring 4 (hne _)).mpr ⟨comment, hcomment, rfl⟩,
      (skipIf_eq_ok skipCrc_eq_ok).mpr ⟨crc, hcrc, rfl⟩⟩
    rw [← List.append_assoc]
    exact hne _

theorem raises_skipOptions : Raises .eofError (skipOptions flags fp) := by
  have hextra : ∀ fp, Raises .eofError (skipExtra fp) := fun _ =>
    .bind raises_readExact fun _ => .bind raises_readExact fun _ => .pure _
  have hcrc : ∀ fp, Raises .eofError (skipCrc fp) := fun _ =>
    .bind raises_readExact fun _ => .pure _
  exact .bind (.ite (hextra _) (.pure _)) fun _ => .bind (.ite (.pure _) (.pure _)) fun _ =>
    .bind (.ite (.pure _) (.pure _)) fun _ => .ite (hcrc _) (.pure _)

end

section
variable {data rest : Bytes}

theorem readGzipHeader_eq_none : readGzipHeader data = .ok none ↔ data = [] := by
  constructor
  · intro h
    rw [readGzipHeader] at h
    by_cases hnil : data.take 2 = []
    · simpa using hnil
    · rw [if_neg hnil, guard_eq_ok, bind_eq_ok] at h
      obtain ⟨-, ⟨fields, fp⟩, -, h⟩ := h
      obtain ⟨-, h⟩ := guard_eq_ok.mp h
      obtain ⟨_, -, h⟩ := map_eq_ok.mp h
      cases h
  · rintro rfl
    rfl

/-- The ten bytes at the start, when the header is not refused. -/
theorem take_two_eq_magic {fields : Bytes} :
    (data.take 2 = magic ∧ data.drop 2 = fields) ↔ data = magic ++ fields := by
  constructor
  · rintro ⟨hm, rfl⟩
    rw [← hm, List.take_append_drop]
  · rintro rfl
    exact ⟨rfl, rfl⟩

theorem readGzipHeader_eq_some (hrest : rest ≠ []) :
    readGzipHeader data = .ok (some rest) ↔ ∃ header, IsHeader header ∧ data = header ++ rest := by
  constructor
  · intro h
    rw [readGzipHeader] at h
    by_cases hnil : data.take 2 = []
    · rw [if_pos hnil] at h
      cases h
    · rw [if_neg hnil, guard_eq_ok, bind_eq_ok] at h
      obtain ⟨hmagic, ⟨fields, fp⟩, hread, h⟩ := h
      obtain ⟨hmethod, h⟩ := guard_eq_ok.mp h
      obtain ⟨hdrop, hlen⟩ := readExact_eq_ok.mp hread
      obtain ⟨rest', hskip, hsome⟩ := map_eq_ok.mp h
      obtain rfl := Option.some.inj hsome
      obtain ⟨options, hoptions, rfl⟩ := (skipOptions_eq_ok hrest).mp hskip
      -- The eight bytes are the method, the flags and six others.
      match fields, hlen with
      | method :: flags :: fields, hlen =>
        obtain rfl : method = 8 := by simpa using hmethod
        refine ⟨_, ⟨flags, fields, options, rfl, by simpa using hlen, hoptions⟩, ?_⟩
        rw [(take_two_eq_magic.mp ⟨not_not.mp hmagic, hdrop⟩)]
        simp
  · rintro ⟨_, ⟨flags, fields, options, rfl, hlen, hoptions⟩, rfl⟩
    have hread : readExact 8 (8 :: flags :: fields ++ (options ++ rest)) =
        .ok (8 :: flags :: fields, options ++ rest) :=
      readExact_eq_ok.mpr ⟨rfl, by simp [hlen]⟩
    have hskip : skipOptions flags (options ++ rest) = .ok rest :=
      (skipOptions_eq_ok hrest).mpr ⟨options, hoptions, rfl⟩
    rw [List.append_assoc, List.append_assoc]
    change (readExact 8 (8 :: flags :: fields ++ (options ++ rest)) >>= _) = _
    rw [hread, ok_bind]
    change some <$> skipOptions flags (options ++ rest) = _
    rw [hskip]
    rfl

/-- The header is refused for its magic number or for its method. -/
theorem readGzipHeader_osError : FailsAs .osError (readGzipHeader data) ↔
    (data ≠ [] ∧ data.take 2 ≠ magic) ∨
      ∃ method fields, data = magic ++ method :: fields ∧ method ≠ 8 ∧ 7 ≤ fields.length := by
  rw [readGzipHeader]
  by_cases hnil : data.take 2 = []
  · obtain rfl : data = [] := by simpa using hnil
    refine iff_of_false (not_failsAs_ok _) ?_
    rintro (⟨h, -⟩ | ⟨method, fields, h, -⟩)
    · exact h rfl
    · cases h
  have hne : data ≠ [] := by
    rintro rfl
    exact hnil rfl
  have hskip : ∀ fields fp : Bytes,
      ¬ FailsAs .osError (some <$> skipOptions (fields.getD 1 0) fp) := fun _ _ h =>
    raises_skipOptions.not_failsAs rfl (failsAs_map_iff.mp h)
  rw [if_neg hnil, failsAs_guard_iff, failsAs_bind_iff]
  refine or_congr ⟨fun h => ⟨hne, h.1⟩, fun h => ⟨h.2, rfl⟩⟩ ?_
  rw [not_not, or_iff_right (raises_readExact.not_failsAs rfl)]
  constructor
  · rintro ⟨hmagic, ⟨fields, fp⟩, hread, h⟩
    obtain ⟨hdrop, hlen⟩ := readExact_eq_ok.mp hread
    obtain ⟨hmethod, -⟩ | ⟨-, h⟩ := failsAs_guard_iff.mp h
    · match fields, hlen with
      | method :: fields, hlen =>
        refine ⟨method, fields ++ fp, take_two_eq_magic.mp ⟨hmagic, hdrop⟩, ?_, ?_⟩
        · simpa using hmethod
        · rw [List.length_append]
          have : fields.length = 7 := by simpa using hlen
          omega
    · exact absurd h (hskip _ _)
  · rintro ⟨method, fields, rfl, hmethod, hlen⟩
    refine ⟨rfl, ⟨method :: fields.take 7, fields.drop 7⟩, readExact_eq_ok.mpr ⟨?_, ?_⟩, ?_⟩
    · change method :: fields = method :: (fields.take 7 ++ fields.drop 7)
      rw [List.take_append_drop]
    · simpa using hlen
    · refine failsAs_guard_iff.mpr (.inl ⟨?_, rfl⟩)
      simpa using hmethod

end

/-! ## Members -/

section
variable {Z : Deflate} {data output rest : Bytes}

/-- The stream ended and a trailer follows it. -/
theorem complete_iff {r : Inflated} : ¬ (r.eof = false ∨ r.unused.length < 8) ↔
    ∃ trailer after, r = ⟨r.output, true, trailer ++ after⟩ ∧ trailer.length = 8 := by
  obtain ⟨output, eof, unused⟩ := r
  constructor
  · intro h
    obtain ⟨heof, hlen⟩ := not_or.mp h
    refine ⟨unused.take 8, unused.drop 8, ?_, List.length_take_of_le (not_lt.mp hlen)⟩
    rw [List.take_append_drop]
    simpa using heof
  · rintro ⟨trailer, after, h, hlen⟩
    cases h
    simp [hlen]

/-- The two comparisons read the trailer. -/
theorem fits_append {trailer : Bytes} (after : Bytes) (h : trailer.length = 8) :
    Fits output trailer ↔ leValue ((trailer ++ after).take 4) = (crc32 output).toNat ∧
      leValue (((trailer ++ after).take 8).drop 4) = output.length % 2 ^ 32 := by
  rw [List.take_left' h, List.take_append_of_le_length (by omega), Fits]

theorem checkMember_eq_ok {r : Inflated} : checkMember r = .ok (output, rest) ↔
    ∃ trailer after, r = ⟨output, true, trailer ++ after⟩ ∧ trailer.length = 8 ∧
      Fits output trailer ∧ rest = unpad after := by
  rw [checkMember, guard_eq_ok, guard_eq_ok, guard_eq_ok, pure_eq_ok, Prod.mk.injEq, not_not,
    not_not, complete_iff]
  constructor
  · rintro ⟨⟨trailer, after, hr, hlen⟩, hcrc, hsize, rfl, rfl⟩
    rw [hr] at hcrc hsize ⊢
    exact ⟨trailer, after, rfl, hlen, (fits_append after hlen).mpr ⟨hcrc, hsize⟩,
      by rw [List.drop_left' hlen]⟩
  · rintro ⟨trailer, after, rfl, hlen, hfits, rfl⟩
    obtain ⟨hcrc, hsize⟩ := (fits_append after hlen).mp hfits
    exact ⟨⟨trailer, after, rfl, hlen⟩, hcrc, hsize, rfl, by rw [List.drop_left' hlen]⟩

theorem checkMember_osError {r : Inflated} : FailsAs .osError (checkMember r) ↔
    ∃ output trailer after, r = ⟨output, true, trailer ++ after⟩ ∧ trailer.length = 8 ∧
      ¬ Fits output trailer := by
  rw [checkMember, failsAs_guard_iff, failsAs_guard_iff, failsAs_guard_iff, complete_iff]
  have hpure : ∀ p : Bytes × Bytes, ¬ FailsAs .osError (pure p : Py (Bytes × Bytes)) :=
    not_failsAs_ok
  have heof : endOfFile.cls.isA .osError = false := rfl
  simp only [heof, Bool.false_eq_true, and_false, false_or, hpure, or_false, not_not]
  constructor
  · rintro ⟨⟨trailer, after, hr, hlen⟩, h⟩
    refine ⟨r.output, trailer, after, hr, hlen, fun hfits => ?_⟩
    obtain ⟨hcrc, hsize⟩ := (fits_append after hlen).mp hfits
    rw [hr] at h
    exact h.elim (fun h => h.1 hcrc) fun h => h.2.1 hsize
  · rintro ⟨output, trailer, after, rfl, hlen, hnot⟩
    refine ⟨⟨trailer, after, rfl, hlen⟩, ?_⟩
    rw [fits_append after hlen, not_and_or] at hnot
    by_cases hcrc : leValue ((trailer ++ after).take 4) = (crc32 output).toNat
    · exact .inr ⟨hcrc, hnot.resolve_left (not_not.mpr hcrc), rfl⟩
    · exact .inl ⟨hcrc, rfl⟩

theorem readMember_eq_none : readMember Z data = .ok none ↔ data = [] := by
  rw [readMember, bind_eq_ok]
  constructor
  · rintro ⟨header, hheader, h⟩
    cases header with
    | none => exact readGzipHeader_eq_none.mp hheader
    | some body =>
      obtain ⟨r, -, h⟩ := bind_eq_ok.mp h
      obtain ⟨p, -, hp⟩ := map_eq_ok.mp h
      cases hp
  · rintro rfl
    exact ⟨none, rfl, rfl⟩

/-- A round reads a complete member. -/
theorem readMember_eq_some : readMember Z data = .ok (some (output, rest)) ↔
    ∃ header body trailer after, data = header ++ body ∧ IsHeader header ∧
      Stream Z body output trailer after ∧ Fits output trailer ∧ rest = unpad after := by
  rw [readMember, bind_eq_ok]
  constructor
  · rintro ⟨header, hheader, h⟩
    cases header with
    | none => cases h
    | some body =>
      obtain ⟨r, hr, h⟩ := bind_eq_ok.mp h
      obtain ⟨p, hp, hsome⟩ := map_eq_ok.mp h
      obtain rfl := Option.some.inj hsome
      obtain ⟨trailer, after, rfl, hlen, hfits, rfl⟩ := checkMember_eq_ok.mp hp
      have hstream : Stream Z body output trailer after := ⟨mapError_eq_ok.mp hr, hlen⟩
      obtain ⟨header, hh, rfl⟩ := (readGzipHeader_eq_some hstream.body_ne_nil).mp hheader
      exact ⟨header, body, trailer, after, rfl, hh, hstream, hfits, rfl⟩
  · rintro ⟨header, body, trailer, after, rfl, hh, hstream, hfits, rfl⟩
    refine ⟨some body, (readGzipHeader_eq_some hstream.body_ne_nil).mpr ⟨header, hh, rfl⟩,
      bind_eq_ok.mpr ⟨_, mapError_eq_ok.mpr hstream.1, map_eq_ok.mpr ⟨_, ?_, rfl⟩⟩⟩
    exact checkMember_eq_ok.mpr ⟨trailer, after, rfl, hstream.2, hfits, rfl⟩

theorem raises_inflate {body : Bytes} :
    Raises .zlibError ((Z.inflate body).mapError fun msg => (⟨.zlibError, msg⟩ : Exc)) := by
  cases Z.inflate body with
  | ok r => nofun
  | error msg =>
    intro e he
    rw [← Except.error.inj he]

theorem readMember_osError : FailsAs .osError (readMember Z data) ↔
    ((data ≠ [] ∧ data.take 2 ≠ magic) ∨
      ∃ method fields, data = magic ++ method :: fields ∧ method ≠ 8 ∧ 7 ≤ fields.length) ∨
    ∃ header body output trailer after, data = header ++ body ∧ IsHeader header ∧
      Stream Z body output trailer after ∧ ¬ Fits output trailer := by
  rw [readMember, failsAs_bind_iff, readGzipHeader_osError]
  refine or_congr Iff.rfl ⟨?_, ?_⟩
  · rintro ⟨header, hheader, h⟩
    cases header with
    | none => exact absurd h (not_failsAs_ok _)
    | some body =>
      obtain ⟨r, hr, h⟩ := (failsAs_bind_iff.mp h).resolve_left (raises_inflate.not_failsAs rfl)
      obtain ⟨output, trailer, after, rfl, hlen, hfits⟩ :=
        checkMember_osError.mp (failsAs_map_iff.mp h)
      have hstream : Stream Z body output trailer after := ⟨mapError_eq_ok.mp hr, hlen⟩
      obtain ⟨header, hh, rfl⟩ := (readGzipHeader_eq_some hstream.body_ne_nil).mp hheader
      exact ⟨header, body, output, trailer, after, rfl, hh, hstream, hfits⟩
  · rintro ⟨header, body, output, trailer, after, rfl, hh, hstream, hfits⟩
    refine ⟨some body, (readGzipHeader_eq_some hstream.body_ne_nil).mpr ⟨header, hh, rfl⟩,
      failsAs_bind_iff.mpr (.inr ⟨_, mapError_eq_ok.mpr hstream.1, failsAs_map_iff.mpr ?_⟩)⟩
    exact checkMember_osError.mpr ⟨output, trailer, after, rfl, hstream.2, hfits⟩

theorem readMember_length_lt (h : readMember Z data = .ok (some (output, rest))) :
    rest.length < data.length := by
  obtain ⟨header, body, trailer, after, rfl, -, hstream, -, rfl⟩ := readMember_eq_some.mp h
  have := hstream.unpad_length_lt
  rw [List.length_append]
  omega

end

/-! ## Files -/

/-- `gzip.decompress`: the outputs of the members, joined. -/
def gzipDecompress (Z : Deflate) (data : Bytes) : Py Bytes :=
  match _h : readMember Z data with
  | .error e => .error e
  | .ok none => .ok []
  | .ok (some (output, rest)) => do
    let outputs ← gzipDecompress Z rest
    pure (output ++ outputs)
termination_by data.length
decreasing_by exact readMember_length_lt _h

section
variable {Z : Deflate} {data output : Bytes}

theorem gzipDecompress_eq : gzipDecompress Z data = readMember Z data >>= fun
    | none => .ok []
    | some (output, rest) => gzipDecompress Z rest >>= fun outputs => .ok (output ++ outputs) := by
  rw [gzipDecompress]
  split <;> rename_i h <;> rw [h] <;> rfl

/-- The exceptions of `gzip.decompress`. -/
def GzipExc (e : Exc) : Prop :=
  e.cls = .badGzipFile ∨ e.cls = .eofError ∨ e.cls = .zlibError

theorem yields_map {α β : Type} {E : Exc → Prop} {f : α → β} {x : Py α}
    (h : Yields (fun _ => True) E x) : Yields (fun _ => True) E (f <$> x) := by
  cases x with
  | error e => exact h
  | ok a => trivial

theorem Raises.gzipExc {α : Type} {c : ExcClass} {x : Py α} (h : Raises c x)
    (hc : c = .eofError ∨ c = .zlibError) : Yields (fun _ => True) GzipExc x := by
  cases x with
  | error e =>
    rw [← h e rfl] at hc
    exact .inr hc
  | ok a => trivial

theorem yields_readMember : Yields (fun _ => True) GzipExc (readMember Z data) := by
  have hheader : Yields (fun _ => True) GzipExc (readGzipHeader data) := by
    rw [readGzipHeader]
    split_ifs
    · exact .pure trivial
    · exact .throw (.inl rfl)
    · exact .bind (raises_readExact.gzipExc (.inl rfl)) fun p _ _ =>
        .guard (fun _ => .inl rfl) fun _ => yields_map (raises_skipOptions.gzipExc (.inl rfl))
  refine .bind hheader fun header _ _ => ?_
  cases header with
  | none => exact .pure trivial
  | some body =>
    refine .bind (raises_inflate.gzipExc (.inr rfl)) fun r _ _ => yields_map ?_
    exact .guard (fun _ => .inr (.inl rfl)) fun _ => .guard (fun _ => .inl rfl) fun _ =>
      .guard (fun _ => .inl rfl) fun _ => .pure trivial

theorem yields_gzipDecompress : Yields (fun _ => True) GzipExc (gzipDecompress Z data) := by
  induction data using (measure List.length).wf.induction with
  | _ data ih =>
    rw [gzipDecompress_eq]
    refine .bind yields_readMember fun member hmember _ => ?_
    cases member with
    | none => trivial
    | some p => exact .bind (ih p.2 (readMember_length_lt hmember)) fun _ _ _ => trivial

theorem gzipDecompress_eq_ok : gzipDecompress Z data = .ok output ↔ Contents Z data output := by
  constructor
  · intro h
    induction data using (measure List.length).wf.induction generalizing output with
    | _ data ih =>
      rw [gzipDecompress_eq, bind_eq_ok] at h
      obtain ⟨member, hmember, h⟩ := h
      cases member with
      | none =>
        rw [readMember_eq_none.mp hmember, ← Except.ok.inj h]
        exact .nil
      | some p =>
        obtain ⟨out, rest⟩ := p
        obtain ⟨outputs, houts, hjoin⟩ := bind_eq_ok.mp h
        have hrest := ih rest (readMember_length_lt hmember) houts
        obtain ⟨header, body, trailer, after, rfl, hh, hstream, hfits, rfl⟩ :=
          readMember_eq_some.mp hmember
        rw [← Except.ok.inj hjoin]
        exact .member hh hstream hfits hrest
  · intro h
    induction h with
    | nil => rw [gzipDecompress_eq, readMember_eq_none.mpr rfl, ok_bind]
    | member hheader hstream hfits _ ih =>
      have hmember := readMember_eq_some.mpr ⟨_, _, _, _, rfl, hheader, hstream, hfits, rfl⟩
      rw [gzipDecompress_eq, hmember, ok_bind]
      dsimp only
      rw [ih, ok_bind]

theorem gzipDecompress_osError : FailsAs .osError (gzipDecompress Z data) ↔ Defective Z data := by
  constructor
  · intro h
    induction data using (measure List.length).wf.induction with
    | _ data ih =>
      rw [gzipDecompress_eq, failsAs_bind_iff, readMember_osError] at h
      rcases h with ((⟨hne, hmagic⟩ | ⟨method, fields, rfl, hmethod, hlen⟩) |
        ⟨header, body, output, trailer, after, rfl, hh, hstream, hfits⟩) | ⟨member, hmember, h⟩
      · exact .magic hne hmagic
      · exact .method hmethod hlen
      · exact .check hh hstream hfits
      · cases member with
        | none => exact absurd h (not_failsAs_ok _)
        | some p =>
          obtain ⟨out, rest⟩ := p
          have hrest := ih rest (readMember_length_lt hmember)
            ((failsAs_bind_iff.mp h).resolve_right fun ⟨_, _, h⟩ => not_failsAs_ok _ h)
          obtain ⟨header, body, trailer, after, rfl, hh, hstream, hfits, rfl⟩ :=
            readMember_eq_some.mp hmember
          exact .member hh hstream hfits hrest
  · intro h
    have hround : ∀ {data}, FailsAs .osError (readMember Z data) →
        FailsAs .osError (gzipDecompress Z data) := fun h => by
      rw [gzipDecompress_eq, failsAs_bind_iff]
      exact .inl h
    induction h with
    | magic hne hmagic => exact hround (readMember_osError.mpr (.inl (.inl ⟨hne, hmagic⟩)))
    | method hmethod hlen =>
      exact hround (readMember_osError.mpr (.inl (.inr ⟨_, _, rfl, hmethod, hlen⟩)))
    | check hheader hstream hfits =>
      exact hround (readMember_osError.mpr (.inr ⟨_, _, _, _, _, rfl, hheader, hstream, hfits⟩))
    | member hheader hstream hfits _ ih =>
      have hmember := readMember_eq_some.mpr ⟨_, _, _, _, rfl, hheader, hstream, hfits, rfl⟩
      rw [gzipDecompress_eq, failsAs_bind_iff]
      exact .inr ⟨_, hmember, failsAs_bind_iff.mpr (.inl ih)⟩

end

end Shadownet.Python
