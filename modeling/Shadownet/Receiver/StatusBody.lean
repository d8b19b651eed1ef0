import Shadownet.Python.Gzip
import Shadownet.Python.StatusFetch
import Shadownet.Receiver.Paths

/-!
# Bodies that are no revocation list

`decode_status_list` catches the `OSError` of `gzip.decompress` and bounds neither its input nor
its output. The other exceptions of `gzip.decompress`, for a file that is cut off or a stream that
cannot be read, pass through it, through the check of the revocation and through the receiver.

* `decodeStatusList_failsClosed_iff`: the bodies that are decoded within the bound or refused
  with a `StatusListError`.
-/

namespace Shadownet.Receiver

open Foundation Foundation.Gzip Python

/-! ## The revocation step -/

/-- A check that raises only a `StatusListError` is mapped to a `CredsRejectedError`. -/
theorem raises_revocationStep {cred : VerifiedCredential} {answer r : Py Unit}
    (h : Fallible.Path (revocationStep cred) [⟨.revocationCheck cred, answer⟩] r)
    (hanswer : Raises .statusListError answer) : Raises .credsRejectedError r := by
  obtain ⟨q, hq, rfl⟩ := Fallible.path_mapOutcome.mp h
  obtain ⟨a, hcalls, rfl⟩ := path_askPy.mp hq
  cases hcalls
  have hcaught : [ExcClass.statusListError].any ExcClass.statusListError.isA = true := by decide
  exact hanswer.reraise hcaught fun _ => rfl

/-! ## Failing closed -/

/-- A status endpoint that answers with `body`, whatever the URL. -/
def serving (Z : Deflate) (body : Text) (cacheControl : Option Text) (int : Text → Option Int) :
    StatusClient where
  get _ := pure ⟨200, body, cacheControl⟩
  decompress := gzipDecompress Z
  int := int

/-- Decoding returns a list within the bound or raises a `StatusListError`, and the receiver
rejects the credentials of the lists that are not returned. -/
structure FailsClosed (Z : Deflate) (body : Text) : Prop where
  decoded : Yields
    (fun l : StatusList => 0 < l.bits.length ∧ l.bits.length ≤ maxStatusBodyBytes ∧
      l.size = 8 * l.bits.length)
    (fun e => e.cls = .statusListError) (decodeStatusList (gzipDecompress Z) body)
  rejected : ∀ {G cacheControl int cred r},
    Fallible.Path (revocationStep cred)
      [⟨.revocationCheck cred, checkRevocation G (serving Z body cacheControl int) cred⟩] r →
    Raises .credsRejectedError r

/-- The compressed bytes are a complete file within the bound, or a defective one. -/
def Settled (Z : Deflate) (data : Bytes) : Prop :=
  Defective Z data ∨ ∃ raw, Contents Z data raw ∧ raw.length ≤ maxStatusBodyBytes

/-- The body is blank, no base64url text, or the text of such a file. -/
def Handled (Z : Deflate) (body : Text) : Prop :=
  strip body ≠ [] → ∀ data, urlsafeB64decode (strip body ++ padding (strip body)) = .ok data →
    Settled Z data

section
variable {Z : Deflate} {body : Text}

theorem yields_decodeStatusList_iff :
    Yields
      (fun l : StatusList => 0 < l.bits.length ∧ l.bits.length ≤ maxStatusBodyBytes ∧
        l.size = 8 * l.bits.length)
      (fun e => e.cls = .statusListError) (decodeStatusList (gzipDecompress Z) body) ↔
    Handled Z body := by
  rw [decodeStatusList, Handled]
  by_cases hblank : strip body = []
  · rw [if_pos hblank]
    exact iff_of_true rfl fun h => absurd hblank h
  rw [if_neg hblank]
  simp only [ne_eq, hblank, not_false_eq_true, true_imp_iff]
  cases hdata : urlsafeB64decode (strip body ++ padding (strip body)) with
  | error e =>
    have hcaught : [ExcClass.valueError, .binasciiError].any e.cls.isA = true := by
      rw [List.any_cons, urlsafeB64decode_error hdata, Bool.true_or]
    rw [reraise, if_pos hcaught, error_bind]
    exact iff_of_true rfl fun _ h => by cases h
  | ok data =>
    simp only [reraise, ok_bind, Except.ok.injEq, forall_eq', Settled]
    rw [← gzipDecompress_osError]
    simp only [← gzipDecompress_eq_ok]
    cases hraw : gzipDecompress Z data with
    | error e =>
      have hexc : GzipExc e := by
        have h := @yields_gzipDecompress Z data
        rw [hraw] at h
        exact h
      have hraised : FailsAs .osError (.error e : Py Bytes) ↔ e.cls = .badGzipFile := by
        constructor
        · rintro ⟨_, ⟨⟩, hos⟩
          rcases hexc with h | h | h
          · exact h
          · rw [h] at hos
            cases hos
          · rw [h] at hos
            cases hos
        · intro h
          exact ⟨e, rfl, by rw [h]; decide⟩
      rw [hraised, error_bind]
      simp only [reduceCtorEq, false_and, exists_false, or_false]
      by_cases hbad : e.cls = .badGzipFile
      · rw [hbad, if_pos (by decide)]
        exact iff_of_true rfl rfl
      · rw [if_neg (by rcases hexc.resolve_left hbad with h | h <;> rw [h] <;> decide)]
        refine iff_of_false (fun h => ?_) hbad
        have h : e.cls = .statusListError := h
        rw [GzipExc, h] at hexc
        simp at hexc
    | ok raw =>
      have hno : ¬ FailsAs .osError (.ok raw : Py Bytes) := not_failsAs_ok raw
      simp only [hno, false_or, Except.ok.injEq, exists_eq_left', ok_bind]
      by_cases hempty : raw = []
      · rw [if_pos hempty]
        exact iff_of_true rfl (by simp [hempty])
      · rw [if_neg hempty]
        have hpos : 0 < raw.length := List.length_pos_iff.mpr hempty
        exact ⟨fun h => h.2.1, fun h => ⟨hpos, h, mul_comm _ _⟩⟩

/-- Decoding and the receiver fail closed on a body exactly when its file is defective, or complete
and within the bound. -/
theorem decodeStatusList_failsClosed_iff : FailsClosed Z body ↔ Handled Z body := by
  refine ⟨fun h => yields_decodeStatusList_iff.mp h.decoded, fun h => ?_⟩
  have hdecoded := yields_decodeStatusList_iff.mpr h
  refine ⟨hdecoded, fun {G cacheControl int cred r} hpath => raises_revocationStep hpath ?_⟩
  refine raises_checkRevocation (fun url => nofun) fun url response hresponse => ?_
  cases hresponse
  intro e he
  change decodeStatusList (gzipDecompress Z) body = .error e at he
  rw [he] at hdecoded
  exact hdecoded

end

/-! ## A file that is cut off and a block of the reserved type -/

/-- A reader that looks at the type of the first block, and asks for more input. -/
def blockTypes : Deflate where
  inflate
    | [] => .ok ⟨[], false, []⟩
    | b :: _ =>
      if b.toNat / 2 % 4 = 3 then
        .error (text "Error -3 while decompressing data: invalid block type")
      else .ok ⟨[], false, []⟩
  unused_length_le := by
    intro data r h
    cases data with
    | nil =>
      rw [← Except.ok.inj h]
    | cons b data =>
      dsimp only at h
      split_ifs at h
      rw [← Except.ok.inj h]
      exact Nat.zero_le _

/-- An exception of the first member that is no `OSError`. -/
theorem decodeStatusList_uncaught {Z : Deflate} {body : Text} {data : Bytes} {e : Exc}
    (hblank : strip body ≠ [])
    (hdata : urlsafeB64decode (strip body ++ padding (strip body)) = .ok data)
    (he : readMember Z data = .error e) (hos : e.cls.isA .osError = false) :
    decodeStatusList (gzipDecompress Z) body = .error e := by
  have hraw : gzipDecompress Z data = .error e := by rw [gzipDecompress_eq, he, error_bind]
  rw [decodeStatusList, if_neg hblank, hdata]
  simp only [reraise, ok_bind, hraw, List.any_cons, List.any_nil, hos, Bool.or_self,
    Bool.false_eq_true, if_false, error_bind]

theorem FailsClosed.error {Z : Deflate} {body : Text} {e : Exc} (h : FailsClosed Z body)
    (he : decodeStatusList (gzipDecompress Z) body = .error e) : e.cls = .statusListError := by
  have hdecoded := h.decoded
  rw [he] at hdecoded
  exact hdecoded

/-- The magic number alone, and a stream whose only block has the reserved type. -/
theorem decodeStatusList_raises_others :
    decodeStatusList (gzipDecompress blockTypes) (text "H4s") = .error endOfFile ∧
      decodeStatusList (gzipDecompress blockTypes) (text "H4sIAAAAAAAA_wc") =
        .error ⟨.zlibError, text "Error -3 while decompressing data: invalid block type"⟩ ∧
      ¬ FailsClosed blockTypes (text "H4s") ∧
      ¬ FailsClosed blockTypes (text "H4sIAAAAAAAA_wc") := by
  have hshort : decodeStatusList (gzipDecompress blockTypes) (text "H4s") = .error endOfFile :=
    @decodeStatusList_uncaught _ _ [0x1f, 0x8b] _ (by decide) (by decide)
      (by decide +kernel) (by decide)
  have hblock : decodeStatusList (gzipDecompress blockTypes) (text "H4sIAAAAAAAA_wc") =
      .error ⟨.zlibError, text "Error -3 while decompressing data: invalid block type"⟩ :=
    @decodeStatusList_uncaught _ _ [0x1f, 0x8b, 8, 0, 0, 0, 0, 0, 0, 0xff, 7] _
      (by decide) (by decide) (by decide) (by decide)
  refine ⟨hshort, hblock, fun h => ?_, fun h => ?_⟩
  · cases h.error hshort
  · cases h.error hblock

end Shadownet.Receiver
