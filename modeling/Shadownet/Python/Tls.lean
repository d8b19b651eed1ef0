import Shadownet.Foundation.Split
import Shadownet.Foundation.Trace
import Shadownet.Python.Addressing
import Shadownet.Python.Binding

/-!
# TLS pins of direct connections

`shadownet/tls.py`. A certificate is known by its fingerprint. A call of `verify_tls_pin`
compares it with the pin of the URI, or else with the one recorded for the host and port.

* `final_verifyTlsPin`: after any calls the store holds, for each host and port, the
  fingerprint of the first call there without a URI pin.
* `accepts_pin_iff`: a pin accepts the certificates whose digest it spells in the canonical
  way.
-/

namespace Shadownet.Python

open Foundation

def tlsPinMismatchError (msg : Text) : Exc := ⟨.tlsPinMismatchError, msg⟩

def computeCertFingerprint (G : Runtime) (derBytes : Bytes) : Text := base64Url (G.sha256 derBytes)

/-! ## The store -/

/-- `InMemoryTLSPinStore`: the recorded fingerprint of each `host:port`. -/
abbrev PinStore := Text → Option Text

/-- `InMemoryTLSPinStore()`. -/
def PinStore.empty : PinStore := fun _ => none

def PinStore.record (pins : PinStore) (hostPort fingerprint : Text) : PinStore :=
  Function.update pins hostPort (some fingerprint)

/-- The arguments of `verify_tls_pin`, the store left out. -/
structure PinCall where
  peerCertDer : Bytes
  expectedPin : Option Text
  hostPort : Text

def verifyTlsPin (G : Runtime) (pins : PinStore) (call : PinCall) : PinStore × Py Text :=
  let actual := computeCertFingerprint G call.peerCertDer
  match call.expectedPin with
  | some expected =>
    if actual ≠ expected then
      (pins, throw (tlsPinMismatchError (text "peer cert fingerprint " ++ G.reprStr actual ++
        text " does not match URI pin " ++ G.reprStr expected ++ text " for " ++
        G.reprStr call.hostPort)))
    else (pins, pure actual)
  | none =>
    match pins call.hostPort with
    | some recorded =>
      if actual ≠ recorded then
        (pins, throw (tlsPinMismatchError (text "peer cert fingerprint " ++ G.reprStr actual ++
          text " does not match recorded TOFU pin " ++ G.reprStr recorded ++ text " for " ++
          G.reprStr call.hostPort)))
      else (pins, pure actual)
    | none => (pins.record call.hostPort actual, pure actual)

/-- `_PinnedTransport`. -/
structure PinnedTransport where
  hostPort : Text
  expectedPin : Option Text

/-- The transport of `make_pinned_httpx_client` and of its async sibling. -/
def makePinnedHttpxClient (address : DirectAddress) : PinnedTransport where
  hostPort := address.host ++ 58 :: decimal address.port
  expectedPin := address.tlsPinSha256

/-- The call of `handle_request` for the certificate of a response. -/
def PinnedTransport.call (t : PinnedTransport) (peerCertDer : Bytes) : PinCall :=
  ⟨peerCertDer, t.expectedPin, t.hostPort⟩

/-! ## What a call does -/

theorem computeCertFingerprint_eq_iff {G : Runtime} {der der' : Bytes} :
    computeCertFingerprint G der = computeCertFingerprint G der' ↔ G.sha256 der = G.sha256 der' :=
  ⟨base64Url_injective, fun h => by rw [computeCertFingerprint, computeCertFingerprint, h]⟩

theorem verifyTlsPin_pinned {G : Runtime} {pins : PinStore} {call : PinCall} {pin : Text}
    (h : call.expectedPin = some pin) :
    (verifyTlsPin G pins call).1 = pins ∧
      ((verifyTlsPin G pins call).2.isOk = true ↔
        computeCertFingerprint G call.peerCertDer = pin) := by
  simp only [verifyTlsPin, h]
  by_cases heq : computeCertFingerprint G call.peerCertDer = pin
  · rw [if_neg (not_not.mpr heq)]
    exact ⟨rfl, iff_of_true rfl heq⟩
  · rw [if_pos heq]
    exact ⟨rfl, iff_of_false nofun heq⟩

theorem verifyTlsPin_recorded {G : Runtime} {pins : PinStore} {call : PinCall} {pin : Text}
    (h : call.expectedPin = none) (hpin : pins call.hostPort = some pin) :
    (verifyTlsPin G pins call).1 = pins ∧
      ((verifyTlsPin G pins call).2.isOk = true ↔
        computeCertFingerprint G call.peerCertDer = pin) := by
  simp only [verifyTlsPin, h, hpin]
  by_cases heq : computeCertFingerprint G call.peerCertDer = pin
  · rw [if_neg (not_not.mpr heq)]
    exact ⟨rfl, iff_of_true rfl heq⟩
  · rw [if_pos heq]
    exact ⟨rfl, iff_of_false nofun heq⟩

theorem verifyTlsPin_first {G : Runtime} {pins : PinStore} {call : PinCall}
    (h : call.expectedPin = none) (hpin : pins call.hostPort = none) :
    verifyTlsPin G pins call =
      (pins.record call.hostPort (computeCertFingerprint G call.peerCertDer),
        .ok (computeCertFingerprint G call.peerCertDer)) := by
  simp only [verifyTlsPin, h, hpin]
  rfl

/-- What a call leaves in the store: a fingerprint comes in only where there was none. -/
theorem verifyTlsPin_store (G : Runtime) (pins : PinStore) (call : PinCall) (hostPort : Text) :
    (verifyTlsPin G pins call).1 hostPort = (pins hostPort).or
      (if call.expectedPin = none ∧ call.hostPort = hostPort then
        some (computeCertFingerprint G call.peerCertDer) else none) := by
  cases hpin : call.expectedPin with
  | some pin => rw [(verifyTlsPin_pinned hpin).1, if_neg (by simp), Option.or_none]
  | none =>
    by_cases hkey : call.hostPort = hostPort
    · subst hkey
      cases hrec : pins call.hostPort with
      | some pin => rw [(verifyTlsPin_recorded hpin hrec).1, hrec, Option.some_or]
      | none =>
        rw [verifyTlsPin_first hpin hrec, if_pos ⟨rfl, rfl⟩, Option.none_or]
        exact Function.update_self ..
    · rw [if_neg (fun h => hkey h.2), Option.or_none]
      cases hrec : pins call.hostPort with
      | some pin => rw [(verifyTlsPin_recorded hpin hrec).1]
      | none =>
        rw [verifyTlsPin_first hpin hrec]
        exact Function.update_of_ne (Ne.symm hkey) ..

/-- A call that raises or carries a pin of its own leaves the store alone. -/
theorem verifyTlsPin_quiet {G : Runtime} {pins : PinStore} {call : PinCall}
    (h : call.expectedPin ≠ none ∨ (verifyTlsPin G pins call).2.isOk = false) :
    (verifyTlsPin G pins call).1 = pins := by
  cases hpin : call.expectedPin with
  | some pin => exact (verifyTlsPin_pinned hpin).1
  | none =>
    cases hrec : pins call.hostPort with
    | some pin => exact (verifyTlsPin_recorded hpin hrec).1
    | none =>
      rw [verifyTlsPin_first hpin hrec] at h
      rcases h with h | h
      · exact absurd hpin h
      · cases h

/-! ## Trust on first use -/

/-- The first call without a URI pin at a host and port. -/
def firstUse (calls : List PinCall) (hostPort : Text) : Option PinCall :=
  calls.find? fun call => call.expectedPin = none ∧ call.hostPort = hostPort

/-- After any calls the store holds the fingerprints of the first uses. -/
theorem final_verifyTlsPin (G : Runtime) (calls : List PinCall) (hostPort : Text) :
    final (verifyTlsPin G) .empty calls hostPort =
      (firstUse calls hostPort).map fun call => computeCertFingerprint G call.peerCertDer := by
  induction calls using List.reverseRecOn with
  | nil => rfl
  | append_singleton calls call ih =>
    rw [final_concat, verifyTlsPin_store, ih, firstUse, firstUse, List.find?_append,
      Option.map_or]
    congr 1
    by_cases hfirst : call.expectedPin = none ∧ call.hostPort = hostPort
    · simp [hfirst]
    · simp [hfirst]

/-- A call without a URI pin is accepted when its certificate has the digest of the first
use, its own if it is the first. -/
theorem accepts_unpinned_iff {G : Runtime} {pre : List PinCall} {call first : PinCall}
    (hpin : call.expectedPin = none)
    (hfirst : firstUse (pre ++ [call]) call.hostPort = some first) :
    (verifyTlsPin G (final (verifyTlsPin G) .empty pre) call).2.isOk = true ↔
      G.sha256 call.peerCertDer = G.sha256 first.peerCertDer := by
  have hstore := final_verifyTlsPin G pre call.hostPort
  rw [firstUse, List.find?_append] at hfirst
  cases huse : firstUse pre call.hostPort with
  | some use =>
    rw [huse, Option.map_some] at hstore
    rw [firstUse] at huse
    rw [huse, Option.some_or] at hfirst
    obtain rfl := Option.some.inj hfirst
    rw [(verifyTlsPin_recorded hpin hstore).2, computeCertFingerprint_eq_iff]
  | none =>
    rw [huse, Option.map_none] at hstore
    rw [firstUse] at huse
    rw [huse, Option.none_or, List.find?_cons_of_pos (by simp [hpin])] at hfirst
    obtain rfl := Option.some.inj hfirst
    rw [verifyTlsPin_first hpin hstore]
    exact iff_of_true rfl rfl

theorem hostPort_injective {a b : DirectAddress}
    (h : (makePinnedHttpxClient a).hostPort = (makePinnedHttpxClient b).hostPort) :
    a.host = b.host ∧ a.port = b.port := by
  have hcolon : ∀ n : Int, (58 : CodePoint) ∉ decimal n := by
    intro n hmem
    have hnat : ∀ m : Nat, (58 : CodePoint) ∉ natText m := fun m hm =>
      absurd (isDigit_of_mem_natText hm) (by decide)
    rw [decimal, intText] at hmem
    split_ifs at hmem with hneg
    · rcases List.mem_cons.mp hmem with hmem | hmem
      · cases hmem
      · exact hnat _ hmem
    · exact hnat _ hmem
  -- A host may hold colons, so the cut is at the last one.
  obtain ⟨hhost, hport⟩ := cut_last_unique (hcolon _) (hcolon _) h
  have hstops : Stops [] := nofun
  have hdecimal : intText a.port ++ [] = intText b.port ++ [] := congrArg (· ++ []) hport
  exact ⟨hhost, (intText_unique hstops hstops hdecimal).1⟩

/-- **Trust on first use is stable.** -/
theorem trust_on_first_use (G : Runtime) (calls : List PinCall) :
    (∀ hostPort first, firstUse calls hostPort = some first →
      ∀ call out, (call, out) ∈ history (verifyTlsPin G) .empty calls →
        call.expectedPin = none → call.hostPort = hostPort →
        (out.isOk = true ↔ G.sha256 call.peerCertDer = G.sha256 first.peerCertDer)) ∧
    (∀ pre call post, calls = pre ++ call :: post →
      (call.expectedPin ≠ none ∨
        (verifyTlsPin G (final (verifyTlsPin G) .empty pre) call).2.isOk = false) →
      final (verifyTlsPin G) .empty (pre ++ [call]) = final (verifyTlsPin G) .empty pre ∧
      history (verifyTlsPin G) .empty (pre ++ post) =
        history (verifyTlsPin G) .empty pre ++
          history (verifyTlsPin G) (final (verifyTlsPin G) .empty (pre ++ [call])) post) ∧
    ∀ a b : DirectAddress,
      (makePinnedHttpxClient a).hostPort = (makePinnedHttpxClient b).hostPort →
        a.host = b.host ∧ a.port = b.port := by
  refine ⟨?_, ?_, fun a b => hostPort_injective⟩
  · rintro hostPort first hfirst call out hmem hpin rfl
    obtain ⟨pre, post, rfl, rfl⟩ := exists_of_mem_history (verifyTlsPin G) hmem
    refine accepts_unpinned_iff hpin ?_
    rw [firstUse, List.find?_append] at hfirst ⊢
    rw [List.find?_cons_of_pos (by simp [hpin])] at hfirst ⊢
    exact hfirst
  · rintro pre call post rfl hquiet
    have hstore : final (verifyTlsPin G) .empty (pre ++ [call]) =
        final (verifyTlsPin G) .empty pre := by
      rw [final_concat]
      exact verifyTlsPin_quiet hquiet
    exact ⟨hstore, by rw [hstore, history_append]⟩

/-! ## Pins of URIs -/

/-- The bytes a pin fragment decodes to. -/
def pinDigest (G : Runtime) (fragment : Text) : Py Bytes :=
  urlsafeB64decode (pinFingerprint G fragment ++ padding (pinFingerprint G fragment))

/-- A fragment whose last character has no bits that the digest does not use. -/
def CanonicalEnd (fragment : Text) : Prop :=
  (fragment.getLast?.any fun c => (text "AEIMQUYcgkosw048").contains c) = true

instance (fragment : Text) : Decidable (CanonicalEnd fragment) :=
  inferInstanceAs (Decidable (_ = true))

theorem parseTlsPin_eq_ok {G : Runtime} {fragment pin : Text} :
    parseTlsPin G fragment = .ok pin ↔ fingerprintRe (pinFingerprint G fragment) = true ∧
      (∃ digest, pinDigest G fragment = .ok digest ∧ digest.length = 32) ∧
      pin = pinFingerprint G fragment := by
  simp only [parseTlsPin, guard_eq_ok, bind_eq_ok, reraise_eq_ok, pure_eq_ok, pinDigest, ne_eq,
    not_not]
  constructor
  · rintro ⟨hre, digest, hdec, hlen, rfl⟩
    exact ⟨hre, ⟨digest, hdec, hlen⟩, rfl⟩
  · rintro ⟨hre, ⟨digest, hdec, hlen⟩, rfl⟩
    exact ⟨hre, digest, hdec, hlen, rfl⟩

/-- The text of a list of sextets. -/
def sextetText (xs : List Nat) : Text := (xs.map sextetCode).map (Fin.ofNat 0x110000)

theorem exists_sextetText {s : Text}
    (h : (s.all fun c => isAlnum c || c == 95 || c == 45) = true) :
    ∃ xs, (∀ x ∈ xs, x < 64) ∧ s = sextetText xs := by
  have hchar : ∀ c ∈ s, ∃ x, urlSextet c.val = some x := by
    intro c hc
    have hc := List.all_eq_true.mp h c hc
    simp only [Bool.or_eq_true, beq_iff_eq, isAlnum, Bool.and_eq_true, decide_eq_true_eq] at hc
    unfold urlSextet alphanumSextet
    split_ifs with h1 h2 h3 h4 h5
    · exact ⟨_, rfl⟩
    · exact ⟨_, rfl⟩
    · exact ⟨_, rfl⟩
    · exact ⟨_, rfl⟩
    · exact ⟨_, rfl⟩
    · rcases hc with (hc | rfl) | rfl
      · omega
      · exact absurd rfl h2
      · exact absurd rfl h1
  induction s with
  | nil => exact ⟨[], nofun, rfl⟩
  | cons c s ih =>
    rw [List.all_cons, Bool.and_eq_true] at h
    rw [List.forall_mem_cons] at hchar
    obtain ⟨x, hx⟩ := hchar.1
    obtain ⟨hlt, hcode⟩ := sextetCode_urlSextet hx
    obtain ⟨xs, hxs, rfl⟩ := ih h.2 hchar.2
    refine ⟨x :: xs, List.forall_mem_cons.mpr ⟨hlt, hxs⟩, ?_⟩
    have hc : c = Fin.ofNat 0x110000 (sextetCode x) := by
      rw [hcode]
      exact (Fin.ofNat_val_eq_self c).symm
    rw [sextetText, sextetText, List.map_cons, List.map_cons, ← hc]

theorem sextetText_injective {xs ys : List Nat} (hx : ∀ x ∈ xs, x < 64) (hy : ∀ y ∈ ys, y < 64)
    (h : sextetText xs = sextetText ys) : xs = ys := by
  have hback : ∀ zs : List Nat, (∀ z ∈ zs, z < 64) →
      (sextetText zs).map (fun c => (urlSextet c.val).getD 0) = zs := by
    intro zs hz
    rw [sextetText, List.map_map, List.map_map]
    conv_rhs => rw [← List.map_id zs]
    refine List.map_congr_left fun z hmem => ?_
    have hlt := hz z hmem
    have hval : (Fin.ofNat 0x110000 (sextetCode z)).val = sextetCode z := by
      have := sextetCode_alphabet hlt
      simp only [Fin.ofNat]
      omega
    rw [Function.comp_apply, Function.comp_apply, hval, urlSextet_sextetCode hlt]
    rfl
  rw [← hback xs hx, h, hback ys hy]

/-- An accepted pin is a text of sextets, without the line end the pattern tolerates. -/
theorem sextets_of_parseTlsPin {G : Runtime} {fragment pin : Text} {digest : Bytes}
    (h : parseTlsPin G fragment = .ok pin) (hd : pinDigest G fragment = .ok digest) :
    ∃ xs, (∀ x ∈ xs, x < 64) ∧ xs.length = 43 ∧ unsextets xs = some digest ∧
      pin = sextetText xs := by
  obtain ⟨hre, ⟨digest', hd', hlen⟩, rfl⟩ := parseTlsPin_eq_ok.mp h
  rw [hd, Except.ok.injEq] at hd'
  subst hd'
  have hcode : ∀ {xs : List Nat}, (∀ x ∈ xs, x < 64) → ∀ c ∈ xs.map sextetCode, c < 0x80 := by
    intro xs hx c hc
    obtain ⟨x, hmem, rfl⟩ := List.mem_map.mp hc
    have := sextetCode_alphabet (hx x hmem)
    omega
  rw [pinDigest] at hd
  rw [fingerprintRe, matchesBeforeEnd, Bool.or_eq_true, Bool.and_eq_true, Bool.and_eq_true,
    Bool.and_eq_true, beq_iff_eq] at hre
  rcases hre with ⟨-, hall⟩ | ⟨hlast, -, hall⟩
  · obtain ⟨xs, hx, hs⟩ := exists_sextetText hall
    rw [hs, sextetText, urlsafeB64decode_padded (hcode hx), List.length_map,
      mapError_eq_ok, lenientDecode, lenientFrom_sextets hx] at hd
    have := length_of_unsextets hd
    exact ⟨xs, hx, by omega, hd, hs⟩
  · -- The line end completes the last group, so that its characters are not decoded.
    obtain ⟨t, ht⟩ := List.getLast?_eq_some_iff.mp hlast
    rw [ht, List.dropLast_concat] at hall
    obtain ⟨xs, hx, rfl⟩ := exists_sextetText hall
    have hline : sextetText xs ++ [10] =
        (xs.map sextetCode ++ [10]).map (Fin.ofNat 0x110000) := by
      rw [List.map_append]
      rfl
    have hcode' : ∀ c ∈ xs.map sextetCode ++ [10], c < 0x80 := by
      intro c hc
      rcases List.mem_append.mp hc with hc | hc
      · exact hcode hx c hc
      · rw [List.mem_singleton.mp hc]
        decide
    rw [ht, hline, urlsafeB64decode_padded hcode', mapError_eq_ok, lenientDecode,
      List.append_assoc, List.length_append, List.length_map] at hd
    have := lenientFrom_lineEnd hx hd
    omega

/-- The last character of a text of sextets says whether its last bits are clear. -/
theorem canonicalEnd_sextetText {xs : List Nat} (hx : ∀ x ∈ xs, x < 64) (hlen : xs.length = 43) :
    CanonicalEnd (sextetText xs) ↔ ClearTail xs := by
  have hset : ∀ x < 64, Fin.ofNat 0x110000 (sextetCode x) ∈ text "AEIMQUYcgkosw048" ↔
      x % 4 = 0 := by
    decide
  have hne : xs ≠ [] := by
    rintro rfl
    cases hlen
  obtain ⟨ys, y, rfl⟩ := List.eq_nil_or_concat xs |>.resolve_left hne
  rw [List.concat_eq_append] at hx hlen ⊢
  have hlast : (sextetText (ys ++ [y])).getLast? = some (Fin.ofNat 0x110000 (sextetCode y)) := by
    rw [sextetText, List.map_append, List.map_append]
    exact List.getLast?_concat
  rw [clearTail_of_mod (by omega), List.getLastD_concat, CanonicalEnd, hlast]
  rw [Option.any_some, List.contains_iff_mem]
  exact hset y (hx y (by simp))

/-- The prefix of a fragment does not change its end. -/
theorem canonicalEnd_pinFingerprint {G : Runtime} {fragment : Text}
    (h : pinFingerprint G fragment ≠ []) :
    CanonicalEnd fragment ↔ CanonicalEnd (pinFingerprint G fragment) := by
  have hlast : (pinFingerprint G fragment).getLast? = fragment.getLast? := by
    rw [pinFingerprint] at h ⊢
    split_ifs at h ⊢ with hpre
    · rw [List.getLast?_drop, if_neg]
      intro hle
      exact h (List.drop_eq_nil_of_le hle)
    · rfl
  rw [CanonicalEnd, CanonicalEnd, hlast]

/-- A pin accepts the certificates whose digest it spells in the canonical way. -/
theorem accepts_pin_iff {G : Runtime} {fragment pin : Text} {digest : Bytes}
    (h : parseTlsPin G fragment = .ok pin) (hd : pinDigest G fragment = .ok digest)
    (pins : PinStore) (der : Bytes) (hostPort : Text) :
    (verifyTlsPin G pins ⟨der, some pin, hostPort⟩).2.isOk = true ↔
      G.sha256 der = digest ∧ CanonicalEnd fragment := by
  obtain ⟨xs, hx, hlen, hdec, rfl⟩ := sextets_of_parseTlsPin h hd
  have hne : sextetText xs ≠ [] := by
    rw [← List.length_pos_iff, sextetText, List.length_map, List.length_map]
    omega
  have hend : CanonicalEnd fragment ↔ ClearTail xs := by
    rw [← canonicalEnd_sextetText hx hlen, (parseTlsPin_eq_ok.mp h).2.2]
    exact canonicalEnd_pinFingerprint (by rw [← (parseTlsPin_eq_ok.mp h).2.2]; exact hne)
  rw [(verifyTlsPin_pinned rfl).2, hend, ← sextets_unsextets hx hdec]
  constructor
  · intro heq
    have hsext : sextets (G.sha256 der) = xs :=
      sextetText_injective (sextets_lt _) hx heq
    have hsha : G.sha256 der = digest := by
      have hback := unsextets_sextets (G.sha256 der)
      rw [hsext, hdec] at hback
      exact (Option.some.inj hback).symm
    exact ⟨hsha, hsha ▸ hsext⟩
  · rintro ⟨rfl, hsext⟩
    rw [computeCertFingerprint, base64Url, base64UrlCodes, hsext]
    rfl

/-- **Pins mean digests** when their last characters are canonical, or for other certificates. -/
theorem pin_means_digest_iff {G : Runtime} {fragment fragment' pin pin' : Text} {digest : Bytes}
    (h : parseTlsPin G fragment = .ok pin) (hd : pinDigest G fragment = .ok digest)
    (h' : parseTlsPin G fragment' = .ok pin') (hd' : pinDigest G fragment' = .ok digest)
    (pins : PinStore) (der : Bytes) (hostPort : Text) :
    let accepts := fun pin => (verifyTlsPin G pins ⟨der, some pin, hostPort⟩).2.isOk = true
    ((G.sha256 der = digest → accepts pin) ∧ (G.sha256 der ≠ digest → ¬ accepts pin) ∧
        (accepts pin ↔ accepts pin')) ↔
      (G.sha256 der = digest → CanonicalEnd fragment ∧ CanonicalEnd fragment') := by
  intro accepts
  have hpin : accepts pin ↔ G.sha256 der = digest ∧ CanonicalEnd fragment :=
    accepts_pin_iff h hd pins der hostPort
  have hpin' : accepts pin' ↔ G.sha256 der = digest ∧ CanonicalEnd fragment' :=
    accepts_pin_iff h' hd' pins der hostPort
  rw [hpin, hpin']
  constructor
  · rintro ⟨haccept, -, hsame⟩ hsha
    have hcanonical := haccept hsha
    exact ⟨hcanonical.2, (hsame.mp hcanonical).2⟩
  · intro hcanonical
    refine ⟨fun hsha => ⟨hsha, (hcanonical hsha).1⟩, fun hsha hpin => hsha hpin.1, ?_⟩
    exact and_congr_right fun hsha => iff_of_true (hcanonical hsha).1 (hcanonical hsha).2

/-- The SHA-256 of the DER bytes `30 00`. -/
def emptySequenceDigest : Bytes :=
  [228, 246, 13, 10, 166, 215, 243, 211, 182, 166, 73, 75, 28, 134, 27, 153, 246, 73, 198, 249,
    236, 81, 171, 175, 32, 27, 32, 242, 151, 50, 124, 149]

def pinRuntime : Runtime := { bareRuntime with sha256 := fun _ => emptySequenceDigest }

def canonicalPin : Text := text "5PYNCqbX89O2pklLHIYbmfZJxvnsUauvIBsg8pcyfJU"

/-- The same digest, with a bit that no byte uses. -/
def otherPin : Text := text "5PYNCqbX89O2pklLHIYbmfZJxvnsUauvIBsg8pcyfJV"

theorem pin_means_digest_canonical :
    let accepts := fun pin =>
      (verifyTlsPin pinRuntime .empty ⟨[48, 0], some pin, text "a.co:443"⟩).2.isOk = true
    (pinRuntime.sha256 [48, 0] = emptySequenceDigest → accepts canonicalPin) ∧
      (pinRuntime.sha256 [48, 0] ≠ emptySequenceDigest → ¬ accepts canonicalPin) ∧
      (accepts canonicalPin ↔ accepts canonicalPin) :=
  (@pin_means_digest_iff pinRuntime (text "sha256:" ++ canonicalPin)
    (text "SHA256:" ++ canonicalPin) canonicalPin canonicalPin emptySequenceDigest
    (by decide +kernel) (by decide +kernel) (by decide +kernel) (by decide +kernel) .empty [48, 0]
    (text "a.co:443")).mpr fun _ => by decide

/-- A pin that decodes to the digest of the certificate refuses it. -/
theorem pin_refuses_its_digest :
    parseTlsPin pinRuntime (text "sha256:" ++ otherPin) = .ok otherPin ∧
      pinDigest pinRuntime (text "sha256:" ++ otherPin) =
        .ok (pinRuntime.sha256 [48, 0]) ∧
      (verifyTlsPin pinRuntime .empty ⟨[48, 0], some otherPin, text "a.co:443"⟩).2.isOk =
        false := by
  decide +kernel

end Shadownet.Python
