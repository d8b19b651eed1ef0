import Shadownet.Interop.Faithful
import Shadownet.Interop.Names
import Shadownet.Issuer.Possession
import Shadownet.Python.Binding
import Shadownet.Python.Csr

/-!
# Python requests at the Go issuer

The Go issuer takes the subject's key from the `kid` of a request's header. `mint_csr` sets `alg`
and `typ` only, so the issuer refuses every request that the SDK mints (`csr_never_accepted`).
-/

namespace Shadownet.Interop

open Foundation
open Python (Value)

/-! ## The compact form -/

/-- The compact serialisation of a JWS. -/
def compact (header payload signature : Bytes) : Text :=
  base64Url header ++ 46 :: (base64Url payload ++ 46 :: base64Url signature)

theorem splitOn_compact (header payload signature : Bytes) :
    (compact header payload signature).splitOn 46 =
      [base64Url header, base64Url payload, base64Url signature] := by
  rw [compact, List.splitOn_append_cons_self, List.splitOn_append_cons_self,
    List.splitOn_eq_singleton (dot_not_mem_base64Url header),
    List.splitOn_eq_singleton (dot_not_mem_base64Url payload),
    List.splitOn_eq_singleton (dot_not_mem_base64Url signature)]
  rfl

theorem base64Url_ascii (b : Bytes) : ∀ c ∈ base64Url b, c.IsAscii := by
  intro c hc
  have := base64Url_mem hc
  show c.val < 0x80
  omega

theorem compact_ascii (header payload signature : Bytes) :
    ∀ c ∈ compact header payload signature, c.IsAscii := by
  intro c hc
  simp only [compact, List.mem_append, List.mem_cons] at hc
  rcases hc with hc | rfl | hc | rfl | hc
  · exact base64Url_ascii header c hc
  · decide
  · exact base64Url_ascii payload c hc
  · decide
  · exact base64Url_ascii signature c hc

theorem splitDots_compact (header payload signature : Bytes) :
    Go.splitDots (utf8 (compact header payload signature)) =
      [utf8 (base64Url header), utf8 (base64Url payload), utf8 (base64Url signature)] := by
  rw [splitDots_utf8 (compact_ascii header payload signature), splitOn_compact]
  rfl

theorem codes_base64Url (b : Bytes) : (utf8 (base64Url b)).map UInt8.toNat = base64UrlCodes b := by
  rw [utf8_ascii (base64Url_ascii b), List.map_map, ← base64Url_codes]
  refine List.map_congr_left fun c hc => ?_
  have hlt : c.val < 0x80 := base64Url_ascii b c hc
  rw [Function.comp_apply, toNat_ofNat_of_lt (by omega)]

/-- A segment is decoded in Go. -/
theorem decodeSegment_base64Url (G : Go.Runtime) (b : Bytes) :
    Issuer.decodeSegment G (utf8 (base64Url b)) = .ok b := by
  rw [Issuer.decodeSegment, codes_base64Url, rawUrlDecode_base64Url]
  rfl

/-! ## The header of a request -/

/-- The protected header of a token of the type `typ`. -/
def headerMembers {N : Type} (typ : Text) : List (Text × Json Text N) :=
  [(text "alg", .str (text "EdDSA")), (text "typ", .str typ)]

/-- PyJWT's `encode` with `alg` and `typ` in the headers: a token in the compact form, and these
two members in its protected header, in either order. -/
def PyJwtHeader (G : Python.Runtime) : Prop :=
  ∀ claims seed typ token, typ ≠ [] →
    G.jwtEncode claims seed (headerMembers typ) = .ok token →
    ∃ (doc : Doc) (payload signature : Bytes),
      token = compact (utf8 doc.text) payload signature ∧
      (doc.value = .obj (headerMembers typ) ∨ doc.value = .obj (headerMembers typ).reverse)

/-- The members of the header of a minted request, read by Go. -/
def mintedHeader : List (Bytes × Go.JsonDoc) :=
  [(bytes "alg", .str (bytes "EdDSA")), (bytes "typ", .str (bytes "shadownet-csr+jwt"))]

theorem unmarshalHeader_minted (G : Go.Runtime) {doc : Doc}
    (hdoc : doc.value = .obj (headerMembers Python.csrTyp) ∨
      doc.value = .obj (headerMembers Python.csrTyp).reverse) :
    Issuer.unmarshalHeader G (utf8 doc.text) =
      .ok ⟨bytes "EdDSA", bytes "shadownet-csr+jwt", []⟩ := by
  have hdepth : doc.depth ≤ 10000 := by
    refine Doc.depth_le_of_value ?_
    rcases hdoc with hdoc | hdoc <;> rw [hdoc] <;> exact Nat.succ_le_succ (Nat.zero_le _)
  obtain ⟨members, hvalue, hmembers⟩ : ∃ members, Go.goValue doc.value = .obj members ∧
      (members = mintedHeader ∨ members = mintedHeader.reverse) := by
    rcases hdoc with hdoc | hdoc
    · exact ⟨_, by rw [hdoc]; decide +kernel, .inl rfl⟩
    · exact ⟨_, by rw [hdoc]; decide +kernel, .inr rfl⟩
  have hfields : ∀ name, name = "alg" ∨ name = "typ" ∨ name = "kid" →
      Go.decodeField ["alg", "typ", "kid"] name Go.storeString [] members =
        some (if name = "alg" then bytes "EdDSA"
          else if name = "typ" then bytes "shadownet-csr+jwt" else []) := by
    rintro name (rfl | rfl | rfl) <;> rcases hmembers with rfl | rfl <;> decide +kernel
  rw [Issuer.unmarshalHeader, Issuer.unmarshalStruct, Go.parse_doc doc hdepth, hvalue]
  simp only [hfields _ (.inl rfl), hfields _ (.inr (.inl rfl)), hfields _ (.inr (.inr rfl))]
  rfl

/-- The issuer finds no `kid`. -/
theorem parseAndVerifyCSR_minted (G : Go.Runtime) (V : Go.Verifier) {G' : Python.Runtime}
    (hjwt : PyJwtHeader G') {p : Python.CsrPayload} {key : Python.KeyPair} {token : Text}
    (hmint : Python.mintCsr G' p key = .ok token) (issuerIdentifier : Bytes) (now : Go.Time) :
    Issuer.parseAndVerifyCSR G V issuerIdentifier now (utf8 token) =
      .error (bytes "issuer: CSR header missing kid") := by
  obtain ⟨-, -, seed, -, hencode⟩ := Python.mintCsr_eq_ok.mp hmint
  obtain ⟨doc, payload, signature, rfl, hdoc⟩ := hjwt _ _ _ _ (by decide +kernel) hencode
  have hheader : Issuer.csrHeader G (utf8 (compact (utf8 doc.text) payload signature)) =
      .ok ⟨bytes "EdDSA", bytes "shadownet-csr+jwt", []⟩ := by
    rw [Issuer.csrHeader, splitDots_compact]
    simp only [decodeSegment_base64Url, Except.mapError, ok_bind, unmarshalHeader_minted G hdoc]
  rw [Issuer.parseAndVerifyCSR, Issuer.subjectPubFromTokenUnverified, hheader]
  rfl

/-! ## Acceptance -/

/-- The issuer accepts the minted request at every time of its validity, with the same fields. -/
def CsrAccepted (G : Go.Runtime) (V : Go.Verifier) (issuerIdentifier : Bytes)
    (G' : Python.Runtime) (p : Python.CsrPayload) (key : Python.KeyPair) : Prop :=
  ∃ token, Python.mintCsr G' p key = .ok token ∧
    ∀ now : Go.Time, p.iat ≤ now.unix → now.unix ≤ p.exp →
      Issuer.parseAndVerifyCSR G V issuerIdentifier now (utf8 token) =
        .ok ⟨utf8 p.iss, utf8 p.aud, p.iat, p.exp, ⟨utf8 p.req.kind, utf8 p.req.org⟩⟩

/-- No request of the SDK is accepted: each one is refused for its missing `kid`. -/
theorem csr_never_accepted (G : Go.Runtime) (V : Go.Verifier) (issuerIdentifier : Bytes)
    {G' : Python.Runtime} (hjwt : PyJwtHeader G') (p : Python.CsrPayload) (key : Python.KeyPair) :
    ¬ CsrAccepted G V issuerIdentifier G' p key ∧
    ∀ token, Python.mintCsr G' p key = .ok token → ∀ now,
      Issuer.parseAndVerifyCSR G V issuerIdentifier now (utf8 token) =
        .error (bytes "issuer: CSR header missing kid") := by
  have hrefused : ∀ token, Python.mintCsr G' p key = .ok token → ∀ now,
      Issuer.parseAndVerifyCSR G V issuerIdentifier now (utf8 token) =
        .error (bytes "issuer: CSR header missing kid") := fun token hmint now =>
    parseAndVerifyCSR_minted G V hjwt hmint issuerIdentifier now
  refine ⟨?_, hrefused⟩
  rintro ⟨token, hmint, haccepts⟩
  obtain ⟨horder, -⟩ := Python.mintCsr_eq_ok.mp hmint
  have hfirst := haccepts (.ofUnix p.iat) (le_refl p.iat) (le_of_lt horder)
  rw [hrefused token hmint] at hfirst
  cases hfirst

/-! ### A member's request -/

def csrHeaderDoc : Doc :=
  .ofJson (List.map itemOf) (.obj (headerMembers Python.csrTyp))

/-- The subject asks the issuer `a.co` for a credential of `a.co`. -/
def csrSample : Python.CsrPayload where
  iss := text "z6Mkon3Necd6NkkyfoGoHxid2znGc59LU3K7mubaRcFbLfLX"
  aud := text "a.co"
  iat := 100
  exp := 400
  req := ⟨text "org_affiliation", text "a.co"⟩
  extra := []

def csrKey : Python.KeyPair := ⟨Issuer.attackerKey, some Python.helloSeed⟩

def csrSignature : Bytes :=
  [38, 62, 147, 109, 168, 235, 37, 27, 157, 115, 15, 54, 255, 97, 14, 45, 217, 40, 134, 191, 92,
    189, 163, 231, 33, 193, 95, 215, 64, 233, 101, 68, 88, 222, 158, 199, 45, 193, 170, 94, 40,
    153, 25, 9, 50, 159, 96, 119, 61, 112, 255, 115, 53, 207, 103, 142, 236, 220, 147, 252, 248,
    157, 106, 7]

def csrPayloadJson : Bytes :=
  bytes "\x7b\"iss\":\"z6Mkon3Necd6NkkyfoGoHxid2znGc59LU3K7mubaRcFbLfLX\",\"aud\":\"a.co\"," ++
    bytes "\"iat\":100,\"exp\":400," ++
    bytes "\"req\":\x7b\"kind\":\"org_affiliation\",\"org\":\"a.co\"\x7d\x7d"

/-- The token PyJWT makes of it. -/
def csrToken : Text :=
  compact (bytes "\x7b\"alg\":\"EdDSA\",\"typ\":\"shadownet-csr+jwt\"\x7d") csrPayloadJson
    csrSignature

def csrRuntime : Python.Runtime := { Python.bareRuntime with
  jwtEncode := fun claims seed headers =>
    if claims = csrSample.modelDump ∧ seed = Python.helloSeed ∧
        headers = headerMembers Python.csrTyp then
      .ok csrToken
    else .error ⟨.pyJwtError, []⟩ }

/-- Ed25519 on the one signature of the sample. -/
def csrVerifier : Go.Verifier := fun key msg sig =>
  key == Issuer.attackerKey && sig == csrSignature &&
    (Issuer.compactJws Issuer.plainRuntime (utf8 csrToken)).toOption.any (·.signingInput == msg)

theorem csrRuntime_header : PyJwtHeader csrRuntime := by
  intro claims seed typ token _ h
  simp only [csrRuntime] at h
  split_ifs at h with hsample
  obtain ⟨-, -, hheaders⟩ := hsample
  have htyp : typ = Python.csrTyp := by simpa [headerMembers] using hheaders
  have hdoc : utf8 csrHeaderDoc.text =
      bytes "\x7b\"alg\":\"EdDSA\",\"typ\":\"shadownet-csr+jwt\"\x7d" := by decide +kernel
  refine ⟨csrHeaderDoc, csrPayloadJson, csrSignature, ?_, ?_⟩
  · rw [← Except.ok.inj h, hdoc, csrToken]
  · rw [htyp]
    exact .inl (by decide +kernel)

theorem mintCsr_sample : Python.mintCsr csrRuntime csrSample csrKey = .ok csrToken := by
  refine Python.mintCsr_eq_ok.mpr ⟨by decide, by decide, Python.helloSeed, rfl, ?_⟩
  simp only [csrRuntime, headerMembers, and_self, if_true]

/-- The member's request is refused at every time. -/
theorem csr_never_accepted_sample :
    ¬ CsrAccepted Issuer.plainRuntime csrVerifier (bytes "a.co") csrRuntime csrSample csrKey ∧
      ∀ now, Issuer.parseAndVerifyCSR Issuer.plainRuntime csrVerifier (bytes "a.co") now
        (utf8 csrToken) = .error (bytes "issuer: CSR header missing kid") := by
  obtain ⟨hnot, hrefused⟩ := csr_never_accepted Issuer.plainRuntime csrVerifier (bytes "a.co")
    csrRuntime_header csrSample csrKey
  exact ⟨hnot, hrefused csrToken mintCsr_sample⟩

/-- A request of a subject for its own key, valid from 100 to 400 and addressed to the issuer, that
the issuer refuses at 200. -/
theorem csr_refused :
    Go.encodePubKey csrKey.publicBytes = .ok (utf8 csrSample.iss) ∧
    utf8 csrSample.aud = bytes "a.co" ∧
    Python.mintCsr csrRuntime csrSample csrKey = .ok csrToken ∧
    Issuer.parseAndVerifyCSR Issuer.plainRuntime csrVerifier (bytes "a.co") (.ofUnix 200)
      (utf8 csrToken) = .error (bytes "issuer: CSR header missing kid") ∧
    ¬ CsrAccepted Issuer.plainRuntime csrVerifier (bytes "a.co") csrRuntime csrSample csrKey := by
  have hrefused : Issuer.parseAndVerifyCSR Issuer.plainRuntime csrVerifier (bytes "a.co")
      (.ofUnix 200) (utf8 csrToken) = .error (bytes "issuer: CSR header missing kid") := by
    decide +kernel
  refine ⟨by decide +kernel, by decide +kernel, mintCsr_sample, hrefused, ?_⟩
  rintro ⟨token, hmint, haccepts⟩
  cases Except.ok.inj (mintCsr_sample.symm.trans hmint)
  have hnow := haccepts (.ofUnix 200) (by decide) (by decide)
  rw [hrefused] at hnow
  cases hnow

end Shadownet.Interop
