import Shadownet.Interop.Authorization
import Shadownet.Interop.Decoded
import Shadownet.Interop.Requests
import Shadownet.Issuer.Issuance
import Shadownet.Issuer.Paths
import Shadownet.Python.Lifetime

/-!
# Credentials of the Go issuer in Python

`handleApprove` mints with go-jose and `encoding/json`; `verify_credential` reads with PyJWT,
`json.loads` and pydantic. The identifiers that the issuer lets through are identifiers in Python,
so a credential it mints is accepted for as long as it is valid, without a lookup in the DNS, when
the names alone authorise the issuer (`issued_accepted`).

* `marshal_eq`: the claims the issuer writes, as a Python value.
* `checkClaims_issued`: what the SDK makes of them.
-/

namespace Shadownet.Interop

open Foundation
open Python (Clean Value Dict)

/-! ## The libraries -/

/-- A header that PyJWT takes as it is: no extension that it must understand, and a `kid` that is
a string. -/
structure PlainHeader (d : Dict) : Prop where
  crit : d.get? (text "crit") = none
  b64 : d.get? (text "b64") = none
  kid : ∀ v, d.get? (text "kid") = some v → ∃ s, v = .str s

/-- PyJWT reads both parts of a token in the compact form with `json.loads`, and pydantic takes
integers as they are. -/
structure ReadsTokens (J : Python.JsonRuntime) (G : Python.Runtime) : Prop where
  header : ∀ header payload signature d, Python.jsonLoads J header = .ok (.obj d.members) →
    PlainHeader d → G.getUnverifiedHeader (compact header payload signature) = .ok d
  claims : ∀ header payload signature d claims, Python.jsonLoads J header = .ok (.obj d.members) →
    PlainHeader d → Python.jsonLoads J payload = .ok (.obj claims.members) →
    G.decodeUnverified (compact header payload signature) = .ok claims
  int : ∀ n, G.laxInt (.num (.int n)) = some n

/-- The input of the signature of a token. -/
def signingInput (header payload : Bytes) : Bytes :=
  utf8 (base64Url header ++ 46 :: base64Url payload)

/-- The protected header that go-jose writes. -/
def joseHeader (kid typ : Text) : Json Text IntLit :=
  .obj [(text "alg", .str (text "EdDSA")), (text "kid", .str kid), (text "typ", .str typ)]

/-- go-jose with a private key: a token in the compact form, with `alg`, `kid` and `typ` in its
protected header and a signature that Python's Ed25519 accepts under the public key. -/
def SignsFor (G : Go.Runtime) (G' : Python.Runtime) (priv pub : Bytes) : Prop :=
  ∀ kid typ payload jws, Clean kid → Clean typ →
    G.signCompact priv (utf8 kid) (utf8 typ) payload = .ok jws →
    ∃ (doc : Doc) (signature : Bytes), doc.value = joseHeader kid typ ∧
      jws = utf8 (compact (utf8 doc.text) payload signature) ∧
      G'.ed25519Verify pub signature (signingInput (utf8 doc.text) payload) = true

/-! ## The token in Python -/

section
variable {J : Python.JsonRuntime} {G : Python.Runtime}

/-- The header that go-jose writes, as Python has it. -/
def headerDict (kid typ : Text) : Dict where
  members := [(text "alg", .str (text "EdDSA")), (text "kid", .str kid), (text "typ", .str typ)]
  distinct := by
    refine Json.distinct_obj.mpr ⟨?_, ?_⟩
    · have hnames : [text "alg", text "kid", text "typ"].Nodup := by decide
      exact hnames
    · simp [Json.distinct_str]

theorem lookup_cons_ite {α β : Type} [BEq α] [LawfulBEq α] [DecidableEq α] (k a : α) (v : β)
    (ms : List (α × β)) :
    List.lookup k ((a, v) :: ms) = if k = a then some v else List.lookup k ms := by
  rw [List.lookup_cons]
  by_cases h : k = a
  · rw [if_pos h, beq_iff_eq.mpr h]
  · rw [if_neg h, beq_false_of_ne h]

theorem headerDict_get? (kid typ k : Text) :
    (headerDict kid typ).get? k = if k = text "alg" then some (.str (text "EdDSA"))
      else if k = text "kid" then some (.str kid) else if k = text "typ" then some (.str typ)
      else none := by
  rw [Dict.get?, headerDict, lookup_cons_ite, lookup_cons_ite, lookup_cons_ite, List.lookup_nil]

theorem plainHeader (kid typ : Text) : PlainHeader (headerDict kid typ) := by
  have hnames : (text "crit" ≠ text "alg" ∧ text "crit" ≠ text "kid" ∧ text "crit" ≠ text "typ") ∧
      (text "b64" ≠ text "alg" ∧ text "b64" ≠ text "kid" ∧ text "b64" ≠ text "typ") ∧
      text "kid" ≠ text "alg" := by decide
  obtain ⟨⟨hc1, hc2, hc3⟩, ⟨hb1, hb2, hb3⟩, hk⟩ := hnames
  refine ⟨?_, ?_, fun v hv => ⟨kid, ?_⟩⟩
  · rw [headerDict_get?, if_neg hc1, if_neg hc2, if_neg hc3]
  · rw [headerDict_get?, if_neg hb1, if_neg hb2, if_neg hb3]
  · rw [headerDict_get?, if_neg hk, if_pos rfl] at hv
    exact (Option.some.inj hv).symm

/-- `json.loads` of the header. -/
theorem jsonLoads_header (J : Python.JsonRuntime) {doc : Doc} {kid typ : Text}
    (hdoc : doc.value = joseHeader kid typ) :
    Python.jsonLoads J (utf8 doc.text) = .ok (.obj (headerDict kid typ).members) := by
  have hshort : Python.ShortInts doc.value := by
    rw [hdoc, joseHeader, Python.ShortInts, Json.forall_obj]
    refine ⟨trivial, fun m hm => ?_⟩
    simp only [List.mem_cons, List.not_mem_nil, or_false] at hm
    rcases hm with rfl | rfl | rfl <;> exact ⟨trivial, trivial⟩
  have hvalue : (joseHeader kid typ).map id (fun n => Python.Number.int n.value) =
      .obj (headerDict kid typ).members := by
    rw [joseHeader, Json.map_obj]
    rfl
  have hread := Python.jsonLoads_doc J doc hshort
  rw [hdoc, Python.pyValue, hvalue, Json.merged_of_distinct (headerDict kid typ).distinct] at hread
  exact hread

/-- The signature of a token in the compact form. -/
theorem verifyJwsSignature_compact {header payload signature key : Bytes} :
    Python.verifyJwsSignature G (compact header payload signature) key =
      Python.verifySignature G key signature (signingInput header payload) := by
  have hascii : ∀ c ∈ base64Url header ++ 46 :: base64Url payload, c.IsAscii := by
    intro c hc
    rcases List.mem_append.mp hc with hc | hc
    · exact base64Url_ascii header c hc
    · rcases List.mem_cons.mp hc with rfl | hc
      · decide
      · exact base64Url_ascii payload c hc
  rw [Python.verifyJwsSignature, splitOn_compact]
  simp only [Python.encodeAscii_of_ascii hascii, ok_bind, Python.urlsafeB64decode_base64Url]
  rfl

end

/-! ## The claims -/

/-- The claims of a minted credential. -/
structure Claims where
  iss : Text
  sub : Text
  org : Text
  iat : Int
  exp : Int
  epoch : Text
  idx : Nat

namespace Claims

/-- They are what the issuer has minted. -/
structure Of (c : Claims) (p : Issuer.CredentialPayload) : Prop where
  iss : p.iss = utf8 c.iss
  sub : p.sub = utf8 c.sub
  kind : p.kind = bytes "org_affiliation"
  org : p.org = utf8 c.org
  iat : p.iat = c.iat
  exp : p.exp = c.exp
  epoch : p.epoch = utf8 c.epoch
  idx : p.idx = c.idx

/-- Their texts have no surrogates, and their numbers are machine words. -/
structure Fits (c : Claims) : Prop where
  iss : Clean c.iss
  sub : Clean c.sub
  org : Clean c.org
  epoch : Clean c.epoch
  iat : -2 ^ 63 ≤ c.iat ∧ c.iat < 2 ^ 63
  exp : -2 ^ 63 ≤ c.exp ∧ c.exp < 2 ^ 63
  idx : c.idx < 2 ^ 64

def revDict (c : Claims) : Dict where
  members := [(text "epoch", .str c.epoch), (text "idx", .num (.int c.idx))]
  distinct := by
    refine Json.distinct_obj.mpr ⟨?_, ?_⟩
    · have hnames : [text "epoch", text "idx"].Nodup := by decide
      exact hnames
    · simp [Json.Distinct, Json.Forall]

/-- The claims as a Python dictionary. -/
def dict (c : Claims) : Dict where
  members := [(text "iss", .str c.iss), (text "sub", .str c.sub),
    (text "kind", .str (text "org_affiliation")), (text "org", .str c.org),
    (text "iat", .num (.int c.iat)), (text "exp", .num (.int c.exp)),
    (text "rev", .obj c.revDict.members)]
  distinct := by
    refine Json.distinct_obj.mpr ⟨?_, ?_⟩
    · have hnames : [text "iss", text "sub", text "kind", text "org", text "iat", text "exp",
          text "rev"].Nodup := by decide
      exact hnames
    · intro m hm
      simp only [List.mem_cons, List.not_mem_nil, or_false] at hm
      rcases hm with rfl | rfl | rfl | rfl | rfl | rfl | rfl
      all_goals first | trivial | exact c.revDict.distinct

theorem encodable (c : Claims) (h : c.Fits) : Python.Encodable (.obj c.dict.members) := by
  have hword : 10 ^ 20 ≤ Python.intLimit := by
    rw [Python.intLimit]
    exact pow_le_pow_right₀ (by decide) (by decide)
  have hint : ∀ n : Int, -2 ^ 63 ≤ n ∧ n < 2 ^ 63 → Python.ShortInt (.int n) := by
    intro n hn
    show n.natAbs < Python.intLimit
    omega
  have hidx : Python.ShortInt (.int c.idx) := by
    show (c.idx : Int).natAbs < Python.intLimit
    have := h.idx
    omega
  have hrev : Python.Encodable (.obj c.revDict.members) := by
    rw [Python.Encodable, Json.forall_obj]
    refine ⟨trivial, fun m hm => ?_⟩
    simp only [revDict, List.mem_cons, List.not_mem_nil, or_false] at hm
    rcases hm with rfl | rfl
    · exact ⟨clean_text "epoch", h.epoch⟩
    · exact ⟨clean_text "idx", hidx⟩
  rw [Python.Encodable, Json.forall_obj]
  refine ⟨trivial, fun m hm => ?_⟩
  simp only [dict, List.mem_cons, List.not_mem_nil, or_false] at hm
  rcases hm with rfl | rfl | rfl | rfl | rfl | rfl | rfl
  · exact ⟨clean_text "iss", h.iss⟩
  · exact ⟨clean_text "sub", h.sub⟩
  · exact ⟨clean_text "kind", clean_text "org_affiliation"⟩
  · exact ⟨clean_text "org", h.org⟩
  · exact ⟨clean_text "iat", hint _ h.iat⟩
  · exact ⟨clean_text "exp", hint _ h.exp⟩
  · exact ⟨clean_text "rev", hrev⟩

/-- A value as `json.Marshal` writes it. -/
abbrev written (v : Value) : Bytes :=
  utf8 ((literals v).text (Doc.lexemesOf (List.map marshalItem)))

theorem written_str {s : Text} (h : Clean s) : Go.marshalString (utf8 s) = written (.str s) :=
  marshalString_utf8 h

theorem written_int (n : Int) : Go.marshalInt n = written (.num (.int n)) := by
  rw [Go.marshalInt, bytes_toString]
  exact congrArg utf8 (IntLit.text_ofInt n).symm

theorem written_obj (members : List (String × Value)) :
    Go.marshalObject (members.map fun m => (m.1, written m.2)) =
      written (.obj (members.map fun m => (text m.1, m.2))) := by
  have h := marshalObject_text (members.map fun m => (m.1, literals m.2))
  rw [List.map_map, List.map_map] at h
  refine h.trans ?_
  have hlit : literals (.obj (members.map fun m => (text m.1, m.2))) =
      .obj (members.map fun m => (text m.1, literals m.2)) := by
    rw [literals, Json.map_obj, List.map_map]
    rfl
  rw [written, hlit]
  rfl

/-- What `json.Marshal` writes for a minted payload. -/
theorem marshal_eq {c : Claims} {p : Issuer.CredentialPayload} (hp : c.Of p) (h : c.Fits) :
    p.marshal = written (.obj c.dict.members) := by
  have hrev : Go.marshalObject [("epoch", Go.marshalString p.epoch), ("idx", Go.marshalInt p.idx)] =
      written (.obj c.revDict.members) := by
    rw [hp.epoch, hp.idx, written_str h.epoch, written_int]
    exact written_obj [("epoch", .str c.epoch), ("idx", .num (.int c.idx))]
  rw [Issuer.CredentialPayload.marshal, hrev, hp.iss, hp.sub, hp.kind, hp.org, hp.iat, hp.exp,
    ← utf8_text, written_str h.iss, written_str h.sub, written_str (clean_text _),
    written_str h.org, written_int, written_int]
  exact written_obj [("iss", .str c.iss), ("sub", .str c.sub),
    ("kind", .str (text "org_affiliation")), ("org", .str c.org), ("iat", .num (.int c.iat)),
    ("exp", .num (.int c.exp)), ("rev", .obj c.revDict.members)]

/-- `json.loads` of the payload. -/
theorem jsonLoads_marshal (J : Python.JsonRuntime) {c : Claims} {p : Issuer.CredentialPayload}
    (hp : c.Of p) (h : c.Fits) :
    Python.jsonLoads J p.marshal = .ok (.obj c.dict.members) := by
  rw [marshal_eq hp h]
  exact jsonLoads_written J (c.encodable h) c.dict.distinct

/-! ### Reading them -/

section
variable {J : Python.JsonRuntime} {G : Python.Runtime} {c : Claims}

theorem get?_text (k : String) :
    c.dict.get? (text k) = if k = "iss" then some (.str c.iss) else if k = "sub" then
      some (.str c.sub) else if k = "kind" then some (.str (text "org_affiliation"))
      else if k = "org" then some (.str c.org) else if k = "iat" then some (.num (.int c.iat))
      else if k = "exp" then some (.num (.int c.exp)) else if k = "rev" then
      some (.obj c.revDict.members) else none := by
  simp only [Dict.get?, dict, lookup_cons_ite, List.lookup_nil, text_injective.eq_iff]

/-- The payload that Python makes of the claims. -/
def payload (c : Claims) (iss sub org : Text) : Python.CredentialPayload where
  iss := iss
  sub := sub
  kind := Python.orgAffiliation
  org := org
  iat := c.iat
  exp := c.exp
  rev := ⟨c.epoch, c.idx⟩
  extra := []

theorem constrainedStrField_eq {s : Text} (h : Clean s) (check : Text → Bool) :
    Python.constrainedStrField check (some (.str s)) = if check s then some s else none := by
  rw [Python.constrainedStrField, Python.strField, Option.filter_some,
    Python.hasSurrogate_eq_false.mpr h, Bool.not_false, Bool.true_and]

theorem natField_eq (hread : ReadsTokens J G) (n : Int) :
    Python.natField G (some (.num (.int n))) = if 0 ≤ n then some n else none := by
  rw [Python.natField, Option.bind_some, hread.int, Option.filter_some]
  simp only [decide_eq_true_eq]

/-- `RevocationPointer.model_validate` of the `rev` claim. -/
theorem modelValidate_rev (hread : ReadsTokens J G) (h : c.Fits) (hepoch : c.epoch ≠ []) :
    Python.RevocationPointer.modelValidate G c.revDict = some ⟨c.epoch, c.idx⟩ := by
  have hget : c.revDict.get? (text "epoch") = some (.str c.epoch) ∧
      c.revDict.get? (text "idx") = some (.num (.int c.idx)) := by
    simp only [Dict.get?, revDict, lookup_cons_ite, text_injective.eq_iff]
    exact ⟨rfl, rfl⟩
  have hkeys :
      (c.revDict.members.all fun m => m.1 == text "epoch" || m.1 == text "idx") = true := by
    simp [revDict]
  have hidx : (0 : Int) ≤ c.idx := Int.natCast_nonneg _
  rw [Python.RevocationPointer.modelValidate, hget.1, hget.2, constrainedStrField_eq h.epoch,
    natField_eq hread, if_pos hidx]
  simp only [decide_eq_true hepoch, hkeys, if_true]
  rfl

/-- `CredentialPayload.model_validate` of the claims. -/
theorem modelValidate_eq (hread : ReadsTokens J G) (h : c.Fits) (hepoch : c.epoch ≠ [])
    {iss sub org : Text}
    (hiss : Python.canonicalizeIssuerOrOrgIdentifier G c.iss = .ok iss)
    (hsub : Python.canonicalizeIdentifier G c.sub = .ok sub)
    (horg : Python.canonicalizeIssuerOrOrgIdentifier G c.org = .ok org) :
    Python.CredentialPayload.modelValidate G c.dict = if 0 ≤ c.iat ∧ 0 ≤ c.exp then
      .ok (c.payload iss sub org)
      else throw ⟨.validationError, G.validationText (text "CredentialPayload") c.dict⟩ := by
  have hfield : ∀ {canonicalize : Python.Runtime → Text → Python.Py Text} {s t : Text},
      canonicalize G s = .ok t →
      Python.identifierField G canonicalize (some (.str s)) = .ok (some t) := by
    intro canonicalize s t ht
    show (canonicalize G s).map some = _
    rw [ht]
    rfl
  have hkind : Python.constrainedStrField Python.kindPattern
      (some (.str (text "org_affiliation"))) = some Python.orgAffiliation := by
    decide
  have hrev : (c.dict.sub? (text "rev")).bind (Python.RevocationPointer.modelValidate G) =
      some ⟨c.epoch, c.idx⟩ := by
    have hsub : c.dict.sub? (text "rev") = some c.revDict := by
      rw [Dict.sub?_eq_some, get?_text]
      rfl
    rw [hsub]
    exact modelValidate_rev hread h hepoch
  have hextra : (c.dict.members.filter fun m => !([text "iss", text "sub", text "kind", text "org",
      text "iat", text "exp", text "rev"].contains m.1)) = [] := by
    refine List.filter_eq_nil_iff.mpr fun m hm => ?_
    simp only [dict, List.mem_cons, List.not_mem_nil, or_false] at hm
    rcases hm with rfl | rfl | rfl | rfl | rfl | rfl | rfl <;> simp
  simp only [Python.CredentialPayload.modelValidate, get?_text, hrev, hextra, natField_eq hread,
    if_true, hfield hiss, hfield hsub, hfield horg, ok_bind, hkind,
    String.reduceEq, if_false]
  by_cases hiat : 0 ≤ c.iat
  · by_cases hexp : 0 ≤ c.exp
    · simp only [hiat, hexp, and_self, if_true]
      rfl
    · simp only [hiat, hexp, and_false, if_true, if_false]
      rfl
  · simp only [hiat, false_and, if_false]
    rfl

/-- The checks of `verify_credential` on a token of the issuer, up to the signature. -/
theorem checkClaims_issued (hread : ReadsTokens J G) {p : Issuer.CredentialPayload} (hp : c.Of p)
    (h : c.Fits) (hepoch : c.epoch ≠ []) {iss sub org kid : Text} {doc : Doc} {signature : Bytes}
    (hdoc : doc.value = joseHeader kid Python.credentialTyp)
    (hiss : Python.canonicalizeIssuerOrOrgIdentifier G c.iss = .ok iss)
    (hsub : Python.canonicalizeIdentifier G c.sub = .ok sub)
    (horg : Python.canonicalizeIssuerOrOrgIdentifier G c.org = .ok org)
    (hpast : 0 ≤ c.iat) (hexp : 0 ≤ c.exp) (hlife : c.exp - c.iat ≤ 2592000) {current leeway : Int}
    (hfresh : current - leeway ≤ c.exp) (hstarted : c.iat ≤ current + leeway) :
    Python.checkClaims G (compact (utf8 doc.text) p.marshal signature) current leeway =
      .ok (c.payload iss sub org) := by
  have hheader := hread.header _ p.marshal signature _ (jsonLoads_header J hdoc)
    (plainHeader kid Python.credentialTyp)
  have hclaims := hread.claims _ _ signature _ _ (jsonLoads_header J hdoc)
    (plainHeader kid Python.credentialTyp) (jsonLoads_marshal J hp h)
  have htyp : (headerDict kid Python.credentialTyp).get? (text "typ") =
      some (.str Python.credentialTyp) := by
    simp only [headerDict_get?, text_injective.eq_iff]
    rfl
  have halg : (headerDict kid Python.credentialTyp).get? (text "alg") =
      some (.str (text "EdDSA")) := by
    simp only [headerDict_get?, text_injective.eq_iff]
    rfl
  simp only [Python.checkClaims, bind_eq_ok, Python.reraise_eq_ok, guard_eq_ok, pure_eq_ok,
    Python.decodeHeader, Python.decodeUnverifiedClaims]
  refine ⟨_, hheader, ?_, ?_, _, hclaims, _,
    (modelValidate_eq hread h hepoch hiss hsub horg).trans (if_pos ⟨hpast, hexp⟩), ?_, ?_, ?_, ?_,
    rfl⟩
  · rw [not_not, htyp]
    exact Python.isStr_iff.mpr rfl
  · rw [not_not, halg]
    exact Python.isStr_iff.mpr rfl
  · exact not_not.mpr rfl
  · simp only [payload]
    omega
  · simp only [payload]
    omega
  · simp only [payload]
    omega

end

end Claims

/-! ## Identifiers -/

section
variable {G : Go.Runtime} {G' : Python.Runtime}

theorem validateMultibasePk_of_go {s : Text} (hascii : ∀ x ∈ s, x.IsAscii)
    (h : Go.classify G (utf8 s) = .pubKey) : Python.validateMultibasePk G' s = .ok s := by
  obtain ⟨raw, hraw⟩ := Issuer.classify_pubKey h
  have hparse := (parsePublicKey_of_decodePubKey G' hraw).1
  rw [map_latin_utf8 hascii] at hparse
  simp only [Python.parsePublicKey, bind_eq_ok] at hparse
  obtain ⟨w, hw, -⟩ := hparse
  have hsame := hw
  simp only [Python.validateMultibasePk, guard_eq_ok, bind_eq_ok, pure_eq_ok] at hsame
  obtain ⟨-, -, -, -, rfl⟩ := hsame
  exact hw

/-- What Go classifies as a domain or as a key has a canonical form in Python. -/
theorem exists_recognised (G' : Python.Runtime) {s : Text} (hascii : ∀ x ∈ s, x.IsAscii)
    (h : Go.classify G (utf8 s) = .domain ∨ Go.classify G (utf8 s) = .pubKey) :
    ∃ c, Recognised G G' s c := by
  rcases h with hd | hk
  · obtain ⟨D, -, -, -, hvalid⟩ := canonicalDomain_of_go G' hascii
      (Go.validateDomain_of_classify hd)
    have hkey : Python.isPublicKeyIdentifier s = false := by
      rw [Go.classify, contains_at hascii, isPrefixOf_z6Mk hascii] at hd
      split_ifs at hd with hat hat' hp hp'
      rw [Python.isPublicKeyIdentifier, Bool.eq_false_of_not_eq_true hp]
      rfl
    refine ⟨D, hascii, .inl hd, ?_⟩
    rw [Python.canonicalizeIssuerOrOrgIdentifier, hkey, if_neg Bool.false_ne_true, hvalid]
  · refine ⟨s, hascii, .inr hk, ?_⟩
    rw [Python.canonicalizeIssuerOrOrgIdentifier,
      if_pos (isPublicKeyIdentifier_of_go hascii hk), validateMultibasePk_of_go hascii hk]

/-- The subject of a request is a key, also in Python. -/
theorem canonicalize_subject (G' : Python.Runtime) {s : Text} (hascii : ∀ x ∈ s, x.IsAscii)
    (h : Go.classify G (utf8 s) = .pubKey) : Python.canonicalizeIdentifier G' s = .ok s := by
  have hkey := isPublicKeyIdentifier_of_go hascii h
  have hname : Python.isShadowname s = false := by
    rw [Python.isPublicKeyIdentifier, Bool.and_eq_true] at hkey
    simpa using hkey.2
  rw [Python.canonicalizeIdentifier, hname, if_neg Bool.false_ne_true, if_pos hkey,
    validateMultibasePk_of_go hascii h]

/-- The first two rules of the authorisation, which need no delegates. -/
def AuthorizedByName (G : Go.Runtime) (iss org : Bytes) : Prop :=
  (Go.classify G iss = .pubKey ∧ Go.classify G org = .pubKey ∧ iss = org) ∨
    (Go.classify G iss = .domain ∧ Go.classify G org = .domain ∧
      ((∃ d, Go.canonicalDomain G iss = .ok d ∧ Go.canonicalDomain G org = .ok d) ∨
        Go.isSubdomainOf G iss org = true))

/-- A lookup never ends without a call in acceptance. -/
theorem lookup_ne_pure {cfg : Issuer.AuthzConfig} {iss org : Bytes} :
    (Issuer.lookupDelegates G cfg org >>= fun d => pure (Issuer.afterDelegates G iss org d)) ≠
      pure (.ok ()) := by
  intro h
  rw [Issuer.lookupDelegates] at h
  cases hd : Go.canonicalDomain G org with
  | error e =>
    rw [hd] at h
    injection h with h
    cases h
  | ok d =>
    rw [hd] at h
    cases h

/-- They are the ones under which `Authorize` accepts without a lookup. -/
theorem authorizer_eq_pure_iff {cfg : Issuer.AuthzConfig} {iss org : Bytes} :
    Issuer.authorizer G cfg iss org = pure (.ok ()) ↔ AuthorizedByName G iss org := by
  have hnever : ∀ {b : Bool}, b = false →
      ((if b = true then pure (pure ()) else Issuer.lookupDelegates G cfg org >>= fun d =>
        pure (Issuer.afterDelegates G iss org d)) = pure (.ok ()) ↔ False) := by
    intro b hb
    rw [hb, if_neg Bool.false_ne_true]
    exact iff_false_intro lookup_ne_pure
  have hthrow : ∀ e : Bytes, (throw e : Go.GoM Unit) ≠ .ok () := fun e h => by cases h
  rw [Issuer.authorizer, AuthorizedByName]
  cases hi : Go.classify G iss with
  | unknown => simp [hthrow]
  | pubKey =>
    cases ho : Go.classify G org with
    | pubKey =>
      by_cases heq : iss = org
      · simp [Issuer.matchesIssEqOrg, heq, pure, Except.pure]
      · simp [Issuer.matchesIssEqOrg, heq, hthrow]
    | _ => simp [Issuer.matchesIssEqOrg, hthrow]
  | domain =>
    cases ho : Go.classify G org with
    | domain =>
      rw [← Issuer.matchesIssEqOrg_domain]
      by_cases hmatch : Issuer.matchesIssEqOrg G iss .domain org .domain = true
      · simp [hmatch, pure, Except.pure]
      · cases hsub : Go.isSubdomainOf G iss org with
        | true => simp [hmatch, pure, Except.pure]
        | false => simpa [hmatch] using lookup_ne_pure
    | shadowname =>
      simpa [Issuer.matchesIssEqOrg] using hnever (Issuer.isSubdomainOf_of_shadowname (.inr ho))
    | _ => simp [Issuer.matchesIssEqOrg, hthrow]
  | shadowname =>
    have hsub : Go.isSubdomainOf G iss org = false := Issuer.isSubdomainOf_of_shadowname (.inl hi)
    cases ho : Go.classify G org with
    | domain => simpa [Issuer.matchesIssEqOrg] using hnever hsub
    | shadowname => simpa [Issuer.matchesIssEqOrg] using hnever hsub
    | _ => simp [Issuer.matchesIssEqOrg, hthrow]

/-- The check in Python accepts by the names alone, without a call. -/
theorem authorization_of_byName {iss org issC orgC : Text} (hiss : Recognised G G' iss issC)
    (horg : Recognised G G' org orgC) (h : AuthorizedByName G (utf8 iss) (utf8 org)) :
    Receiver.defaultIssuerAuthorizationCheck G' issC orgC = pure () := by
  have hsame : issC = orgC → Receiver.defaultIssuerAuthorizationCheck G' issC orgC = pure () := by
    intro heq
    rw [Receiver.defaultIssuerAuthorizationCheck, Receiver.checkIssuerAuthorizedForOrg, if_pos heq]
  rcases h with ⟨hik, hok, heq⟩ | ⟨hid, hod, hrule⟩
  · have hnames := utf8_injective hiss.clean horg.clean heq
    exact hsame (by rw [(hiss.key hik).1, (horg.key hok).1, hnames])
  · obtain ⟨hI, hIlow, hIcan⟩ := hiss.domain hid
    obtain ⟨hO, hOlow, hOcan⟩ := horg.domain hod
    have hby : ByName issC orgC := by
      rcases hrule with ⟨d, hd, hd'⟩ | hsub
      · refine .inl (utf8_injective (clean_of_ascii hI.ascii) (clean_of_ascii hO.ascii) ?_)
        exact (Except.ok.inj (hIcan.symm.trans hd)).trans (Except.ok.inj (hd'.symm.trans hOcan))
      · exact (isSubdomainOf_iff hiss hid horg hod).mp hsub
    rcases hby with heq | ⟨hik, hok, hsuffix⟩
    · exact hsame heq
    · have hvalid : ∀ {t : Text}, DomainText t → t.map Python.lowerAscii = t →
          Python.validateDomain G' t = .ok t := by
        intro t ht hlow
        rw [ht.validateDomain G' (.inl rfl), hlow]
      have hsub : Python.isSubdomainOf G' issC orgC = .ok true := by
        rw [Python.isSubdomainOf, hvalid hI hIlow, ok_bind, hvalid hO hOlow, ok_bind,
          List.isSuffixOf_iff_suffix.mpr hsuffix, Bool.or_true]
        rfl
      by_cases heq : issC = orgC
      · exact hsame heq
      · rw [Receiver.defaultIssuerAuthorizationCheck, Receiver.checkIssuerAuthorizedForOrg,
          if_neg heq, hik, hok, hsub]
        rfl

end

/-! ## A run of the issuer -/

section
variable {G : Go.Runtime} {V : Go.Verifier} {cfg : Issuer.HandlerConfig} {body : Option Bytes}
  {calls : Calls Issuer.IssueOp Issuer.IssueAns} {r : Go.Response}

/-- The row a run stores carries a credential that it has minted for a request it accepted. -/
theorem stored_row (h : Issuer.IssuePath G V cfg body calls r) {row : Issuer.CredentialRow}
    {stored : Except Issuer.StoreError Unit} (hrow : ⟨.putCredential row, stored⟩ ∈ calls) :
    ∃ parsed idem t pub, Issuer.subjectPubFromCSR G parsed = .ok pub ∧
      Issuer.MintedAt G cfg parsed idem t row := by
  cases h with
  | decided t parsed idem hv pub hs a rest r hd =>
    have hrest : ⟨.putCredential row, stored⟩ ∈ rest := by
      simpa using hrow
    cases hd with
    | stored d hd t c hc =>
      obtain ⟨rfl, -⟩ : row = c ∧ _ := by simpa using hrest
      exact ⟨parsed, idem, t, pub, hs, hc⟩
    | reread d hd t c c' hc e =>
      obtain ⟨rfl, -⟩ : row = c ∧ _ := by simpa using hrest
      exact ⟨parsed, idem, t, pub, hs, hc⟩
    | lost d hd t c hc e e' =>
      obtain ⟨rfl, -⟩ : row = c ∧ _ := by simpa using hrest
      exact ⟨parsed, idem, t, pub, hs, hc⟩
    | _ => simp at hrest
  | _ => simp at hrow

/-- What `Mint` signs. -/
theorem mint_signs {priv pub jws : Bytes} {p : Issuer.CredentialPayload}
    (h : Issuer.mint G priv pub p = .ok jws) :
    ∃ pubMB, Go.encodePubKey pub = .ok pubMB ∧
      G.signCompact priv (Issuer.kidFromIssuer G p.iss pubMB) (bytes "shadownet-cred+jwt")
        p.marshal =
        .ok jws := by
  simp only [Issuer.mint, guard_eq_ok, bind_eq_ok, mapError_eq_ok, Issuer.signJWS] at h
  obtain ⟨-, -, -, -, -, -, -, -, -, -, pubMB, hpub, -, -, hsign⟩ := h
  exact ⟨pubMB, hpub, hsign⟩

/-- The `kid` of a domain or a key is a text of ASCII characters. -/
theorem kid_ascii {iss : Text} (hascii : ∀ x ∈ iss, x.IsAscii) (pubMB : Bytes)
    (h : Go.classify G (utf8 iss) = .domain ∨ Go.classify G (utf8 iss) = .pubKey) :
    ∃ kid, Clean kid ∧ Issuer.kidFromIssuer G (utf8 iss) pubMB = utf8 kid := by
  rcases h with hd | hk
  · refine ⟨text "shadownet@" ++ iss, ?_, ?_⟩
    · intro c hc
      rcases List.mem_append.mp hc with hc | hc
      · exact clean_text "shadownet@" c hc
      · exact clean_of_ascii hascii c hc
    · rw [Issuer.kidFromIssuer, hd, utf8_append, utf8_text]
  · exact ⟨iss, clean_of_ascii hascii, by rw [Issuer.kidFromIssuer, hk]⟩

end

/-! ## Acceptance -/

/-- The payload has the canonical forms of the identifiers of the row and its status pointer. -/
structure PayloadOf (G : Python.Runtime) (row : Issuer.CredentialRow)
    (p : Python.CredentialPayload) : Prop where
  iss : Python.canonicalizeIssuerOrOrgIdentifier G (decoded row.iss) = .ok p.iss
  sub : Python.canonicalizeIdentifier G (decoded row.sub) = .ok p.sub
  org : Python.canonicalizeIssuerOrOrgIdentifier G (decoded row.org) = .ok p.org
  rev : p.rev = ⟨natText row.epoch, row.idx⟩
  iat : p.iat = row.issuedAt
  exp : p.exp = row.expiresAt

/-- `verify_credential` accepts the credential of the row from 60 seconds before it was minted to
60 seconds after its seven days, given the signer's key, and calls nothing. -/
def AcceptedInPython (G : Python.Runtime) (cfg : Issuer.HandlerConfig)
    (row : Issuer.CredentialRow) : Prop :=
  ∃ p key, PayloadOf G row p ∧ Go.encodePubKey cfg.signerPublic = .ok (utf8 key) ∧ Clean key ∧
    ∀ current, row.issuedAt - 60 ≤ current → current ≤ row.issuedAt + 604800 + 60 →
      ∀ resolve : Text → Receiver.Rx Text, resolve p.iss = pure key →
        Python.verifyCredential G (decoded row.jws) current 60 resolve
          (Receiver.defaultIssuerAuthorizationCheck G) = pure ⟨p, key, decoded row.jws⟩

section
variable {G : Go.Runtime} {V : Go.Verifier} {cfg : Issuer.HandlerConfig} {body : Option Bytes}
  {calls : Calls Issuer.IssueOp Issuer.IssueAns} {r : Go.Response} {G' : Python.Runtime}
  {J : Python.JsonRuntime}

theorem ascii_latin {s : Bytes} (h : ∀ b ∈ s, b.toNat < 0x80) : ∀ x ∈ decoded s, x.IsAscii := by
  intro x hx
  rw [decoded_ascii h] at hx
  obtain ⟨b, hb, rfl⟩ := List.mem_map.mp hx
  rw [CodePoint.IsAscii, latin_val]
  exact h b hb

theorem utf8_decoded_ascii {s : Bytes} (h : ∀ b ∈ s, b.toNat < 0x80) : utf8 (decoded s) = s := by
  rw [decoded_ascii h, utf8_latin h]

/-- `verify_credential` of a token of the issuer with a lifetime of seven days. -/
theorem verifyCredential_issued (hread : ReadsTokens J G') {c : Claims}
    {p : Issuer.CredentialPayload} (hof : c.Of p) (hfits : c.Fits) (hepoch : c.epoch ≠ [])
    {kid issC sub orgC : Text} {doc : Doc} {pub pubMB signature : Bytes}
    (hdoc : doc.value = joseHeader kid Python.credentialTyp)
    (hiss : Recognised G G' c.iss issC)
    (hsub : Python.canonicalizeIdentifier G' c.sub = .ok sub)
    (horg : Recognised G G' c.org orgC)
    (hname : AuthorizedByName G (utf8 c.iss) (utf8 c.org))
    (hpub : Go.encodePubKey pub = .ok pubMB)
    (hverify : G'.ed25519Verify pub signature (signingInput (utf8 doc.text) p.marshal) = true)
    (hera : 0 ≤ c.iat) (hexp : c.exp = c.iat + 604800) {current : Int}
    (hfirst : c.iat - 60 ≤ current) (hlast : current ≤ c.iat + 604800 + 60)
    {resolve : Text → Receiver.Rx Text} (hresolve : resolve issC = pure (pubMB.map latin)) :
    Python.verifyCredential G' (compact (utf8 doc.text) p.marshal signature) current 60 resolve
        (Receiver.defaultIssuerAuthorizationCheck G') =
      pure ⟨c.payload issC sub orgC, pubMB.map latin,
        compact (utf8 doc.text) p.marshal signature⟩ := by
  obtain ⟨hkeyParse, -, hkeyLength⟩ := parsePublicKey_of_encodePubKey G' hpub
  have hcheck : Python.checkClaims G' (compact (utf8 doc.text) p.marshal signature) current 60 =
      .ok (c.payload issC sub orgC) :=
    Claims.checkClaims_issued hread hof hfits hepoch hdoc hiss.python hsub horg.python hera
      (by omega) (by omega) (by omega) (by omega)
  have hsignature : Python.checkIssuerSignature G' (compact (utf8 doc.text) p.marshal signature)
      (pubMB.map latin) = .ok () := by
    rw [Python.checkIssuerSignature, hkeyParse, ok_bind, Python.fromPublicBytes,
      if_neg (not_not.mpr hkeyLength), pure_bind, verifyJwsSignature_compact,
      Python.verifySignature, if_pos hverify]
    rfl
  have hauth := authorization_of_byName hiss horg hname
  rw [Python.verifyCredential, hcheck]
  change (resolve issC >>= _) = _
  rw [hresolve, pure_bind, hsignature]
  change (Receiver.defaultIssuerAuthorizationCheck G' issC orgC >>= _) = _
  rw [hauth]
  rfl

/-- pydantic takes no time before 1970. -/
theorem iat_nonneg {d : Dict} {p : Python.CredentialPayload}
    (h : Python.CredentialPayload.modelValidate G' d = .ok p) : 0 ≤ p.iat := by
  simp only [Python.CredentialPayload.modelValidate, bind_eq_ok] at h
  obtain ⟨iss, -, sub, -, org, -, h⟩ := h
  split at h
  · next q hq =>
    rw [← pure_eq_ok.mp h]
    simp only [Option.bind_eq_bind, Option.bind_eq_some_iff, Option.pure_def,
      Option.some.injEq] at hq
    obtain ⟨_, -, _, -, kind, -, _, -, iat, hiat, exp, -, rev, -, rfl⟩ := hq
    simpa using (Option.filter_eq_some_iff.mp hiat).2
  · cases h

/-- So a credential from before 1970 is not accepted. -/
theorem era_of_accepted {row : Issuer.CredentialRow} (h : AcceptedInPython G' cfg row) :
    0 ≤ row.issuedAt := by
  obtain ⟨p, key, hp, -, -, haccept⟩ := h
  have hnow := haccept row.issuedAt (by omega) (by omega) (fun _ => pure key) rfl
  have hpath : Fallible.Path (Python.verifyCredential G' (decoded row.jws) row.issuedAt 60
      (fun _ => pure key) (Receiver.defaultIssuerAuthorizationCheck G')) []
      (.ok ⟨p, key, decoded row.jws⟩) := by
    rw [hnow]
    exact Fallible.path_pure.mpr ⟨rfl, rfl⟩
  obtain ⟨⟨d, -, hd⟩, -⟩ := Python.checkClaims_ok (Python.verifyCredential_claims hpath)
  rw [← hp.iat]
  exact iat_nonneg hd

/-- Every credential that a run of the issuer stores for an ASCII organisation, which the names
alone authorise, is accepted in Python when it is from 1970 or later. -/
theorem accepted_of_era (hsigns : SignsFor G G' cfg.signerPrivate cfg.signerPublic)
    (hread : ReadsTokens J G') (hpath : Prog.Path (Issuer.serveIssue G V cfg body) calls r)
    {row : Issuer.CredentialRow} {stored : Except Issuer.StoreError Unit}
    (hrow : ⟨.putCredential row, stored⟩ ∈ calls)
    (hiss : ∀ b ∈ cfg.issuerIdentifier, b.toNat < 0x80) (horg : ∀ b ∈ row.org, b.toNat < 0x80)
    (hname : AuthorizedByName G cfg.issuerIdentifier row.org) (hidx : row.idx < 2 ^ 64)
    (hexpiry : row.expiresAt < 2 ^ 63) (hera : 0 ≤ row.issuedAt) :
    AcceptedInPython G' cfg row := by
  obtain ⟨parsed, idem, t, pub, hpub, hmint, hrow'⟩ :=
    stored_row (Issuer.path_serveIssue_ways hpath) hrow
  have hissRow : row.iss = cfg.issuerIdentifier := by rw [hrow']; rfl
  have hsubRow : row.sub = parsed.iss := by rw [hrow']; rfl
  have horgRow : row.org = parsed.req.org := by rw [hrow']; rfl
  have hiatRow : row.issuedAt = t.unix := by rw [hrow']; rfl
  have hexpRow : row.expiresAt = t.unix + 604800 := by rw [hrow']; rfl
  -- the identifiers, as texts
  have hissText := utf8_decoded_ascii hiss
  have horgText := utf8_decoded_ascii horg
  have hissAscii := ascii_latin hiss
  have horgAscii := ascii_latin horg
  have hsubKey : Go.classify G parsed.iss = .pubKey := by
    rw [Issuer.subjectPubFromCSR] at hpub
    split_ifs at hpub with hk
    exact hk
  obtain ⟨raw, hraw⟩ := Issuer.classify_pubKey hsubKey
  have hsub := (parsePublicKey_of_decodePubKey G' hraw).2
  have hsubText := utf8_decoded_ascii hsub
  have hsubAscii := ascii_latin hsub
  have hclasses : (Go.classify G cfg.issuerIdentifier = .domain ∨
      Go.classify G cfg.issuerIdentifier = .pubKey) ∧ (Go.classify G row.org = .domain ∨
      Go.classify G row.org = .pubKey) := by
    rcases hname with ⟨hi, ho, -⟩ | ⟨hi, ho, -⟩
    · exact ⟨.inr hi, .inr ho⟩
    · exact ⟨.inl hi, .inl ho⟩
  rw [← hissText, ← horgText] at hclasses
  obtain ⟨issC, hissRec⟩ := exists_recognised G' hissAscii hclasses.1
  obtain ⟨orgC, horgRec⟩ := exists_recognised G' horgAscii hclasses.2
  have hsubCanon : Python.canonicalizeIdentifier G' (decoded parsed.iss) =
      .ok (decoded parsed.iss) := canonicalize_subject G' hsubAscii (by rwa [hsubText])
  -- the claims, and the token
  let c : Claims :=
    { iss := decoded cfg.issuerIdentifier, sub := decoded parsed.iss, org := decoded row.org
      iat := t.unix, exp := t.unix + 604800, epoch := natText row.epoch, idx := row.idx }
  have hof : c.Of (Issuer.approvedPayload cfg parsed t row.epoch row.idx) :=
    { iss := hissText.symm, sub := hsubText.symm, kind := rfl
      org := by rw [horgText, horgRow]; rfl
      iat := rfl, exp := rfl, epoch := bytes_repr row.epoch, idx := rfl }
  have hepochAscii : ∀ x ∈ natText row.epoch, x.IsAscii := by
    intro x hx
    have hdigit := isDigit_of_mem_natText hx
    rw [IsDigit] at hdigit
    show x.val < 0x80
    omega
  have hfits : c.Fits :=
    { iss := clean_of_ascii hissAscii, sub := clean_of_ascii hsubAscii
      org := clean_of_ascii horgAscii, epoch := clean_of_ascii hepochAscii
      iat := by show -2 ^ 63 ≤ t.unix ∧ t.unix < 2 ^ 63; omega
      exp := by show -2 ^ 63 ≤ t.unix + 604800 ∧ t.unix + 604800 < 2 ^ 63; omega
      idx := hidx }
  obtain ⟨pubMB, hpubMB, hsign⟩ := mint_signs hmint
  obtain ⟨hkeyParse, hkeyAscii, hkeyLength⟩ := parsePublicKey_of_encodePubKey G' hpubMB
  obtain ⟨kid, hkid, hkidText⟩ := kid_ascii hissAscii pubMB hclasses.1
  rw [hissText] at hkidText
  have hkidMint : Issuer.kidFromIssuer G
      (Issuer.approvedPayload cfg parsed t row.epoch row.idx).iss pubMB = utf8 kid := hkidText
  rw [hkidMint, ← utf8_text] at hsign
  obtain ⟨doc, signature, hdoc, hjws, hverify⟩ := hsigns _ _ _ _ hkid (clean_text _) hsign
  have htoken : decoded row.jws = compact (utf8 doc.text)
      (Issuer.approvedPayload cfg parsed t row.epoch row.idx).marshal signature := by
    rw [hjws]
    exact decoded_utf8 (clean_of_ascii (compact_ascii _ _ _))
  refine ⟨c.payload issC (decoded parsed.iss) orgC, pubMB.map latin, ?_, ?_, ?_, ?_⟩
  · exact
      { iss := by rw [hissRow]; exact hissRec.python
        sub := by rw [hsubRow]; exact hsubCanon
        org := horgRec.python
        rev := rfl
        iat := hiatRow.symm
        exp := hexpRow.symm }
  · rw [utf8_latin hkeyAscii]
    exact hpubMB
  · exact clean_latin hkeyAscii
  · intro current hfirst hlast resolve hresolve
    rw [htoken]
    refine verifyCredential_issued hread hof hfits (natText_ne_nil _) hdoc hissRec hsubCanon horgRec
      ?_ hpubMB hverify ?_ rfl ?_ ?_ hresolve
    · rwa [hissText, horgText]
    · show 0 ≤ t.unix
      omega
    · show t.unix - 60 ≤ current
      omega
    · show current ≤ t.unix + 604800 + 60
      omega

/-- Of the credentials that runs of the issuer store for ASCII organisations, which the names alone
authorise, Python accepts exactly those from 1970 or later. -/
theorem issued_accepted_iff (hsigns : SignsFor G G' cfg.signerPrivate cfg.signerPublic)
    (hread : ReadsTokens J G') (hpath : Prog.Path (Issuer.serveIssue G V cfg body) calls r)
    {row : Issuer.CredentialRow} {stored : Except Issuer.StoreError Unit}
    (hrow : ⟨.putCredential row, stored⟩ ∈ calls)
    (hiss : ∀ b ∈ cfg.issuerIdentifier, b.toNat < 0x80) (horg : ∀ b ∈ row.org, b.toNat < 0x80)
    (hname : AuthorizedByName G cfg.issuerIdentifier row.org) (hidx : row.idx < 2 ^ 64)
    (hexpiry : row.expiresAt < 2 ^ 63) :
    AcceptedInPython G' cfg row ↔ 0 ≤ row.issuedAt :=
  ⟨era_of_accepted, accepted_of_era hsigns hread hpath hrow hiss horg hname hidx hexpiry⟩

end

/-! ### A credential from 1970 and one from 1969 -/

/-- One part of a token, as PyJWT loads it. -/
def loadPart (seg : Text) : Python.Py Dict :=
  match Python.urlsafeB64decode (seg ++ Python.padding seg) >>= Python.jsonLoads plainJson with
  | .ok (.obj members) =>
    if h : (Json.obj members).Distinct then .ok ⟨members, h⟩ else .error ⟨.pyJwtError, []⟩
  | _ => .error ⟨.pyJwtError, []⟩

theorem loadPart_base64Url {b : Bytes} {d : Dict}
    (h : Python.jsonLoads plainJson b = .ok (.obj d.members)) : loadPart (base64Url b) = .ok d := by
  rw [loadPart, Python.urlsafeB64decode_base64Url, ok_bind, h]
  exact dif_pos d.distinct

/-- The issuer's signatures over the claims of two instants. -/
def sampleSignature (iat : Int) : Bytes :=
  if iat = 200 then
    [187, 60, 3, 135, 14, 160, 0, 142, 141, 127, 246, 61, 139, 70, 149, 109, 249, 131, 28, 28, 96,
      56, 52, 211, 137, 166, 116, 80, 64, 163, 98, 33, 30, 120, 150, 110, 200, 82, 212, 122, 50,
      165, 109, 23, 155, 115, 118, 74, 226, 138, 127, 158, 251, 176, 63, 183, 76, 239, 38, 119,
      55, 42, 177, 2]
  else
    [246, 195, 103, 194, 13, 172, 142, 197, 254, 116, 209, 88, 252, 200, 67, 2, 98, 77, 90, 225,
      214, 115, 8, 178, 89, 75, 189, 162, 140, 219, 33, 40, 85, 209, 60, 49, 250, 241, 25, 88,
      161, 56, 133, 214, 153, 11, 151, 248, 8, 155, 72, 134, 167, 95, 87, 228, 107, 229, 64, 157,
      100, 77, 176, 15]

def samplePayload (iat : Int) : Bytes :=
  (Issuer.approvedPayload Issuer.raceConfig Issuer.racePayload (Go.Time.ofUnix iat) 1 0).marshal

def sampleHeader : Bytes :=
  bytes "\x7b\"alg\":\"EdDSA\",\"kid\":\"shadownet@a.co\",\"typ\":\"shadownet-cred+jwt\"\x7d"

/-- go-jose with the issuer's key on these two payloads. -/
def sampleSigner (priv kid typ payload : Bytes) : Go.GoM Bytes :=
  if priv = Issuer.raceConfig.signerPrivate ∧ kid = bytes "shadownet@a.co" ∧
      typ = bytes "shadownet-cred+jwt" then
    if payload = samplePayload 200 then
      pure (utf8 (compact sampleHeader payload (sampleSignature 200)))
    else if payload = samplePayload (-100) then
      pure (utf8 (compact sampleHeader payload (sampleSignature (-100))))
    else throw []
  else throw []

def sampleGo : Go.Runtime := Issuer.sampleRuntime (fun _ => Issuer.raceDigest) sampleSigner

/-- PyJWT, and Ed25519 on the two signatures. -/
def samplePython : Python.Runtime := { Python.bareRuntime with
  getUnverifiedHeader := fun token =>
    match token.splitOn 46 with
    | [header, _, _] => loadPart header
    | _ => .error ⟨.pyJwtError, []⟩
  decodeUnverified := fun token =>
    match token.splitOn 46 with
    | [_, payload, _] => loadPart payload
    | _ => .error ⟨.pyJwtError, []⟩
  ed25519Verify := fun key signature msg =>
    key == Issuer.raceConfig.signerPublic &&
      ((signature == sampleSignature 200 && msg == signingInput sampleHeader (samplePayload 200)) ||
      (signature == sampleSignature (-100) &&
        msg == signingInput sampleHeader (samplePayload (-100)))) }

theorem samplePython_reads : ReadsTokens plainJson samplePython where
  header := by
    intro header payload signature d hd _
    simp only [samplePython, splitOn_compact]
    exact loadPart_base64Url hd
  claims := by
    intro header payload signature d claims _ _ hclaims
    simp only [samplePython, splitOn_compact]
    exact loadPart_base64Url hclaims
  int _ := rfl

theorem sampleGo_signs :
    SignsFor sampleGo samplePython Issuer.raceConfig.signerPrivate
      Issuer.raceConfig.signerPublic := by
  intro kid typ payload jws hkid htyp h
  have hsign : sampleSigner Issuer.raceConfig.signerPrivate (utf8 kid) (utf8 typ) payload =
    .ok jws := h
  have hheader : utf8 (Doc.ofJson (List.map itemOf) (joseHeader (text "shadownet@a.co")
      (text "shadownet-cred+jwt"))).text = sampleHeader := by decide
  have hvalue : (Doc.ofJson (List.map itemOf) (joseHeader (text "shadownet@a.co")
      (text "shadownet-cred+jwt"))).value = joseHeader (text "shadownet@a.co")
      (text "shadownet-cred+jwt") := by decide
  rw [sampleSigner] at hsign
  split_ifs at hsign with hkey h200 hpast
  · obtain ⟨-, hk, ht⟩ := hkey
    rw [← utf8_text] at hk ht
    rw [utf8_injective hkid (clean_text _) hk, utf8_injective htyp (clean_text _) ht]
    refine ⟨_, sampleSignature 200, hvalue, ?_, ?_⟩
    · rw [hheader]
      exact (pure_eq_ok.mp hsign).symm
    · rw [hheader, h200]
      simp [samplePython]
  · obtain ⟨-, hk, ht⟩ := hkey
    rw [← utf8_text] at hk ht
    rw [utf8_injective hkid (clean_text _) hk, utf8_injective htyp (clean_text _) ht]
    refine ⟨_, sampleSignature (-100), hvalue, ?_, ?_⟩
    · rw [hheader]
      exact (pure_eq_ok.mp hsign).symm
    · rw [hheader, hpast]
      simp [samplePython]

/-- The row of the sample, minted at an instant. -/
def sampleRow (iat : Int) : Issuer.CredentialRow :=
  Issuer.approvedRow Issuer.raceConfig Issuer.racePayload Issuer.raceKey
    (utf8 (compact sampleHeader (samplePayload iat) (sampleSignature iat))) (Go.Time.ofUnix iat) 1 0

theorem sampleRow_minted : ∀ iat ∈ [200, -100], Issuer.MintedAt sampleGo Issuer.raceConfig
    Issuer.racePayload Issuer.raceKey (Go.Time.ofUnix iat) (sampleRow iat) := by
  have hmint : ∀ iat ∈ [200, -100], Issuer.mint sampleGo Issuer.raceConfig.signerPrivate
      Issuer.raceConfig.signerPublic (Issuer.approvedPayload Issuer.raceConfig Issuer.racePayload
        (Go.Time.ofUnix iat) 1 0) = .ok (sampleRow iat).jws := by
    decide +kernel
  exact fun iat hiat => ⟨hmint iat hiat, rfl⟩

theorem sample_byName : AuthorizedByName sampleGo (bytes "a.co") (bytes "a.co") := by
  have hclass : Go.classify sampleGo (bytes "a.co") = .domain := by decide
  have hsub : Go.isSubdomainOf sampleGo (bytes "a.co") (bytes "a.co") = true := by decide
  exact .inr ⟨hclass, hclass, .inr hsub⟩

/-- The calls of a request that is approved at an instant, with its row. -/
def sampleCalls (view : Issuer.CsrView) (iat : Int) : Calls Issuer.IssueOp Issuer.IssueAns :=
  [⟨.now, Go.Time.ofUnix iat⟩, ⟨.getByIdempotencyKey Issuer.raceKey, .error .notFound⟩,
    ⟨.authorize (bytes "a.co") (bytes "a.co"), .ok ()⟩,
    ⟨.evaluate view Issuer.attackerKey, .ok ⟨.approve, [], []⟩⟩, ⟨.now, Go.Time.ofUnix iat⟩,
    ⟨.allocateIndex ((Go.Time.ofUnix iat).addSeconds 604800), .ok (1, 0)⟩,
    ⟨.putCredential (sampleRow iat), .ok ()⟩]

theorem sample_ascii : ∀ b ∈ bytes "a.co", b.toNat < 0x80 := by
  have hall : (bytes "a.co").all (fun b => decide (b.toNat < 0x80)) = true := by decide
  exact fun b hb => of_decide_eq_true (List.all_eq_true.mp hall b hb)

/-- A request of 1970 is answered with a credential that Python accepts. -/
theorem issued_accepted_sample :
    Prog.Path (Issuer.serveIssue sampleGo Issuer.raceVerifier Issuer.raceConfig
      (some Issuer.raceToken)) (sampleCalls (Issuer.csrView Issuer.racePayload) 200)
      (Issuer.writeCredential (sampleRow 200).jws) ∧
    AcceptedInPython samplePython Issuer.raceConfig (sampleRow 200) := by
  have hparse : Issuer.parseAndVerifyCSR sampleGo Issuer.raceVerifier
      Issuer.raceConfig.issuerIdentifier (Go.Time.ofUnix 200) Issuer.raceToken =
        .ok Issuer.racePayload := by decide +kernel
  have hkey : Issuer.idempotencyKey sampleGo Issuer.racePayload.iss Issuer.racePayload.aud
      Issuer.racePayload.req = .ok Issuer.raceKey := by decide
  have hsub : Issuer.subjectPubFromCSR sampleGo Issuer.racePayload = .ok Issuer.attackerKey := by
    decide
  have hverified : Issuer.Verified sampleGo Issuer.raceVerifier Issuer.raceConfig
      (some Issuer.raceToken) (Go.Time.ofUnix 200) Issuer.racePayload Issuer.raceKey :=
    .of_token Issuer.race_request hparse hkey
  have hpath : Prog.Path (Issuer.serveIssue sampleGo Issuer.raceVerifier Issuer.raceConfig
      (some Issuer.raceToken)) (sampleCalls (Issuer.csrView Issuer.racePayload) 200)
      (Issuer.writeCredential (sampleRow 200).jws) :=
    Issuer.path_of_decision hverified hsub
      (Issuer.path_of_approval (sampleRow_minted 200 (by decide)) rfl)
  have hrow : ⟨.putCredential (sampleRow 200), .ok ()⟩ ∈
      sampleCalls (Issuer.csrView Issuer.racePayload) 200 := by simp [sampleCalls]
  refine ⟨hpath, (issued_accepted_iff sampleGo_signs samplePython_reads hpath hrow sample_ascii
    sample_ascii sample_byName (show 0 < 2 ^ 64 by decide)
    (show (605000 : Int) < 2 ^ 63 by decide)).mpr ?_⟩
  show (0 : Int) ≤ 200
  decide

/-- A request from the last minutes of 1969. -/
def pastToken : Bytes :=
  Issuer.compactToken Issuer.csrHeaderJson
    (bytes "\x7b\"iss\":\"z6Mkon3Necd6NkkyfoGoHxid2znGc59LU3K7mubaRcFbLfLX\",\"aud\":\"a.co\"," ++
      bytes "\"iat\":-300,\"exp\":0,\"req\":\x7b\"kind\":\"k\",\"org\":\"a.co\"\x7d\x7d")
    [157, 15, 210, 233, 255, 139, 13, 88, 156, 245, 89, 50, 86, 121, 10, 106, 65, 125, 124, 51,
      232, 222, 17, 5, 137, 102, 216, 118, 97, 249, 186, 72, 14, 229, 171, 74, 247, 122, 112, 195,
      129, 52, 157, 129, 136, 169, 217, 246, 26, 138, 143, 145, 8, 9, 184, 196, 178, 102, 7, 93,
      108, 37, 31, 7]

/-- Ed25519 on its signature. -/
def pastVerifier : Go.Verifier := fun key msg sig =>
  key == Issuer.attackerKey && (Issuer.compactJws sampleGo pastToken).toOption.any fun obj =>
    obj.signingInput == msg && obj.signature == sig

def pastRequest : Issuer.CsrPayload := { Issuer.racePayload with iat := -300, exp := 0 }

/-- The issuer answers it with a credential that Python never accepts. -/
theorem issued_before_era :
    SignsFor sampleGo samplePython Issuer.raceConfig.signerPrivate
      Issuer.raceConfig.signerPublic ∧
    ReadsTokens plainJson samplePython ∧
    Prog.Path (Issuer.serveIssue sampleGo pastVerifier Issuer.raceConfig (some pastToken))
      (sampleCalls (Issuer.csrView pastRequest) (-100))
      (Issuer.writeCredential (sampleRow (-100)).jws) ∧
    AuthorizedByName sampleGo Issuer.raceConfig.issuerIdentifier (sampleRow (-100)).org ∧
    (sampleRow (-100)).issuedAt = -100 ∧
    ¬ AcceptedInPython samplePython Issuer.raceConfig (sampleRow (-100)) := by
  have hrequest : Issuer.requestToken Issuer.raceConfig pastToken = pastToken ∧ pastToken ≠ [] := by
    decide +kernel
  have hparse : Issuer.parseAndVerifyCSR sampleGo pastVerifier
      Issuer.raceConfig.issuerIdentifier (Go.Time.ofUnix (-100)) pastToken = .ok pastRequest := by
    decide +kernel
  have hkey : Issuer.idempotencyKey sampleGo pastRequest.iss pastRequest.aud
      pastRequest.req = .ok Issuer.raceKey := by decide
  have hsub : Issuer.subjectPubFromCSR sampleGo pastRequest = .ok Issuer.attackerKey := by
    decide
  have hverified : Issuer.Verified sampleGo pastVerifier Issuer.raceConfig
      (some pastToken) (Go.Time.ofUnix (-100)) pastRequest Issuer.raceKey :=
    .of_token hrequest hparse hkey
  have hminted : Issuer.MintedAt sampleGo Issuer.raceConfig pastRequest Issuer.raceKey
      (Go.Time.ofUnix (-100)) (sampleRow (-100)) := by
    obtain ⟨hmint, hrow⟩ := sampleRow_minted (-100) (by decide)
    exact ⟨hmint, hrow⟩
  refine ⟨sampleGo_signs, samplePython_reads, Issuer.path_of_decision hverified hsub
    (Issuer.path_of_approval hminted rfl), sample_byName, rfl, fun h => ?_⟩
  have hera := era_of_accepted h
  revert hera
  show ¬ (0 : Int) ≤ -100
  decide

end Shadownet.Interop
