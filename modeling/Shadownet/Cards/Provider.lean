import Shadownet.Cards.Producer
import Shadownet.Interop.Decoded
import Shadownet.Interop.Names

/-!
# Provider cards across the languages

`SignCard` of the Go provider against `verify_agent_card` of the Python SDK.

* `provider_card_accepted`: whatever `SignCard` writes is accepted under its own name, and
  gives the key and the URL of the record.
* `accepted_for_other_name`: it is accepted under every other name of the provider too, since
  nothing in the signed card names the Shadow.
-/

namespace Shadownet.Cards

open Foundation Python
open Receiver (ProviderRecord)
open Interop (toGo fromGo latin Valid Readable decoded readDict clean_text)

/-! ## The body that is signed -/

theorem buildCard_eq_ok {G : Go.Runtime} {b : Go.CardBody} {body : List (Bytes × Go.JsonDoc)} :
    Go.buildCard G b = .ok body ↔
      b.shadowPublicKey ≠ [] ∧ Go.classify G b.shadowPublicKey = .pubKey ∧ b.a2aURL ≠ [] ∧
      body = b.extras.foldl (fun ms m => Json.setMember ms m.1 m.2) (b.required ++ b.optional) := by
  rw [Go.buildCard, guard_eq_ok, guard_eq_ok, guard_eq_ok, pure_eq_ok, not_not, eq_comm (a := body)]

theorem decodePubKey_of_classify {G : Go.Runtime} {s : Bytes} (h : Go.classify G s = .pubKey) :
    ∃ raw, Go.decodePubKey G s = .ok raw := by
  rw [Go.classify] at h
  split_ifs at h with h1 h2 h3 h4 h5
  cases hdec : Go.decodePubKey G s with
  | ok raw => exact ⟨raw, rfl⟩
  | error e =>
    rw [hdec] at h4
    cases h4

example : Go.classify Interop.plainGo (bytes "b@a.co") ≠ .pubKey := by decide

/-- The names of a document are valid and distinct, and it has no numbers. -/
def NamesOk (d : Go.JsonDoc) : Prop :=
  d.Forall (fun _ => False) (fun _ => True) fun ks => (∀ k ∈ ks, Valid k) ∧ ks.Nodup

theorem namesOk_literals {ks : List String} (h : ks.Nodup) :
    (∀ k ∈ ks.map bytes, Valid k) ∧ (ks.map bytes).Nodup := by
  rw [List.forall_mem_map]
  exact ⟨fun k _ => Interop.valid_bytes k, h.map bytes_injective⟩

/-- A body that was signed has valid strings throughout. -/
theorem readable_of_sign {G : Go.Runtime} {S : Go.Signer} {body signed : List (Bytes × Go.JsonDoc)}
    {signer dom pk : Bytes} {mode : Go.CardMode} (hnames : NamesOk (.obj body))
    (hsign : Go.signBody G S body signer mode dom pk = .ok signed) : Readable (.obj body) := by
  obtain ⟨-, -, pruned, payload, -, hpruned, hpayload, -⟩ := signBody_eq_ok.mp hsign
  have hblank : ∀ s : Bytes, List.isEmpty s = true → Valid s := by
    intro s hs
    rw [List.isEmpty_iff.mp hs]
    decide
  refine Json.forall_of_pruned hblank hnames ?_
  intro w hw
  rw [Go.stripEmpty, hw, Option.some.injEq] at hpruned
  rw [hpruned]
  exact Interop.jcsEncode_valid hpayload

theorem optional_eq {b : Go.CardBody} (hsec : b.additionalSecurity = []) :
    b.optional =
      (if b.issueEndpoint ≠ [] then [(bytes "shadownet:issueEndpoint", .str b.issueEndpoint)]
        else []) ++
      if b.statusListBase ≠ [] then [(bytes "shadownet:statusListBase", .str b.statusListBase)]
      else [] := by
  have hpin : ¬ (b.additionalSecurity ≠ [] ∨
      Go.hasPinnedSelfSigned b.additionalSecurity = true) := by
    rw [hsec]
    rintro (h | h)
    · exact h rfl
    · cases h
  rw [Go.CardBody.optional, if_neg hpin, List.append_nil]

/-- A body without security schemes and extras has the names of its constructor. -/
theorem namesOk_body {b : Go.CardBody} (hsec : b.additionalSecurity = []) :
    NamesOk (.obj (b.required ++ b.optional)) := by
  have hrequired : ∀ m ∈ b.required, NamesOk m.2 := by
    have hinterface : ∀ u v w : Bytes, NamesOk (.arr [.obj [(bytes "url", .str u),
        (bytes "protocolBinding", .str v), (bytes "protocolVersion", .str w)]]) := by
      intro u v w
      rw [NamesOk, Json.forall_arr, List.forall_mem_singleton, Json.forall_obj]
      refine ⟨?_, ?_⟩
      · exact @namesOk_literals ["url", "protocolBinding", "protocolVersion"] (by decide)
      · simp only [List.forall_mem_cons, List.not_mem_nil, false_imp_iff, implies_true, and_true]
        exact ⟨⟨trivial, trivial⟩, ⟨trivial, trivial⟩, trivial, trivial⟩
    have hcapabilities : NamesOk (.obj [(bytes "extensions", .arr [.obj
        [(bytes "uri", .str (bytes "urn:shadownet:0.2")), (bytes "required", .bool true),
          (bytes "description", .str (bytes "Shadownet identity envelope"))]])]) := by
      rw [NamesOk, Json.forall_obj, List.forall_mem_singleton, Json.forall_arr,
        List.forall_mem_singleton, Json.forall_obj]
      refine ⟨@namesOk_literals ["extensions"] (by decide), trivial,
        @namesOk_literals ["uri", "required", "description"] (by decide), ?_⟩
      simp only [List.forall_mem_cons, List.not_mem_nil, false_imp_iff, implies_true, and_true]
      exact ⟨⟨trivial, trivial⟩, ⟨trivial, trivial⟩, trivial, trivial⟩
    rw [Go.CardBody.required]
    simp only [List.forall_mem_cons, List.not_mem_nil, false_imp_iff, implies_true, and_true]
    exact ⟨trivial, trivial, trivial, hinterface _ _ _, hcapabilities, trivial, trivial⟩
  have hoptional : ∀ m ∈ b.optional, NamesOk m.2 := by
    rw [optional_eq hsec]
    intro m hm
    rcases List.mem_append.mp hm with hm | hm
    all_goals
      split_ifs at hm
      · rw [List.mem_singleton.mp hm]
        trivial
      · cases hm
  rw [NamesOk, Json.forall_obj]
  refine ⟨?_, fun m hm => ⟨trivial, ?_⟩⟩
  · rw [optional_eq hsec, Go.CardBody.required]
    have hall : ∀ issue status : Bool, (["name", "description", "version",
        "supportedInterfaces", "capabilities", "shadownet:v", "shadownet:pk"] ++
        ((if issue then ["shadownet:issueEndpoint"] else []) ++
          if status then ["shadownet:statusListBase"] else [])).Nodup := by
      decide
    have hnames := namesOk_literals (hall (decide (b.issueEndpoint ≠ []))
      (decide (b.statusListBase ≠ [])))
    simp only [decide_eq_true_eq] at hnames
    split_ifs at hnames ⊢ <;> exact hnames
  · exact (List.mem_append.mp hm).elim (hrequired m) (hoptional m)

/-! ## What Python reads from it -/

/-- A required member of a body, as Python reads it. -/
theorem get?_body {b : Go.CardBody} (h : Readable (.obj (b.required ++ b.optional))) {k : String}
    {v : Go.JsonDoc} (hv : b.required.lookup (bytes k) = some v) :
    (readDict _ h).get? (text k) = some (fromGo v) := by
  rw [Interop.get?_readDict h (clean_text k), utf8_text, List.lookup_append, hv]
  rfl

theorem valid_body {b : Go.CardBody} (h : Readable (.obj (b.required ++ b.optional))) :
    Valid b.shadowPublicKey ∧ Valid b.a2aURL := by
  have hmember : ∀ {k : Bytes} {v : Go.JsonDoc}, b.required.lookup k = some v → Readable v := by
    intro k v hk
    exact ((Json.forall_obj.mp h).2 _ (List.mem_append_left _ (Json.mem_of_lookup hk))).2
  have hinterfaces : Readable (.arr [.obj _]) := hmember (k := bytes "supportedInterfaces") rfl
  rw [Readable, Json.forall_arr, List.forall_mem_singleton, Json.forall_obj] at hinterfaces
  exact ⟨hmember (k := bytes "shadownet:pk") rfl, (hinterfaces.2 _ List.mem_cons_self).2⟩

/-- The fields of a body. -/
theorem fields_body (G : Runtime) {b : Go.CardBody}
    (h : Readable (.obj (b.required ++ b.optional)))
    (hkey : ∃ raw, parsePublicKey G (decoded b.shadowPublicKey) = .ok raw) (hurl : b.a2aURL ≠ []) :
    Fields G (readDict _ h) (decoded b.shadowPublicKey) (decoded b.a2aURL) where
  key := get?_body h (k := "shadownet:pk") rfl
  parses := hkey
  version := get?_body h (k := "shadownet:v") rfl
  extensions := by
    refine validateExtensions_eq_ok.mpr ⟨_, _,
      get?_body h (k := "capabilities") rfl, rfl, _, List.mem_cons_self, ?_⟩
    decide
  url := by
    refine supportedInterfaceUrl_eq_ok.mpr ⟨?_, _, _,
      get?_body h (k := "supportedInterfaces") rfl, _, rfl, rfl⟩
    intro hnil
    apply hurl
    rw [← (Interop.decoded_of_valid (valid_body h).2).1, hnil]
    rfl

/-- The fields do not depend on the signature. -/
theorem Fields.signed {G : Runtime} {body : Dict} {pk url : Text} (hf : Fields G body pk url)
    (header signature : Bytes) : Fields G (signedDict body header signature) pk url := by
  have hget : ∀ {k : Text}, k ≠ text "signatures" →
      (signedDict body header signature).get? k = body.get? k := by
    intro k hk
    rw [signedDict, Dict.get?_set, if_neg hk]
  refine ⟨?_, hf.parses, ?_, ?_, ?_⟩
  · rw [hget (text_injective.ne (by decide)), hf.key]
  · rw [hget (text_injective.ne (by decide)), hf.version]
  · rw [← hf.extensions, validateExtensions, validateExtensions,
      hget (text_injective.ne (by decide))]
  · rw [← hf.url, supportedInterfaceUrl, supportedInterfaceUrl,
      hget (text_injective.ne (by decide))]

/-- What Python reads from a built and signed card: a payload that was signed under `kid`, and
the fields of the body. -/
theorem built_card {G : Go.Runtime} {S : Go.Signer} (G' : Runtime) (J : JsonRuntime)
    {b : Go.CardBody} {body signed : List (Bytes × Go.JsonDoc)} {signer dom pk enc : Bytes}
    {mode : Go.CardMode} {kid : Text} {signers : List Text} (hsec : b.additionalSecurity = [])
    (hextras : b.extras = []) (hbuild : Go.buildCard G b = .ok body)
    (hsign : Go.signBody G S body signer mode dom pk = .ok signed)
    (hkid : Go.cardKid G mode dom pk = .ok (utf8 kid)) (hclean : Clean kid)
    (hgenuine : Genuine G' S signer) (henc : Go.encodePubKey (Go.publicKey signer) = .ok enc)
    (hmem : decoded enc ∈ signers) :
    ∃ (h : Readable (.obj (b.required ++ b.optional))) (header signature : Bytes) (card : Dict),
      jsonLoads J (Go.marshalValue (.obj signed)) = .ok (.obj card.members) ∧
      SameFields (signedDict (readDict _ h) header signature) card ∧
      SignedBy G' J card signers kid ∧
      Fields G' card (decoded b.shadowPublicKey) (decoded b.a2aURL) := by
  obtain ⟨-, hclass, hurl, rfl⟩ := buildCard_eq_ok.mp hbuild
  rw [hextras, List.foldl_nil] at hsign
  have h := readable_of_sign (namesOk_body hsec) hsign
  have hgo : Interop.fromGo (.obj (b.required ++ b.optional)) = .obj (readDict _ h).members :=
    Interop.fromGo_obj _
  have hencodable : Python.Encodable (.obj (readDict _ h).members) := by
    rw [← hgo]
    exact Interop.encodable_fromGo h
  have hbody : IsGoBody (readDict _ h) (b.required ++ b.optional) := by
    have := Interop.toGo_fromGo h
    rw [hgo, Interop.toGo_obj, Json.obj.injEq] at this
    exact this.symm
  obtain ⟨payload, kid', card, hkid', hload, hfields, hpayload⟩ :=
    signed_card J hencodable hbody hsign
  rw [hkid, Except.ok.injEq] at hkid'
  subst hkid'
  obtain ⟨-, hascii, -⟩ := Interop.parsePublicKey_of_encodePubKey G' henc
  rw [Interop.decoded_ascii hascii] at hmem
  obtain ⟨raw, hraw⟩ := decodePubKey_of_classify hclass
  obtain ⟨hparse, hpk⟩ := Interop.parsePublicKey_of_decodePubKey G' hraw
  rw [← Interop.decoded_ascii hpk] at hparse
  exact ⟨h, _, _, card, hload, hfields,
    signedBy_of_sign J hclean hgenuine henc hmem hfields hpayload,
    ((fields_body G' h ⟨raw, hparse⟩ hurl).signed _ _).congr hfields⟩

/-! ## Provider cards -/

theorem signCard_eq_ok {G : Go.Runtime} {S : Go.Signer} {r : Go.ProviderCard}
    {dom signer b : Bytes} :
    r.signCard G S dom signer = .ok b ↔ ∃ body signed,
      Go.buildCard G (r.body dom) = .ok body ∧
      Go.signBody G S body signer .shadowname dom r.shadowPublicKey = .ok signed ∧
      b = Go.marshalValue (.obj signed) := by
  simp only [Go.ProviderCard.signCard, bind_eq_ok, mapError_eq_ok, pure_eq_ok]
  constructor
  · rintro ⟨body, hbuild, signed, hsign, rfl⟩
    exact ⟨body, signed, hbuild, hsign, rfl⟩
  · rintro ⟨body, signed, hbuild, hsign, rfl⟩
    exact ⟨body, hbuild, signed, hsign, rfl⟩

theorem cardKid_of_sign {G : Go.Runtime} {S : Go.Signer} {body signed : List (Bytes × Go.JsonDoc)}
    {signer pk : Bytes} {D : Text}
    (hsign : Go.signBody G S body signer .shadowname (utf8 D) pk = .ok signed) :
    Go.cardKid G .shadowname (utf8 D) pk = .ok (utf8 (text "shadownet@" ++ D)) := by
  obtain ⟨-, -, -, -, kid, -, -, hkid, -⟩ := signBody_eq_ok.mp hsign
  rw [Go.cardKid, guard_eq_ok, guard_eq_ok, pure_eq_ok] at hkid
  obtain ⟨hne, hdomain, -⟩ := hkid
  rw [Go.cardKid, if_neg hne, if_neg hdomain, utf8_append, utf8_text]
  rfl

example : Go.cardKid Interop.plainGo .shadowname (bytes "a.co") [] =
    .ok (bytes "shadownet@a.co") := by
  decide

/-- A provider card is accepted under every name of the provider. -/
theorem verifyAgentCard_of_signCard (G : Go.Runtime) (G' : Runtime) (J : JsonRuntime)
    (S : Go.Signer) {r : Go.ProviderCard} {signer b enc : Bytes} {record : ProviderRecord}
    {n name : Text} (hname : validateShadowname G' n = .ok name)
    (hdomain : (partitionAt name).2 = record.domain) (hclean : Clean record.domain)
    (hgenuine : Genuine G' S signer) (henc : Go.encodePubKey (Go.publicKey signer) = .ok enc)
    (hkey : decoded enc ∈ record.providerKeys)
    (hsign : r.signCard G S (utf8 record.domain) signer = .ok b) :
    ∃ card f, jsonLoads J b = .ok (.obj (Dict.members card)) ∧
      verifyAgentCard G' J card record n = .ok f ∧ f.shadowname = name ∧
      utf8 f.shadowPublicKey = r.shadowPublicKey ∧ utf8 f.endpointUrl = r.a2aURL := by
  obtain ⟨body, signed, hbuild, hsigned, rfl⟩ := signCard_eq_ok.mp hsign
  have hkid : Clean (text "shadownet@" ++ record.domain) := by
    intro c hc
    rcases List.mem_append.mp hc with hc | hc
    · exact clean_text "shadownet@" c hc
    · exact hclean c hc
  obtain ⟨h, -, -, card, hload, -, hby, hfields⟩ := built_card G' J rfl rfl hbuild hsigned
    (cardKid_of_sign hsigned) hkid hgenuine henc hkey
  obtain ⟨hpk, hurl⟩ := valid_body h
  exact ⟨card, ⟨name, _, _, card⟩, hload,
    verifyAgentCard_eq_ok.mpr ⟨hname, hdomain, hby, hfields, rfl⟩, rfl,
    (Interop.decoded_of_valid hpk).1, (Interop.decoded_of_valid hurl).1⟩

/-! ### The card of `b@a.co` -/

def sampleRecord : Go.ProviderCard where
  localPart := bytes "b"
  shadowPublicKey := bytes "z6MkvDqGT54cXesYGvABpF1UapVNwjCqRcafi4Px6Thv5T3Z"
  a2aURL := bytes "https://a.co/b"
  displayName := []
  description := []
  version := []

/-- The private key with the public key after it. -/
def sampleSigner : Bytes := List.replicate 32 7 ++ cardKeyBytes

/-- What `Sign` signs for the sample. -/
def sampleMessage : Bytes :=
  signingInput
    (bytes "\x7b\"alg\":\"EdDSA\",\"kid\":\"shadownet@a.co\",\"typ\":\"JOSE\"\x7d")
    (bytes "\x7b\"capabilities\":\x7b\"extensions\":[\x7b\"description\":" ++
      bytes "\"Shadownet identity envelope\",\"required\":true," ++
        bytes "\"uri\":\"urn:shadownet:0.2\"\x7d]\x7d," ++
      bytes "\"description\":\"b@a.co\",\"name\":\"b\",\"shadownet:pk\":" ++
      bytes "\"z6MkvDqGT54cXesYGvABpF1UapVNwjCqRcafi4Px6Thv5T3Z\",\"shadownet:v\":\"0.2\"," ++
      bytes "\"supportedInterfaces\":[\x7b\"protocolBinding\":\"HTTP+JSON\"," ++
        bytes "\"protocolVersion\":\"1.0\"," ++
      bytes "\"url\":\"https://a.co/b\"\x7d],\"version\":\"1.0.0\"\x7d")

/-- Ed25519 on one message. -/
def signOne (message signature : Bytes) : Go.Signer := fun _ msg =>
  if msg = message then signature else []

def verifyOf (S : Go.Signer) : Runtime := { bareRuntime with
  ed25519Verify := fun key sig msg => key == cardKeyBytes && sig == S sampleSigner msg }

theorem genuine_verifyOf (S : Go.Signer) : Genuine (verifyOf S) S sampleSigner := by
  intro msg
  have hkey : Go.publicKey sampleSigner = cardKeyBytes := by decide
  show (Go.publicKey sampleSigner == cardKeyBytes &&
    S sampleSigner msg == S sampleSigner msg) = true
  rw [hkey, beq_self_eq_true, beq_self_eq_true]
  rfl

def sampleSign : Go.Signer := signOne sampleMessage
  [47, 92, 12, 61, 250, 68, 197, 45, 128, 236, 198, 80, 77, 213, 15, 59, 124, 113, 153, 23, 179,
    136, 150, 140, 62, 106, 9, 66, 89, 46, 113, 3, 245, 167, 234, 230, 82, 162, 100, 5, 150, 139,
    80, 123, 139, 163, 179, 156, 236, 93, 247, 131, 165, 92, 43, 217, 50, 176, 167, 75, 11, 250,
    234, 13]

theorem encodePubKey_sample :
    Go.encodePubKey (Go.publicKey sampleSigner) = .ok sampleRecord.shadowPublicKey := by
  decide +kernel

theorem signCard_sample : ∃ b, sampleRecord.signCard Interop.plainGo sampleSign
    (utf8 (text "a.co")) sampleSigner = .ok b := by
  have hok : (sampleRecord.signCard Interop.plainGo sampleSign (utf8 (text "a.co"))
      sampleSigner).isOk = true := by
    decide
  cases h : sampleRecord.signCard Interop.plainGo sampleSign (utf8 (text "a.co")) sampleSigner with
  | ok b => exact ⟨b, rfl⟩
  | error e =>
    rw [h] at hok
    cases hok

/-- The card `SignCard` writes for a record, read by Python, is accepted under the name of the
record and gives its key and its URL. -/
theorem provider_card_accepted (G : Go.Runtime) (G' : Runtime) (J : JsonRuntime) (S : Go.Signer)
    (r : Go.ProviderCard) (signer b enc : Bytes) (loc D : Text) (record : ProviderRecord)
    (hlocal : utf8Decode r.localPart = some loc)
    (hvalid : Go.validateShadownameLocal G r.localPart = .ok ())
    (hascii : ∀ c ∈ D, c.IsAscii) (hcanonical : Go.canonicalDomain G (utf8 D) = .ok (utf8 D))
    (hrecord : record.domain = D) (hgenuine : Genuine G' S signer)
    (henc : Go.encodePubKey (Go.publicKey signer) = .ok enc)
    (hkey : decoded enc ∈ record.providerKeys)
    (hsign : r.signCard G S (utf8 D) signer = .ok b) :
    ∃ card f, jsonLoads J b = .ok (.obj (Dict.members card)) ∧
      verifyAgentCard G' J card record (loc ++ 64 :: D) = .ok f ∧
      utf8 f.shadowPublicKey = r.shadowPublicKey ∧ utf8 f.endpointUrl = r.a2aURL := by
  obtain ⟨hutf8, hclean⟩ := utf8Decode_eq_some hlocal
  rw [← hutf8] at hvalid
  obtain ⟨name, hname, hpart⟩ := Interop.validateShadowname_of_go G G' hclean hvalid hascii
    hcanonical
  rw [← hrecord] at hsign hpart hascii
  obtain ⟨card, f, hload, hf, -, hpk, hurl⟩ := verifyAgentCard_of_signCard G G' J S hname hpart
    (Interop.clean_of_ascii hascii) hgenuine henc hkey hsign
  exact ⟨card, f, hload, hf, hpk, hurl⟩

/-- The sample against a record that has the signer's key as the second of its keys. -/
theorem provider_card_accepted_sample :
    ∃ b card f, sampleRecord.signCard Interop.plainGo sampleSign (utf8 (text "a.co"))
        sampleSigner = .ok b ∧
      jsonLoads Interop.plainJson b = .ok (.obj (Dict.members card)) ∧
      verifyAgentCard (verifyOf sampleSign) Interop.plainJson card
        { cardRecord with providerKeys := [[], cardKey] } (text "b@a.co") = .ok f ∧
      utf8 f.shadowPublicKey = sampleRecord.shadowPublicKey ∧
      utf8 f.endpointUrl = sampleRecord.a2aURL := by
  obtain ⟨b, hb⟩ := signCard_sample
  have hascii : ∀ c ∈ text "a.co", c.IsAscii := by
    have hall : (text "a.co").all (fun c => decide c.IsAscii) = true := by decide
    exact fun c hc => of_decide_eq_true (List.all_eq_true.mp hall c hc)
  obtain ⟨card, f, hload, hf, hpk, hurl⟩ := provider_card_accepted Interop.plainGo
    (verifyOf sampleSign)
    Interop.plainJson sampleSign sampleRecord sampleSigner b _ (text "b") (text "a.co")
    { cardRecord with providerKeys := [[], cardKey] } (by decide) (by decide) hascii
    (by decide) rfl (genuine_verifyOf _) encodePubKey_sample (by decide) hb
  have hname : text "b" ++ 64 :: text "a.co" = text "b@a.co" := by decide
  rw [hname] at hf
  exact ⟨b, card, f, hb, hload, hf, hpk, hurl⟩

/-- The card `SignCard` writes for the Shadow `b` is accepted under the name of any other Shadow
`a` of the provider, and binds the key of `b` to it. -/
theorem accepted_for_other_name (G : Go.Runtime) (G' : Runtime) (J : JsonRuntime) (S : Go.Signer)
    (r : Go.ProviderCard) (signer out enc : Bytes) (a b D : Text) (record : ProviderRecord)
    (hab : a ≠ b) (hrecord : record.domain = D)
    (ha : validateShadowname G' (a ++ 64 :: D) = .ok (a ++ 64 :: D))
    (hb : validateShadowname G' (b ++ 64 :: D) = .ok (b ++ 64 :: D))
    (_ : r.localPart = utf8 b) (hgenuine : Genuine G' S signer)
    (henc : Go.encodePubKey (Go.publicKey signer) = .ok enc)
    (hkey : decoded enc ∈ record.providerKeys)
    (hsign : r.signCard G S (utf8 D) signer = .ok out) :
    ∃ card f, jsonLoads J out = .ok (.obj (Dict.members card)) ∧
      verifyAgentCard G' J card record (a ++ 64 :: D) = .ok f ∧
      f.shadowname = a ++ 64 :: D ∧ utf8 f.shadowPublicKey = r.shadowPublicKey := by
  obtain ⟨loc, dom, hparts, hloc, hdom, hclean⟩ := Interop.validateShadowname_parts ha
  obtain ⟨rfl, -, rfl⟩ := (List.append_cons_inj_of_notMem hloc hdom).mp hparts.symm
  rw [← hrecord] at hsign hclean
  have hpart : (partitionAt (loc ++ 64 :: dom)).2 = record.domain := by
    rw [Interop.partitionAt_of_not_mem hloc, hrecord]
  obtain ⟨card, f, hload, hf, hname, hpk, -⟩ := verifyAgentCard_of_signCard G G' J S ha hpart
    hclean hgenuine henc hkey hsign
  exact ⟨card, f, hload, hf, hname, hpk⟩

theorem accepted_for_other_name_sample :
    ∃ out card f, sampleRecord.signCard Interop.plainGo sampleSign (utf8 (text "a.co"))
        sampleSigner = .ok out ∧
      jsonLoads Interop.plainJson out = .ok (.obj (Dict.members card)) ∧
      verifyAgentCard (verifyOf sampleSign) Interop.plainJson card cardRecord
        (text "a" ++ 64 :: text "a.co") = .ok f ∧
      f.shadowname = text "a" ++ 64 :: text "a.co" ∧
      utf8 f.shadowPublicKey = sampleRecord.shadowPublicKey := by
  obtain ⟨out, hout⟩ := signCard_sample
  obtain ⟨card, f, hload, hf, hname, hpk⟩ := accepted_for_other_name Interop.plainGo
    (verifyOf sampleSign)
    Interop.plainJson sampleSign sampleRecord sampleSigner out _ (text "a") (text "b") (text "a.co")
    cardRecord (by decide) rfl (by decide) (by decide)
    (by decide) (genuine_verifyOf _) encodePubKey_sample (by decide) hout
  exact ⟨out, card, f, hout, hload, hf, hname, hpk⟩

/-- The card of `b@a.co` passes for `a@a.co`. -/
theorem other_name_not_rejected :
    ¬ ∀ (out : Bytes) (card : Dict), sampleRecord.signCard Interop.plainGo sampleSign
        (utf8 (text "a.co")) sampleSigner = .ok out →
      jsonLoads Interop.plainJson out = .ok (.obj card.members) →
      ∃ e, verifyAgentCard (verifyOf sampleSign) Interop.plainJson card cardRecord
        (text "a@a.co") = .error e := by
  intro hclaim
  obtain ⟨out, hout⟩ := signCard_sample
  have hname : validateShadowname (verifyOf sampleSign) (text "a@a.co") = .ok (text "a@a.co") := by
    decide
  have hpart : (partitionAt (text "a@a.co")).2 =
      cardRecord.domain := by
    decide
  obtain ⟨card, f, hload, hf, -⟩ := verifyAgentCard_of_signCard Interop.plainGo
    (verifyOf sampleSign)
    Interop.plainJson sampleSign hname hpart (clean_text "a.co")
    (genuine_verifyOf _) encodePubKey_sample (by decide) hout
  obtain ⟨e, he⟩ := hclaim out card hout hload
  rw [hf] at he
  cases he

end Shadownet.Cards
