import Shadownet.Cards.Provider
import Shadownet.Issuer.Server

/-!
# The card of a keyed Hub

`serveAgentCard` builds a direct-mode card without `AddPinnedSelfSigned`. Python reads the URLs
it was configured with and a signature that verifies, but `verify_self_signed_agent_card` wants
the security scheme (`hub_card_rejected`).
-/

namespace Shadownet.Cards

open Foundation Python
open Issuer (HandlerInput Handler newHandler)
open Interop (toGo fromGo Valid Readable decoded readDict clean_text
  valid_bytes)

/-! ## The body is signed -/

/-- A body with valid fields is readable. -/
theorem readable_body {b : Go.CardBody} (hsec : b.additionalSecurity = []) (hname : Valid b.name)
    (hdescription : Valid b.description) (hversion : Valid b.version) (hurl : Valid b.a2aURL)
    (hbinding : b.a2aProtocolBinding = []) (hprotocol : b.a2aProtocolVersion = [])
    (hpk : Valid b.shadowPublicKey) (hissue : Valid b.issueEndpoint)
    (hstatus : Valid b.statusListBase) : Readable (.obj (b.required ++ b.optional)) := by
  have hdefault : ∀ {s : Bytes} {d : String}, Valid s → Valid (bytes d) →
      Valid (Go.orDefault s d) := by
    intro s d hs hd
    rw [Go.orDefault]
    split_ifs
    · exact hd
    · exact hs
  have hstrings : (Json.obj (b.required ++ b.optional)).Forall (fun _ => True) Valid
      fun _ => True := by
    rw [Json.forall_obj]
    refine ⟨trivial, List.forall_mem_append.mpr ⟨?_, ?_⟩⟩
    · have hinterface : (Json.arr [.obj [(bytes "url", .str b.a2aURL),
          (bytes "protocolBinding", .str (Go.orDefault b.a2aProtocolBinding "HTTP+JSON")),
          (bytes "protocolVersion", .str (Go.orDefault b.a2aProtocolVersion "1.0"))]] :
          Go.JsonDoc).Forall (fun _ => True) Valid fun _ => True := by
        rw [hbinding, hprotocol, Json.forall_arr, List.forall_mem_singleton, Json.forall_obj]
        refine ⟨trivial, ?_⟩
        simp only [List.forall_mem_cons, List.not_mem_nil, false_imp_iff, implies_true, and_true]
        exact ⟨⟨valid_bytes _, hurl⟩, ⟨valid_bytes _, valid_bytes _⟩, valid_bytes _, valid_bytes _⟩
      have hcapabilities : (Json.obj [(bytes "extensions", .arr [.obj
          [(bytes "uri", .str (bytes "urn:shadownet:0.2")), (bytes "required", .bool true),
            (bytes "description", .str (bytes "Shadownet identity envelope"))]])] :
          Go.JsonDoc).Forall (fun _ => True) Valid fun _ => True := by
        decide
      rw [Go.CardBody.required]
      simp only [List.forall_mem_cons, List.not_mem_nil, false_imp_iff, implies_true, and_true]
      exact ⟨⟨valid_bytes _, hname⟩, ⟨valid_bytes _, hdescription⟩,
        ⟨valid_bytes _, hdefault hversion (valid_bytes _)⟩, ⟨valid_bytes _, hinterface⟩,
        ⟨valid_bytes _, hcapabilities⟩, ⟨valid_bytes _, valid_bytes _⟩, valid_bytes _, hpk⟩
    · rw [optional_eq hsec]
      refine List.forall_mem_append.mpr ⟨?_, ?_⟩
      all_goals split_ifs
      · exact List.forall_mem_singleton.mpr ⟨valid_bytes _, hissue⟩
      · simp
      · exact List.forall_mem_singleton.mpr ⟨valid_bytes _, hstatus⟩
      · simp
  exact ((namesOk_body hsec).and hstrings).mono (fun _ hn => hn.1) (fun _ hs => hs.2)
    fun _ hn => hn.1.2

/-- A readable body can be signed. -/
theorem signBody_of_readable (G : Go.Runtime) (S : Go.Signer) {b : Go.CardBody}
    {signer dom pk kid : Bytes} {mode : Go.CardMode} (hsec : b.additionalSecurity = [])
    (h : Readable (.obj (b.required ++ b.optional))) (hsigner : signer.length = 64)
    (hkid : Go.cardKid G mode dom pk = .ok kid) :
    ∃ signed, Go.signBody G S (b.required ++ b.optional) signer mode dom pk = .ok signed := by
  have hfresh : (b.required ++ b.optional).lookup (bytes "signatures") = none := by
    have hrequired : b.required.lookup (bytes "signatures") = none := rfl
    rw [List.lookup_append, hrequired, optional_eq hsec]
    split_ifs <;> rfl
  have hkept : Go.stripEmpty (.obj (b.required ++ b.optional)) ≠ none := by
    intro hnone
    have hmem : (bytes "shadownet:v", Json.str (bytes "0.2")) ∈
        Json.prunedMembers List.isEmpty (b.required ++ b.optional) := by
      rw [Json.prunedMembers_eq]
      refine List.mem_filterMap.mpr ⟨_, List.mem_append_left _ (Json.mem_of_lookup
        (k := bytes "shadownet:v") (v := .str (bytes "0.2")) rfl), rfl⟩
    have := Json.pruned_obj_eq_some.mpr ⟨List.ne_nil_of_mem hmem, rfl⟩
    rw [Go.stripEmpty] at hnone
    rw [hnone] at this
    cases this
  obtain ⟨pruned, hpruned⟩ := Option.ne_none_iff_exists'.mp hkept
  obtain ⟨payload, hpayload⟩ : ∃ payload, Go.canonicalize G pruned = .ok payload := by
    rw [Go.stripEmpty, ← Interop.toGo_fromGo h, Interop.pruned_toGo, Option.map_eq_some_iff]
      at hpruned
    obtain ⟨v, hv, rfl⟩ := hpruned
    exact ⟨_, Interop.canonicalize_toGo G
      (Json.forall_pruned (fun _ _ => trivial) (Interop.encodable_fromGo h) hv)⟩
  exact ⟨_, signBody_eq_ok.mpr ⟨hfresh, hsigner, pruned, payload, kid, hpruned, hpayload, hkid,
    rfl⟩⟩

/-! ## What Python makes of it -/

/-- A field of the body as Python reads it from the signed card. -/
theorem extractField_of_lookup {body : List (Bytes × Go.JsonDoc)} {hread : Readable (.obj body)}
    {card : Dict} {header signature : Bytes}
    (hsame : SameFields (signedDict (readDict body hread) header signature) card) {k : String}
    {s : Bytes} (hne : k ≠ "signatures") (hs : Valid s) (hsne : s ≠ [])
    (hget : body.lookup (bytes k) = some (.str s)) :
    (extractField card (text k)).map utf8 = some s := by
  obtain ⟨hback, -⟩ := Interop.decoded_of_valid hs
  have hcard : card.get? (text k) = some (.str (decoded s)) := by
    refine hsame.str ?_
    rw [signedDict, Dict.get?_set, if_neg (text_injective.ne hne),
      Interop.get?_readDict hread (clean_text k), utf8_text, hget]
    rfl
  have hdecoded : decoded s ≠ [] := by
    intro hnil
    apply hsne
    rw [← hback, hnil]
    rfl
  obtain ⟨c, t, hct⟩ := List.exists_cons_of_ne_nil hdecoded
  rw [extractField, hcard, hct, Option.map_some, ← hct, hback]

/-- A name that the body does not have is not in the signed card. -/
theorem get?_of_lookup_none {body : List (Bytes × Go.JsonDoc)} {hread : Readable (.obj body)}
    {card : Dict} {header signature : Bytes}
    (hsame : SameFields (signedDict (readDict body hread) header signature) card) {k : String}
    (hne : k ≠ "signatures") (hget : body.lookup (bytes k) = none) :
    card.get? (text k) = none := by
  have hrel := hsame (text k)
  rw [signedDict, Dict.get?_set, if_neg (text_injective.ne hne),
    Interop.get?_readDict hread (clean_text k), utf8_text, hget] at hrel
  cases hcard : card.get? (text k) with
  | none => rfl
  | some v =>
    rw [hcard] at hrel
    cases hrel

/-- Without the scheme every card that is otherwise right is rejected. -/
theorem verifySelfSigned_of_missing {G : Runtime} {J : JsonRuntime} {card : Dict} {K url : Text}
    (hby : SignedBy G J card [K] K) (hfields : Fields G card K url)
    (hmissing : card.get? (text "securitySchemes") = none) :
    verifySelfSignedAgentCard G J card K =
      .error (agentCardError (text "direct-mode AgentCard must declare securitySchemes[" ++
        G.reprStr pinnedSelfSignedScheme ++ text "] per RFC 0001 §5.4")) := by
  obtain ⟨sigs, payload, hsigs, hpayload, hverify⟩ := hby
  have hscheme : validateDirectSecurityScheme G card =
      .error (agentCardError (text "direct-mode AgentCard must declare securitySchemes[" ++
        G.reprStr pinnedSelfSignedScheme ++ text "] per RFC 0001 §5.4")) := by
    rw [validateDirectSecurityScheme, hmissing]
    rfl
  rw [verifySelfSignedAgentCard, hsigs, ok_bind, hpayload, ok_bind, hverify, ok_bind,
    requireStr_eq_ok.mpr hfields.key, ok_bind, if_neg (by simp),
    checkShadowKey_eq_ok.mpr hfields.parses, ok_bind, checkVersion_eq_ok.mpr hfields.version,
    ok_bind, hfields.extensions, ok_bind, hscheme]
  rfl

/-- The card a keyed Hub writes about itself has a genuine signature, its key and its URLs, but
no security scheme. -/
theorem hub_card (G : Go.Runtime) (G' : Runtime) (J : JsonRuntime) (S : Go.Signer)
    {cfg : HandlerInput} {h : Handler} (hnew : newHandler G cfg = .ok h)
    (hmode : cfg.mode = .keyed) (hid : cfg.issuerIdentifier = h.signerPubMB)
    (hname : Valid cfg.keyedAgentCardSubject.name)
    (hdescription : Valid cfg.keyedAgentCardSubject.description)
    (hversion : Valid cfg.keyedAgentCardSubject.version)
    (hurl : Valid cfg.keyedAgentCardSubject.a2aURL)
    (hissue : Valid cfg.keyedAgentCardSubject.issueURL)
    (hstatus : Valid cfg.keyedAgentCardSubject.statusListBase)
    (hgenuine : Genuine G' S cfg.signer) :
    ∃ card, (h.serveAgentCard G S).status = 200 ∧
      jsonLoads J (h.serveAgentCard G S).body = .ok (.obj (Dict.members card)) ∧
      SignedBy G' J card [decoded cfg.issuerIdentifier] (decoded cfg.issuerIdentifier) ∧
      (∃ url, Fields G' card (decoded cfg.issuerIdentifier) url) ∧
      card.get? (text "securitySchemes") = none ∧
      (extractIssuerEndpoint card).map utf8 = some cfg.keyedAgentCardSubject.issueURL ∧
      (extractStatusListBase card).map utf8 = some cfg.keyedAgentCardSubject.statusListBase := by
  obtain ⟨hsigner, hcheck, hcfg, henc⟩ := Issuer.newHandler_eq_ok hnew
  obtain ⟨ha2a, hissueNe, hstatusNe, hclass⟩ := Issuer.checkMode_keyed hmode hcheck
  obtain ⟨-, hascii, -⟩ := Interop.parsePublicKey_of_encodePubKey G' henc
  have hpk : Valid h.signerPubMB := by
    rw [← Interop.utf8_latin hascii]
    exact Interop.valid_utf8 (Interop.clean_latin hascii)
  obtain ⟨hutf8, hclean⟩ := Interop.decoded_of_valid hpk
  rw [hid] at hclass
  have hpkNe : h.signerPubMB ≠ [] := by
    rw [Go.encodePubKey, guard_eq_ok, pure_eq_ok] at henc
    rw [← henc.2]
    simp
  have hread : Readable (.obj (h.cardBody.required ++ h.cardBody.optional)) := by
    refine readable_body rfl ?_ ?_ ?_ ?_ rfl rfl hpk ?_ ?_
    all_goals
      rw [Handler.cardBody, hcfg]
      assumption
  have hkid : Go.cardKid G .direct [] h.signerPubMB = .ok h.signerPubMB := by
    rw [Go.cardKid, if_neg hpkNe, if_neg (by rw [hclass]; simp)]
    rfl
  have hbuild : Go.buildCard G h.cardBody = .ok (h.cardBody.required ++ h.cardBody.optional) := by
    refine buildCard_eq_ok.mpr ⟨hpkNe, hclass, ?_, rfl⟩
    rw [Handler.cardBody, hcfg]
    exact ha2a
  obtain ⟨signed, hsign⟩ := signBody_of_readable G S rfl hread hsigner hkid
  have hserve : h.serveAgentCard G S = ⟨200, [(bytes "Content-Type", bytes "application/a2a+json"),
      (bytes "Cache-Control", bytes "max-age=3600")], Go.marshalValue (.obj signed)⟩ := by
    rw [Handler.serveAgentCard, Handler.agentCard, hbuild, ok_bind, hcfg, hsign]
    rfl
  have hkid' : Go.cardKid G .direct [] h.signerPubMB = .ok (utf8 (decoded h.signerPubMB)) := by
    rw [hutf8, hkid]
  obtain ⟨hread', header, signature, card, hload, hsame, hby, hfields⟩ := built_card
    G' J rfl rfl hbuild hsign hkid' hclean hgenuine henc
    (List.mem_singleton.mpr rfl : decoded h.signerPubMB ∈ [decoded h.signerPubMB])
  have hoptional : h.cardBody.optional =
      [(bytes "shadownet:issueEndpoint", .str cfg.keyedAgentCardSubject.issueURL),
        (bytes "shadownet:statusListBase", .str cfg.keyedAgentCardSubject.statusListBase)] := by
    rw [optional_eq rfl, Handler.cardBody, hcfg, if_pos hissueNe, if_pos hstatusNe]
    rfl
  have hlookup : ∀ k : Bytes, (h.cardBody.required ++ h.cardBody.optional).lookup k =
      (h.cardBody.required.lookup k).or
        ([(bytes "shadownet:issueEndpoint", Json.str cfg.keyedAgentCardSubject.issueURL),
          (bytes "shadownet:statusListBase", .str cfg.keyedAgentCardSubject.statusListBase)].lookup
          k) := by
    intro k
    rw [List.lookup_append, hoptional]
  rw [hid]
  refine ⟨card, by rw [hserve], by rw [hserve]; exact hload, hby, ⟨_, hfields⟩, ?_, ?_, ?_⟩
  · exact get?_of_lookup_none hsame (by decide) (hlookup _)
  · exact extractField_of_lookup hsame (by decide) hissue hissueNe (hlookup _)
  · exact extractField_of_lookup hsame (by decide) hstatus hstatusNe (hlookup _)

/-- The card a keyed Hub writes about itself has its URLs and a genuine signature, and is
rejected: it never declares the security scheme. -/
theorem hub_card_rejected (G : Go.Runtime) (G' : Runtime) (J : JsonRuntime) (S : Go.Signer)
    (cfg : HandlerInput) (h : Handler) (hnew : newHandler G cfg = .ok h)
    (hmode : cfg.mode = .keyed) (hid : cfg.issuerIdentifier = h.signerPubMB)
    (hname : Valid cfg.keyedAgentCardSubject.name)
    (hdescription : Valid cfg.keyedAgentCardSubject.description)
    (hversion : Valid cfg.keyedAgentCardSubject.version)
    (hurl : Valid cfg.keyedAgentCardSubject.a2aURL)
    (hissue : Valid cfg.keyedAgentCardSubject.issueURL)
    (hstatus : Valid cfg.keyedAgentCardSubject.statusListBase)
    (hgenuine : Genuine G' S cfg.signer) :
    ∃ card, (h.serveAgentCard G S).status = 200 ∧
      jsonLoads J (h.serveAgentCard G S).body = .ok (.obj (Dict.members card)) ∧
      verifySelfSignedAgentCard G' J card (decoded cfg.issuerIdentifier) =
        .error (agentCardError (text "direct-mode AgentCard must declare securitySchemes[" ++
          G'.reprStr pinnedSelfSignedScheme ++ text "] per RFC 0001 §5.4")) ∧
      (extractIssuerEndpoint card).map utf8 = some cfg.keyedAgentCardSubject.issueURL ∧
      (extractStatusListBase card).map utf8 = some cfg.keyedAgentCardSubject.statusListBase := by
  obtain ⟨card, hstatus200, hload, hby, ⟨url, hfields⟩, hmissing, hextract⟩ :=
    hub_card G G' J S hnew
    hmode hid hname hdescription hversion hurl hissue hstatus hgenuine
  exact ⟨card, hstatus200, hload, verifySelfSigned_of_missing hby hfields hmissing, hextract⟩

/-! ### A Hub at `h.co` -/

def sampleHub : HandlerInput where
  mode := .keyed
  hasStore := true
  hasHook := true
  hasAuthz := true
  signer := sampleSigner
  hasLogger := true
  maxBodyBytes := 0
  issuerIdentifier := sampleRecord.shadowPublicKey
  statusCacheSeconds := 0
  keyedAgentCardSubject :=
    ⟨bytes "Hub", [], [], bytes "https://h.co/a", bytes "https://h.co/i", bytes "https://h.co/s"⟩

/-- What `Sign` signs for the Hub. -/
def hubMessage : Bytes :=
  signingInput
    (bytes "\x7b\"alg\":\"EdDSA\",\"kid\":\"z6MkvDqGT54cXesYGvABpF1UapVNwjCqRcafi4Px6Thv5T3Z\"," ++
      bytes "\"typ\":\"JOSE\"\x7d")
    (bytes "\x7b\"capabilities\":\x7b\"extensions\":[\x7b\"description\":" ++
      bytes "\"Shadownet identity envelope\",\"required\":true," ++
      bytes "\"uri\":\"urn:shadownet:0.2\"\x7d]\x7d,\"name\":\"Hub\"," ++
      bytes "\"shadownet:issueEndpoint\":\"https://h.co/i\",\"shadownet:pk\":" ++
      bytes "\"z6MkvDqGT54cXesYGvABpF1UapVNwjCqRcafi4Px6Thv5T3Z\"," ++
      bytes "\"shadownet:statusListBase\":\"https://h.co/s\",\"shadownet:v\":\"0.2\"," ++
      bytes "\"supportedInterfaces\":[\x7b\"protocolBinding\":\"HTTP+JSON\"," ++
      bytes "\"protocolVersion\":\"1.0\",\"url\":\"https://h.co/a\"\x7d],\"version\":\"1.0.0\"\x7d")

def hubSign : Go.Signer := signOne hubMessage
  [112, 176, 167, 94, 130, 110, 70, 74, 165, 71, 168, 147, 49, 254, 7, 9, 135, 204, 253, 84, 248,
    181, 125, 159, 112, 9, 234, 80, 199, 193, 96, 107, 97, 11, 164, 105, 226, 60, 207, 220, 188,
    124, 157, 79, 61, 111, 147, 199, 21, 203, 182, 115, 53, 51, 25, 99, 197, 130, 177, 54, 105, 73,
    236, 5]

/-- The handler `NewHandler` makes of the sample. -/
def sampleHandler : Handler where
  cfg := sampleHub
  maxBody := 65536
  signerPubMB := sampleRecord.shadowPublicKey
  statusMaxAgeSecs := 300

theorem newHandler_sample : newHandler Interop.plainGo sampleHub = .ok sampleHandler := by
  have hmode : Issuer.checkMode Interop.plainGo sampleHub = .ok () := by decide
  have hlen : sampleHub.signer.length = 64 := by decide
  rw [newHandler, if_neg (by decide), if_neg (by decide), if_neg (by decide),
    if_neg (by rw [hlen]; decide), if_neg (by decide), if_neg (by decide), hmode, ok_bind,
    show Go.encodePubKey (Go.publicKey sampleHub.signer) = _ from encodePubKey_sample]
  rfl

/-- The card of the sample is rejected for want of the scheme. -/
theorem hub_card_rejected_sample :
    ∃ card, jsonLoads Interop.plainJson (sampleHandler.serveAgentCard Interop.plainGo
      hubSign).body =
        .ok (.obj (Dict.members card)) ∧
      verifySelfSignedAgentCard (verifyOf hubSign) Interop.plainJson card
        (decoded sampleHub.issuerIdentifier) =
        .error (agentCardError (text "direct-mode AgentCard must declare securitySchemes[" ++
          (verifyOf hubSign).reprStr pinnedSelfSignedScheme ++ text "] per RFC 0001 §5.4")) := by
  obtain ⟨card, -, hload, hreject, -⟩ := hub_card_rejected Interop.plainGo (verifyOf hubSign)
    Interop.plainJson hubSign sampleHub sampleHandler newHandler_sample rfl rfl (by decide)
    (by decide) (by decide) (by decide) (by decide)
    (by decide) (genuine_verifyOf _)
  exact ⟨card, hload, hreject⟩

theorem hub_card_not_accepted :
    ¬ ∀ card : Dict, jsonLoads Interop.plainJson
        (sampleHandler.serveAgentCard Interop.plainGo hubSign).body = .ok (.obj card.members) →
      ∃ f, verifySelfSignedAgentCard (verifyOf hubSign) Interop.plainJson card
        (decoded sampleHub.issuerIdentifier) = .ok f := by
  intro hclaim
  obtain ⟨card, -, hload, -, -, hmissing, -⟩ := hub_card Interop.plainGo (verifyOf hubSign)
    Interop.plainJson hubSign newHandler_sample rfl rfl (by decide) (by decide)
    (by decide) (by decide) (by decide) (by decide)
    (genuine_verifyOf _)
  obtain ⟨f, hf⟩ := hclaim card hload
  obtain ⟨-, -, hscheme, -⟩ := verifySelfSignedAgentCard_eq_ok.mp hf
  obtain ⟨schemes, hget, -⟩ := validateDirectSecurityScheme_eq_ok.mp hscheme
  rw [hmissing] at hget
  cases hget

end Shadownet.Cards
