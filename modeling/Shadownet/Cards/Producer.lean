import Shadownet.Cards.Signed
import Shadownet.Go.AgentCard
import Shadownet.Interop.Base58
import Shadownet.Interop.Marshal

/-!
# From the Go signer to the Python verifier

`Sign` prunes and canonicalises a body, signs it, and `json.Marshal` writes the result with its
own escapes and its own order of names. `json.loads` gives a card with the fields of the body
(`signed_card`), whose payload is the one that was signed, so its signature verifies under the
signer's key (`signedBy_of_sign`).
-/

namespace Shadownet.Cards

open Foundation Python
open Interop (toGo latin clean_text)

/-! ## What `Sign` returns -/

theorem signBody_eq_ok {G : Go.Runtime} {S : Go.Signer} {body signed : List (Bytes × Go.JsonDoc)}
    {signer dom pk : Bytes} {mode : Go.CardMode} :
    Go.signBody G S body signer mode dom pk = .ok signed ↔
      body.lookup (bytes "signatures") = none ∧ signer.length = 64 ∧
      ∃ pruned payload kid, Go.stripEmpty (.obj body) = some pruned ∧
        Go.canonicalize G pruned = .ok payload ∧ Go.cardKid G mode dom pk = .ok kid ∧
        signed = body ++ [(bytes "signatures", .arr [Go.cardSignature S signer payload kid])] := by
  rw [Go.signBody, guard_eq_ok, guard_eq_ok, Option.not_isSome_iff_eq_none, not_not]
  cases hstrip : Go.stripEmpty (.obj body) with
  | none => simp
  | some pruned =>
    simp only [bind_eq_ok, mapError_eq_ok, pure_eq_ok, Option.some.injEq]
    constructor
    · rintro ⟨hsigs, hlen, payload, hpayload, kid, hkid, rfl⟩
      exact ⟨hsigs, hlen, pruned, payload, kid, rfl, hpayload, hkid, rfl⟩
    · rintro ⟨hsigs, hlen, _, payload, kid, rfl, hpayload, hkid, rfl⟩
      exact ⟨hsigs, hlen, payload, hpayload, kid, hkid, rfl⟩

/-- The signature object as Python reads it. -/
def signatureMembers (header signature : Bytes) : List (Text × Value) :=
  [(text "protected", .str (base64Url header)), (text "signature", .str (base64Url signature))]

theorem distinct_signature (header signature : Bytes) :
    (Json.arr [.obj (signatureMembers header signature)] : Value).Distinct := by
  rw [Json.distinct_arr, List.forall_mem_singleton, signatureMembers, Json.distinct_obj]
  have hnames : [text "protected", text "signature"].Nodup :=
    @List.Nodup.map _ _ ["protected", "signature"] text text_injective (by decide)
  refine ⟨hnames, ?_⟩
  simp only [List.forall_mem_cons, List.not_mem_nil, false_imp_iff, implies_true, and_true]
  exact ⟨trivial, trivial⟩

theorem clean_base64Url (b : Bytes) : Clean (base64Url b) := by
  intro c hc hs
  have := base64Url_mem hc
  unfold CodePoint.IsSurrogate at hs
  omega

theorem encodable_signature (header signature : Bytes) :
    Python.Encodable (.arr [.obj (signatureMembers header signature)]) := by
  rw [Python.Encodable, Json.forall_arr, List.forall_mem_singleton, signatureMembers,
    Json.forall_obj]
  refine ⟨trivial, ?_⟩
  simp only [List.forall_mem_cons, List.not_mem_nil, false_imp_iff, implies_true, and_true]
  exact ⟨⟨clean_text "protected", clean_base64Url _⟩, clean_text "signature", clean_base64Url _⟩

theorem setMembers_of_fresh {ms : List (Text × Value)} {k : Text} (h : ms.lookup k = none)
    (v : Value) : Dict.setMembers ms k v = ms ++ [(k, v)] := by
  induction ms with
  | nil => rfl
  | cons m ms ih =>
    obtain ⟨l, w⟩ := m
    by_cases hk : k = l
    · rw [hk, List.lookup_cons_self] at h
      cases h
    · rw [List.lookup_cons, beq_false_of_ne hk] at h
      rw [Dict.setMembers, if_neg fun hl => hk hl.symm, ih h, List.cons_append]

theorem lookup_toGo {ms : List (Text × Value)} {k : Text}
    (hclean : ∀ m ∈ ms, Clean m.1) (hk : Clean k)
    (h : (ms.map fun m => (utf8 m.1, toGo m.2)).lookup (utf8 k) = none) : ms.lookup k = none := by
  induction ms with
  | nil => rfl
  | cons m ms ih =>
    obtain ⟨l, w⟩ := m
    rw [List.forall_mem_cons] at hclean
    by_cases hkl : k = l
    · rw [hkl, List.map_cons, List.lookup_cons_self] at h
      cases h
    · have hne : utf8 k ≠ utf8 l := fun heq => hkl (utf8_injective hk hclean.1 heq)
      rw [List.map_cons, List.lookup_cons, beq_false_of_ne hne] at h
      rw [List.lookup_cons, beq_false_of_ne hkl]
      exact ih hclean.2 h

/-! ## The card that is read -/

/-- The signature verifies with the key that made it. -/
def Genuine (G : Runtime) (S : Go.Signer) (signer : Bytes) : Prop :=
  ∀ msg, G.ed25519Verify (Go.publicKey signer) (S signer msg) msg = true

/-- The body with the signature, as a Python value. -/
def signedDict (body : Dict) (header signature : Bytes) : Dict :=
  body.set (text "signatures") (.arr [.obj (signatureMembers header signature)])
    (distinct_signature header signature)

theorem encodable_members {body : Dict} (h : Python.Encodable (.obj body.members)) :
    ∀ m ∈ body.members, Clean m.1 ∧ Python.Encodable m.2 :=
  (Json.forall_obj.mp h).2

theorem encodable_signedDict {body : Dict} (h : Python.Encodable (.obj body.members))
    (header signature : Bytes) :
    Python.Encodable (.obj (signedDict body header signature).members) := by
  refine Json.forall_obj.mpr ⟨trivial, fun m hm => ?_⟩
  rcases Dict.mem_setMembers hm with rfl | hm
  · exact ⟨clean_text "signatures", encodable_signature header signature⟩
  · exact encodable_members h m hm

/-- The payload of the body with a signature is that of the body. -/
theorem payload_signedDict {body : Dict} {b : Bytes} {pruned : Value}
    (hfresh : body.get? (text "signatures") = none)
    (hstrip : stripEmpty (.obj body.members) = some pruned) (hb : canonicalize pruned = .ok b)
    (header signature : Bytes) :
    canonicalCardPayload (signedDict body header signature) = .ok b := by
  have hunsigned : (unsigned (signedDict body header signature)).members = body.members := by
    have hkeep : body.members.filter (fun m => m.1 != text "signatures") = body.members := by
      refine List.filter_eq_self.mpr fun m hm => ?_
      rw [bne_iff_ne]
      intro hk
      have hin : text "signatures" ∈ body.members.map Prod.fst :=
        List.mem_map.mpr ⟨m, hm, hk⟩
      rw [← Json.lookup_isSome_iff, show body.members.lookup _ = none from hfresh] at hin
      cases hin
    show List.filter _ (Dict.setMembers _ _ _) = _
    rw [setMembers_of_fresh hfresh, List.filter_append, hkeep]
    simp
  rw [canonicalCardPayload, hunsigned, hstrip]
  exact hb

/-- The Go body as the Go value of a Python body. -/
def IsGoBody (body : Dict) (goBody : List (Bytes × Go.JsonDoc)) : Prop :=
  goBody = body.members.map fun m => (utf8 m.1, toGo m.2)

/-- The bytes of the protected header. -/
def headerBytes (kid : Bytes) : Bytes := Go.marshalValue (Go.cardHeader kid)

/-- The signature `Sign` attaches. -/
def signatureBytes (S : Go.Signer) (signer payload kid : Bytes) : Bytes :=
  S signer (signingInput (headerBytes kid) payload)

theorem cardSignature_eq (S : Go.Signer) (signer payload kid : Bytes) :
    Go.cardSignature S signer payload kid =
      toGo (.obj (signatureMembers (headerBytes kid) (signatureBytes S signer payload kid))) := by
  have hinput : Go.rawUrlEncode (headerBytes kid) ++ 0x2E :: Go.rawUrlEncode payload =
      signingInput (headerBytes kid) payload := by
    rw [signingInput, utf8_append, utf8_cons_ascii (by decide)]
    rfl
  have hnames : utf8 (text "protected") = bytes "protected" ∧
      utf8 (text "signature") = bytes "signature" :=
    ⟨utf8_text _, utf8_text _⟩
  simp only [signatureMembers, Interop.toGo_obj, Interop.toGo_str, List.map_cons, List.map_nil,
    hnames, signatureBytes, ← hinput]
  rfl

/-- What Python reads from a signed card: the fields of the body, the signature, and the payload
that was signed. -/
theorem signed_card {G : Go.Runtime} {S : Go.Signer} (J : JsonRuntime) {body : Dict}
    {goBody signed : List (Bytes × Go.JsonDoc)} {signer dom pk : Bytes} {mode : Go.CardMode}
    (henc : Python.Encodable (.obj body.members)) (hbody : IsGoBody body goBody)
    (hsign : Go.signBody G S goBody signer mode dom pk = .ok signed) :
    ∃ payload kid card, Go.cardKid G mode dom pk = .ok kid ∧
      jsonLoads J (Go.marshalValue (.obj signed)) = .ok (.obj (Dict.members card)) ∧
      SameFields (signedDict body (headerBytes kid) (signatureBytes S signer payload kid)) card ∧
      canonicalCardPayload card = .ok payload := by
  obtain ⟨hfresh, -, pruned, payload, kid, hpruned, hpayload, hkid, rfl⟩ := signBody_eq_ok.mp hsign
  have hsigs : utf8 (text "signatures") = bytes "signatures" :=
    utf8_text _
  have hfresh' : body.get? (text "signatures") = none := by
    rw [hbody, ← hsigs] at hfresh
    exact lookup_toGo (fun m hm => (encodable_members henc m hm).1)
      (clean_text _) hfresh
  -- The pruned body is the Go value of the pruned Python body.
  rw [hbody, Go.stripEmpty, ← Interop.toGo_obj, Interop.pruned_toGo, Option.map_eq_some_iff]
    at hpruned
  obtain ⟨prunedBody, hstrip, rfl⟩ := hpruned
  have hencPruned : Python.Encodable prunedBody :=
    Json.forall_pruned (fun _ _ => trivial) henc hstrip
  rw [Interop.canonicalize_toGo G hencPruned, Except.ok.injEq] at hpayload
  have hcanonical : canonicalize prunedBody = .ok payload :=
    canonicalize_eq_ok.mpr ⟨hencPruned, hpayload.symm⟩
  let ideal := signedDict body (headerBytes kid) (signatureBytes S signer payload kid)
  have hideal : goBody ++ [(bytes "signatures",
      .arr [Go.cardSignature S signer payload kid])] =
      ideal.members.map fun m => (utf8 m.1, toGo m.2) := by
    show _ = (Dict.setMembers _ _ _).map _
    rw [setMembers_of_fresh hfresh', List.map_append, hbody, List.map_singleton, hsigs,
      Interop.toGo_arr, List.map_singleton, cardSignature_eq]
  have hload := Interop.jsonLoads_marshal J (encodable_signedDict henc (headerBytes kid)
    (signatureBytes S signer payload kid)) ideal.distinct
  rw [Interop.toGo_obj, ← hideal] at hload
  obtain ⟨ns, hns, hrel⟩ := lookup_of_agrees ideal.distinct (Json.distinct_sorted ideal.distinct)
    (Interop.agrees_sorted_marshal ideal.distinct)
  have hdistinct : (Json.obj ns).Distinct := by
    rw [← hns]
    exact Json.distinct_sorted ideal.distinct
  refine ⟨payload, kid, ⟨ns, hdistinct⟩, hkid, hload.trans (congrArg _ hns), hrel, ?_⟩
  exact @SameFields.payload _ ⟨ns, hdistinct⟩ _ hrel
    (payload_signedDict hfresh' hstrip hcanonical _ _)

/-! ## Its signature -/

def headerMembers (kid : Text) : List (Text × Value) :=
  [(text "alg", .str (text "EdDSA")), (text "typ", .str (text "JOSE")), (text "kid", .str kid)]

theorem distinct_header (kid : Text) : (Json.obj (headerMembers kid)).Distinct := by
  have hnames : [text "alg", text "typ", text "kid"].Nodup :=
    @List.Nodup.map _ _ ["alg", "typ", "kid"] text text_injective (by decide)
  rw [headerMembers, Json.distinct_obj]
  refine ⟨hnames, ?_⟩
  simp only [List.forall_mem_cons, List.not_mem_nil, false_imp_iff, implies_true, and_true]
  exact ⟨trivial, trivial, trivial⟩

theorem encodable_header {kid : Text} (hk : Clean kid) :
    Python.Encodable (.obj (headerMembers kid)) := by
  rw [Python.Encodable, headerMembers, Json.forall_obj]
  refine ⟨trivial, ?_⟩
  simp only [List.forall_mem_cons, List.not_mem_nil, false_imp_iff, implies_true, and_true]
  exact ⟨⟨clean_text "alg", clean_text "EdDSA"⟩, ⟨clean_text "typ", clean_text "JOSE"⟩,
    clean_text "kid", hk⟩

/-- The protected header as Python reads it. -/
theorem jsonLoads_header (J : JsonRuntime) {kid : Text} (hk : Clean kid) :
    ∃ members, jsonLoads J (headerBytes (utf8 kid)) = .ok (.obj members) ∧
      members.lookup (text "alg") = some (.str (text "EdDSA")) ∧
      members.lookup (text "typ") = some (.str (text "JOSE")) ∧
      members.lookup (text "kid") = some (.str kid) := by
  have hgo : toGo (.obj (headerMembers kid)) = Go.cardHeader (utf8 kid) := by
    rw [Interop.toGo_obj]
    rfl
  have hload := Interop.jsonLoads_marshal J (encodable_header hk) (distinct_header kid)
  rw [hgo] at hload
  obtain ⟨ns, hns, hrel⟩ := lookup_of_agrees (distinct_header kid)
    (Json.distinct_sorted (distinct_header kid))
    (Interop.agrees_sorted_marshal (distinct_header kid))
  have hstr : ∀ {k s : Text}, (headerMembers kid).lookup k = some (.str s) →
      ns.lookup k = some (.str s) := by
    intro k s hk
    obtain ⟨w, hw, hagree⟩ := rel_some (hrel k) hk
    rw [hw, Json.agrees_str.mp hagree]
  exact ⟨ns, hload.trans (congrArg _ hns), hstr rfl, hstr rfl, hstr rfl⟩

/-- The signature on the card verifies under the signer's key. -/
theorem signedBy_of_sign {G : Runtime} {S : Go.Signer} (J : JsonRuntime) {body card : Dict}
    {signer payload enc : Bytes} {kid : Text} {signers : List Text} (hk : Clean kid)
    (hgenuine : Genuine G S signer) (henc : Go.encodePubKey (Go.publicKey signer) = .ok enc)
    (hmem : enc.map latin ∈ signers)
    (hfields : SameFields (signedDict body (headerBytes (utf8 kid))
      (signatureBytes S signer payload (utf8 kid))) card)
    (hpayload : canonicalCardPayload card = .ok payload) :
    SignedBy G J card signers kid := by
  have hideal : (signedDict body (headerBytes (utf8 kid))
      (signatureBytes S signer payload (utf8 kid))).get? (text "signatures") =
      some (.arr [.obj (signatureMembers (headerBytes (utf8 kid))
        (signatureBytes S signer payload (utf8 kid)))]) := by
    rw [signedDict, Dict.get?_set, if_pos rfl]
  obtain ⟨w, hw, hagree⟩ := rel_some (hfields (text "signatures")) hideal
  obtain ⟨ys, rfl, hitems⟩ := Json.agrees_arr.mp hagree
  have hdistinct := Json.distinct_arr.mp (distinct_signature (headerBytes (utf8 kid))
    (signatureBytes S signer payload (utf8 kid)))
  have hdistinct' := Json.distinct_arr.mp (Dict.distinct_get hw)
  cases hitems with
  | @cons _ y _ ys hy _ =>
    obtain ⟨sig, rfl, hrel⟩ := lookup_of_agrees (hdistinct _ (by simp)) (hdistinct' _ (by simp)) hy
    have hstr : ∀ {k s : Text}, (signatureMembers (headerBytes (utf8 kid))
        (signatureBytes S signer payload (utf8 kid))).lookup k = some (.str s) →
        sig.lookup k = some (.str s) := by
      intro k s hk
      obtain ⟨w, hw, hagree⟩ := rel_some (hrel k) hk
      rw [hw, Json.agrees_str.mp hagree]
    obtain ⟨hparse, -, hlen⟩ := Interop.parsePublicKey_of_encodePubKey G henc
    have hverify : verifyUnder G (signatureBytes S signer payload (utf8 kid))
        (signingInput (headerBytes (utf8 kid)) payload) (enc.map latin) = .ok () := by
      rw [verifyUnder, hparse, ok_bind, fromPublicBytes, if_neg (by simp [hlen]), pure_bind,
        verifySignature]
      exact if_pos (hgenuine _)
    exact ⟨.obj sig :: ys, payload, signaturesOf_eq_ok.mpr ⟨hw, by simp⟩, hpayload,
      verifySignatures_of_signatureOk
        ⟨hstr rfl, hstr rfl, jsonLoads_header J hk, _, hmem, hverify⟩⟩

end Shadownet.Cards
