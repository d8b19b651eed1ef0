import Shadownet.Interop.Tokens
import Shadownet.Receiver.Runs

/-!
# Envelopes from minting to verification

`mint_envelope` dumps a payload without its `None`s and `verify_envelope` validates what PyJWT
decodes.

* `modelValidate_claims`: validation inverts the dump.
* `minted_envelope_accepted_iff`: a minted envelope is accepted by its recipient, within the
  leeway of its validity, and by nobody else.
-/

namespace Shadownet.Interop

open Foundation
open Python (Clean Value Dict Runtime EnvelopePayload EnvelopeBody)

/-! ## Dumps -/

/-- What `exclude_none` keeps. -/
def notNone (m : Text × Value) : Bool :=
  match m.2 with
  | .null => false
  | _ => true

theorem excludeNone_eq (ms : List (Text × Value)) : Python.excludeNone ms = ms.filter notNone := rfl

theorem distinct_excludeNone {ms : List (Text × Value)} (h : (Json.obj ms).Distinct) :
    (Json.obj (Python.excludeNone ms)).Distinct :=
  (Dict.filter ⟨ms, h⟩ notNone).distinct

theorem filter_notNone {α : Type} {o : Option α} {f : α → Value} (hf : ∀ a, f a ≠ .null)
    (k : Text) :
    (some (o.elim .null f)).filter (fun v => notNone (k, v)) = o.map f := by
  cases o with
  | none => rfl
  | some a =>
    rw [Option.elim_some, Option.filter_some, Option.map_some]
    refine if_pos ?_
    have hne := hf a
    unfold notNone
    split
    · next h => exact absurd h hne
    · rfl

/-- The fields of a body, absent ones as `None`. -/
def bodyFields (b : EnvelopeBody) : List (Text × Value) :=
  [(text "text", b.text.elim .null .str), (text "intent", b.intent.elim .null .str),
    (text "data", b.data.elim .null fun d => .obj d.members)]

/-- A body whose extras are not named like its fields. -/
def BodyFresh (b : EnvelopeBody) : Prop :=
  ∀ k ∈ [text "text", text "intent", text "data"], b.extra.get? k = none

theorem ne_of_get?_eq_none {d : Dict} {k : Text} (h : d.get? k = none) :
    k ∉ d.members.map Prod.fst := by
  intro hk
  obtain ⟨m, hm, rfl⟩ := List.mem_map.mp hk
  have hnone := List.lookup_eq_none_iff.mp h m hm
  simp at hnone

/-- The fields of a record and its extras make a dictionary. -/
theorem distinct_fields {fields : List (Text × Value)} {extra : Dict}
    (hnames : (fields.map Prod.fst).Nodup) (hvalues : ∀ m ∈ fields, Json.Distinct m.2)
    (hfresh : ∀ m ∈ fields, extra.get? m.1 = none) :
    (Json.obj (fields ++ extra.members)).Distinct := by
  have hextra := Json.distinct_obj.mp extra.distinct
  rw [Json.distinct_obj, List.map_append, List.nodup_append]
  refine ⟨⟨hnames, hextra.1, ?_⟩, List.forall_mem_append.mpr ⟨hvalues, hextra.2⟩⟩
  rintro _ hk _ hx rfl
  obtain ⟨m, hm, rfl⟩ := List.mem_map.mp hk
  exact ne_of_get?_eq_none (hfresh m hm) hx

theorem distinct_bodyFields {b : EnvelopeBody} (h : BodyFresh b) :
    (Json.obj (bodyFields b ++ b.extra.members)).Distinct := by
  have hnames : [text "text", text "intent", text "data"].Nodup := by decide
  refine distinct_fields hnames ?_ ?_
  · have hstr : ∀ o : Option Text, ((o.elim Json.null Json.str : Value)).Distinct := by
      rintro (- | s) <;> trivial
    have hobj : ∀ o : Option Dict,
        (o.elim Json.null fun d => Json.obj d.members : Value).Distinct := by
      rintro (- | d)
      · trivial
      · exact d.distinct
    intro m hm
    simp only [bodyFields, List.mem_cons, List.not_mem_nil, or_false] at hm
    rcases hm with rfl | rfl | rfl
    · exact hstr _
    · exact hstr _
    · exact hobj _
  · intro m hm
    refine h m.1 ?_
    simp only [bodyFields, List.mem_cons, List.not_mem_nil, or_false] at hm ⊢
    rcases hm with rfl | rfl | rfl <;> simp

/-- The dump of a body. -/
def bodyDict (b : EnvelopeBody) (h : BodyFresh b) : Dict :=
  ⟨b.modelDump, distinct_excludeNone (distinct_bodyFields h)⟩

/-- A body as it is read back: without extras that are `None`. -/
def readBody (b : EnvelopeBody) : EnvelopeBody := { b with extra := b.extra.filter notNone }

/-- What a dump says under the name of a field. -/
theorem get?_dump {ms : List (Text × Value)} (hd : (Json.obj ms).Distinct) {k : Text} {v : Value}
    (hmem : (k, v) ∈ ms) :
    (Python.excludeNone ms).lookup k = (some v).filter fun w => notNone (k, w) := by
  have hn := (Json.distinct_obj.mp hd).1
  rw [excludeNone_eq, Json.lookup_filter hn, Json.lookup_of_mem hn hmem]

/-- What is left of a dump without its fields. -/
theorem filter_extras {fields : List (Text × Value)} {extra : Dict} {p : Text × Value → Bool}
    (hfields : ∀ m ∈ fields, p m = false) (hextra : ∀ m ∈ extra.members, p m = true) :
    (Python.excludeNone (fields ++ extra.members)).filter p = extra.members.filter notNone := by
  rw [excludeNone_eq, List.filter_append, List.filter_append, List.filter_filter,
    List.filter_filter]
  have hnone : fields.filter (fun m => p m && notNone m) = [] := by
    refine List.filter_eq_nil_iff.mpr fun m hm => ?_
    rw [hfields m hm, Bool.false_and]
    exact Bool.false_ne_true
  rw [hnone, List.nil_append]
  refine List.filter_congr fun m hm => ?_
  rw [hextra m hm, Bool.true_and]

theorem dict_ext {d e : Dict} (h : d.members = e.members) : d = e := by
  cases d
  cases e
  cases h
  rfl

section
variable {J : Python.JsonRuntime} {G : Runtime}

theorem optStrField_map (o : Option Text) : Python.optStrField (o.map .str) = some o := by
  cases o <;> rfl

/-- `EnvelopeBody.model_validate` of a dump. -/
theorem modelValidate_body {b : EnvelopeBody} (hfresh : BodyFresh b) :
    EnvelopeBody.modelValidate (bodyDict b hfresh) = some (readBody b) := by
  have hd := distinct_bodyFields hfresh
  have hget : ∀ (k : String) {α : Type} (o : Option α) (f : α → Value), (∀ a, f a ≠ .null) →
      (text k, o.elim .null f) ∈ bodyFields b →
      (bodyDict b hfresh).get? (text k) = o.map f := by
    intro k α o f hf hmem
    exact (get?_dump hd (List.mem_append_left _ hmem)).trans (filter_notNone hf _)
  have hgetText := hget "text" b.text .str (fun _ => nofun) (by simp [bodyFields])
  have hgetIntent := hget "intent" b.intent .str (fun _ => nofun) (by simp [bodyFields])
  have hgetData := hget "data" b.data (fun d => .obj d.members) (fun _ => nofun)
    (by simp [bodyFields])
  have hextra : (bodyDict b hfresh).filter (fun m => !([text "text", text "intent",
      text "data"].contains m.1)) = b.extra.filter notNone := by
    refine dict_ext (filter_extras ?_ ?_)
    · intro m hm
      rcases List.mem_cons.mp hm with rfl | hm
      · rfl
      simp only [List.mem_cons, List.not_mem_nil, or_false] at hm
      rcases hm with rfl | rfl <;> rfl
    · intro m hm
      rw [Bool.not_eq_true', List.contains_eq_mem, decide_eq_false_iff_not]
      exact fun hk => ne_of_get?_eq_none (hfresh m.1 hk) (List.mem_map_of_mem hm)
  rw [EnvelopeBody.modelValidate, hgetText, hgetIntent, optStrField_map,
    optStrField_map, hextra, hgetData, readBody]
  cases hb : b.data with
  | none => rfl
  | some d =>
    have hsub : (bodyDict b hfresh).sub? (text "data") = some d := by
      rw [Dict.sub?_eq_some, hgetData, hb]
      rfl
    rw [hsub]
    rfl

/-! ## Envelopes -/

/-- The fields of a payload by their wire keys. -/
def claimFields (p : EnvelopePayload) : List (Text × Value) :=
  [(text "v", .str p.v), (text "from", .str p.sender), (text "to", .str p.recipient),
    (text "iat", .num (.int p.iat)), (text "exp", .num (.int p.exp)),
    (text "msgHash", .str p.msgHash), (text "body", .obj p.body.modelDump)] ++
    (if p.creds = [] then [] else [(text "creds", .arr (p.creds.map .str))])

theorem map_fst_claimFields (p : EnvelopePayload) :
    (claimFields p).map Prod.fst <+: Python.envelopeKeys := by
  rw [claimFields]
  by_cases hc : p.creds = []
  · rw [if_pos hc]
    exact ⟨[text "creds"], rfl⟩
  · rw [if_neg hc]
    exact ⟨[], rfl⟩

theorem distinct_claimFields {p : EnvelopePayload} (h : BodyFresh p.body) :
    (Json.obj (claimFields p ++ p.extra.members)).Distinct := by
  have hnames : Python.envelopeKeys.Nodup := by decide
  have hstart := map_fst_claimFields p
  refine distinct_fields (hnames.sublist hstart.sublist) ?_ fun m hm =>
    p.extra_fresh m.1 (hstart.subset (List.mem_map_of_mem hm))
  intro m hm
  rcases List.mem_append.mp hm with hm | hm
  · simp only [List.mem_cons, List.not_mem_nil, or_false] at hm
    rcases hm with rfl | rfl | rfl | rfl | rfl | rfl | rfl
    all_goals first | trivial | exact (bodyDict p.body h).distinct
  · split_ifs at hm
    · cases hm
    · obtain rfl := List.mem_singleton.mp hm
      refine Json.distinct_arr.mpr fun v hv => ?_
      obtain ⟨s, -, rfl⟩ := List.mem_map.mp hv
      trivial

/-- The claims of a payload. -/
def claimsDict (p : EnvelopePayload) (h : BodyFresh p.body) : Dict :=
  ⟨p.claims, distinct_excludeNone (distinct_claimFields h)⟩

/-- A payload as it is read back: without extras that are `None`. -/
def readEnvelope (p : EnvelopePayload) : EnvelopePayload where
  v := p.v
  sender := p.sender
  recipient := p.recipient
  iat := p.iat
  exp := p.exp
  msgHash := p.msgHash
  body := readBody p.body
  creds := p.creds
  extra := p.extra.filter notNone
  extra_fresh := by
    intro k hk
    rw [Dict.get?, Dict.filter, Json.lookup_filter (Json.distinct_obj.mp p.extra.distinct).1]
    have hnone : p.extra.members.lookup k = none := p.extra_fresh k hk
    rw [hnone]
    rfl

/-- What pydantic has checked of a payload, and what it has made canonical. -/
structure Settled (G : Runtime) (p : EnvelopePayload) : Prop where
  version : p.v = text "0.2"
  sender : Python.canonicalizeIdentifier G p.sender = .ok p.sender
  recipient : Python.canonicalizeIdentifier G p.recipient = .ok p.recipient
  iat : 0 ≤ p.iat
  exp : 0 ≤ p.exp
  hash : Python.msgHashPattern p.msgHash = true
  body : BodyFresh p.body

theorem get?_claims {p : EnvelopePayload} (h : BodyFresh p.body) {k : Text} {v : Value}
    (hmem : (k, v) ∈ claimFields p) (hv : notNone (k, v) = true) :
    (claimsDict p h).get? k = some v := by
  refine (get?_dump (distinct_claimFields h) (List.mem_append_left _ hmem)).trans ?_
  rw [Option.filter_some]
  exact if_pos hv

theorem mapM_strField (ss : List Text) :
    (ss.map Json.str : List Value).mapM (fun v => Python.strField (some v)) = some ss := by
  induction ss with
  | nil => rfl
  | cons s ss ih =>
    rw [List.map_cons, List.mapM_cons, Python.strField, ih]
    rfl

theorem credsField_claims {p : EnvelopePayload} (h : BodyFresh p.body) :
    Python.credsField ((claimsDict p h).get? (text "creds")) = some p.creds := by
  by_cases hc : p.creds = []
  · have hnone : (claimsDict p h).get? (text "creds") = none := by
      refine List.lookup_eq_none_iff.mpr fun m hm => ?_
      have hfull : m ∈ claimFields p ++ p.extra.members := (List.mem_filter.mp hm).1
      rw [bne_iff_ne]
      rcases List.mem_append.mp hfull with hm | hm
      · rw [claimFields, if_pos hc, List.append_nil] at hm
        have hkeys : ∀ k ∈ [text "v", text "from", text "to", text "iat", text "exp",
            text "msgHash", text "body"], text "creds" ≠ k := by decide
        exact hkeys m.1 (List.mem_map_of_mem hm)
      · rintro hk
        have hfresh := p.extra_fresh (text "creds") (by decide)
        rw [hk] at hfresh
        exact ne_of_get?_eq_none hfresh (List.mem_map_of_mem hm)
    rw [hnone, hc]
    rfl
  · have hmem : (text "creds", (.arr (p.creds.map .str) : Value)) ∈ claimFields p := by
      rw [claimFields, if_neg hc]
      exact List.mem_append_right _ List.mem_cons_self
    rw [get?_claims h hmem rfl]
    exact mapM_strField p.creds

/-- `EnvelopePayload.model_validate` of a dump. -/
theorem modelValidate_claims (hread : ReadsTokens J G) {p : EnvelopePayload} (hp : Settled G p)
    (hkept : Kept (.obj p.claims)) :
    EnvelopePayload.modelValidate G (claimsDict p hp.body) = .ok (readEnvelope p) := by
  have hall := (Json.forall_obj.mp hkept).2
  have hmem : ∀ m ∈ claimFields p, notNone m = true → m ∈ p.claims := by
    intro m hm hn
    exact List.mem_filter.mpr ⟨List.mem_append_left _ hm, hn⟩
  have hget : ∀ {k : Text} {v : Value}, (k, v) ∈ claimFields p → notNone (k, v) = true →
      (claimsDict p hp.body).get? k = some v := get?_claims hp.body
  have hclean : ∀ {k s : Text}, (k, Json.str s) ∈ claimFields p → Clean s := by
    intro k s hm
    exact (hall _ (hmem _ hm rfl)).2
  have hfixed : ∀ {m : Text × Value}, m ∈ [(text "v", .str p.v), (text "from", .str p.sender),
      (text "to", .str p.recipient), (text "iat", .num (.int p.iat)),
      (text "exp", .num (.int p.exp)), (text "msgHash", .str p.msgHash),
      (text "body", .obj p.body.modelDump)] → m ∈ claimFields p := fun hm =>
    List.mem_append_left _ hm
  have hv := @hget (text "v") (.str p.v) (hfixed (by simp)) rfl
  have hfrom := @hget (text "from") (.str p.sender) (hfixed (by simp)) rfl
  have hto := @hget (text "to") (.str p.recipient) (hfixed (by simp)) rfl
  have hiat := @hget (text "iat") (.num (.int p.iat)) (hfixed (by simp)) rfl
  have hexp := @hget (text "exp") (.num (.int p.exp)) (hfixed (by simp)) rfl
  have hhash := @hget (text "msgHash") (.str p.msgHash) (hfixed (by simp)) rfl
  have hbody := @hget (text "body") (.obj p.body.modelDump) (hfixed (by simp)) rfl
  have hcleanHash := @hclean (text "msgHash") p.msgHash (hfixed (by simp))
  have hcleanVersion := @hclean (text "v") p.v (hfixed (by simp))
  have hsub : ((claimsDict p hp.body).sub? (text "body")).bind EnvelopeBody.modelValidate =
      some (readBody p.body) := by
    have hd : (claimsDict p hp.body).sub? (text "body") = some (bodyDict p.body hp.body) := by
      rw [Dict.sub?_eq_some, hbody]
      rfl
    rw [hd, Option.bind_some]
    exact modelValidate_body hp.body
  have hextra : Python.envelopeExtra (claimsDict p hp.body)
      [text "from", text "to", text "msgHash"] = p.extra.filter notNone := by
    refine dict_ext (filter_extras ?_ ?_)
    · intro m hm
      have hk := (map_fst_claimFields p).subset (List.mem_map_of_mem hm)
      simp [hk]
    · intro m hm
      have hk : m.1 ∉ Python.envelopeKeys := fun hk =>
        ne_of_get?_eq_none (p.extra_fresh m.1 hk) (List.mem_map_of_mem hm)
      have hused : m.1 ∉ [text "from", text "to", text "msgHash"] := fun hin => hk (by
        revert hin
        generalize m.1 = k
        intro hin
        simp only [List.mem_cons, List.not_mem_nil, or_false] at hin
        rcases hin with rfl | rfl | rfl <;> simp [Python.envelopeKeys])
      simp only [List.contains_eq_mem, hk, hused, decide_false, Bool.or_false, Bool.not_false]
  have hversion : Python.constrainedStrField (· == text "0.2") (some (.str p.v)) = some p.v := by
    rw [Claims.constrainedStrField_eq hcleanVersion, if_pos (by simp [hp.version])]
  have hhashed : Python.constrainedStrField Python.msgHashPattern (some (.str p.msgHash)) =
      some p.msgHash := by
    rw [Claims.constrainedStrField_eq hcleanHash, if_pos hp.hash]
  have hidentifier : ∀ {s : Text}, Python.canonicalizeIdentifier G s = .ok s →
      Python.identifierField G Python.canonicalizeIdentifier (some (.str s)) = .ok (some s) := by
    intro s hcanonical
    show (Python.canonicalizeIdentifier G s).map some = _
    rw [hcanonical]
    rfl
  have haliases : Python.aliased (claimsDict p hp.body) (text "from") (text "sender") =
        some (text "from", .str p.sender) ∧
      Python.aliased (claimsDict p hp.body) (text "to") (text "recipient") =
        some (text "to", .str p.recipient) ∧
      Python.aliased (claimsDict p hp.body) (text "msgHash") (text "msg_hash") =
        some (text "msgHash", .str p.msgHash) := by
    simp only [Python.aliased, hfrom, hto, hhash, and_self]
  obtain ⟨haliasFrom, haliasTo, haliasHash⟩ := haliases
  simp only [EnvelopePayload.modelValidate, haliasFrom, haliasTo, haliasHash, Option.map_some,
    hidentifier hp.sender, hidentifier hp.recipient, ok_bind, hv,
    hversion, hiat, hexp, Claims.natField_eq hread, if_pos hp.iat, if_pos hp.exp, hhashed, hsub,
    credsField_claims hp.body, Option.bind_eq_bind, Option.bind_some,
    List.filterMap_cons, List.filterMap_nil, hextra]
  rfl

/-! ## From minting to verification -/

theorem mintEnvelope_eq_ok {p : EnvelopePayload} {key : Python.KeyPair} {token : Text} :
    Python.mintEnvelope G p key = .ok token ↔ p.exp - p.iat ≤ 300 ∧ p.iat < p.exp ∧
      Python.signJwt G p.claims key (headerExtras Python.envelopeTyp (some p.sender)) =
        .ok token := by
  rw [Python.mintEnvelope, guard_eq_ok, guard_eq_ok, not_lt, not_le]
  rfl

/-- An envelope that was minted, opened by its recipient in time. -/
theorem verifyEnvelope_minted (hread : ReadsTokens J G) {key : Python.KeyPair}
    (hwrite : WritesTokens J G key) {p : EnvelopePayload} (hp : Settled G p)
    (hkept : Kept (.obj p.claims)) {token : Text} (hmint : Python.mintEnvelope G p key = .ok token)
    {now leeway : Int} (hstart : p.iat - leeway ≤ now) (hend : now ≤ p.exp + leeway) :
    Python.verifyEnvelope G token key.publicBytes p.recipient now leeway =
      .ok (readEnvelope p) := by
  obtain ⟨hlife, hlive, hsign⟩ := mintEnvelope_eq_ok.mp hmint
  have hreadAs : ReadAs G token Python.envelopeTyp (some p.sender) (claimsDict p hp.body)
      key.publicBytes := signJwt_read hread hwrite hkept hsign
  obtain ⟨h, hheader, htyp, halg, hkid⟩ := hreadAs.header
  have hsame : (readEnvelope p).sender = p.sender ∧ (readEnvelope p).iat = p.iat ∧
      (readEnvelope p).exp = p.exp := ⟨rfl, rfl, rfl⟩
  obtain ⟨hsender, hiat, hexp⟩ := hsame
  simp only [Python.verifyEnvelope, bind_eq_ok, Python.reraise_eq_ok, guard_eq_ok, pure_eq_ok]
  refine ⟨h, hheader, ?_, ?_, _, hreadAs.claims, _, modelValidate_claims hread hp hkept, ?_, ?_, ?_,
    ?_, ?_, (), hreadAs.signature, rfl⟩
  · exact not_not.mpr (Python.isStr_iff.mpr htyp)
  · exact not_not.mpr (Python.isStr_iff.mpr halg)
  · exact not_not.mpr (Python.isStr_iff.mpr hkid)
  · exact not_not.mpr rfl
  · rw [hexp, hiat]
    omega
  · rw [hexp]
    omega
  · rw [hiat]
    omega

/-- An envelope that `mint_envelope` has made verifies under the key of its sender for its
recipient, from the leeway before its start to the leeway after its end, with the payload it was
made of; and it verifies for no other recipient and at no other time. -/
theorem minted_envelope_accepted_iff (hread : ReadsTokens J G) {key : Python.KeyPair}
    (hwrite : WritesTokens J G key) {p : EnvelopePayload} (hp : Settled G p)
    (hkept : Kept (.obj p.claims)) {token : Text} (hmint : Python.mintEnvelope G p key = .ok token)
    (recipient : Text) (now leeway : Int) (q : EnvelopePayload) :
    Python.verifyEnvelope G token key.publicBytes recipient now leeway = .ok q ↔
      recipient = p.recipient ∧ p.iat - leeway ≤ now ∧ now ≤ p.exp + leeway ∧
        q = readEnvelope p := by
  constructor
  · intro h
    obtain ⟨-, -, hsign⟩ := mintEnvelope_eq_ok.mp hmint
    have hreadAs : ReadAs G token Python.envelopeTyp (some p.sender) (claimsDict p hp.body)
        key.publicBytes := signJwt_read hread hwrite hkept hsign
    have hsame : (readEnvelope p).recipient = p.recipient ∧ (readEnvelope p).iat = p.iat ∧
        (readEnvelope p).exp = p.exp := ⟨rfl, rfl, rfl⟩
    obtain ⟨hrecipient, hiat, hexp⟩ := hsame
    simp only [Python.verifyEnvelope, bind_eq_ok, Python.reraise_eq_ok, guard_eq_ok,
      pure_eq_ok] at h
    obtain ⟨_, -, -, -, claims, hclaims, payload, hpayload, -, hto, -, hend, hstart, -, -, rfl⟩ := h
    cases hreadAs.claims.symm.trans hclaims
    cases (modelValidate_claims hread hp hkept).symm.trans hpayload
    rw [hrecipient] at hto
    rw [hexp] at hend
    rw [hiat] at hstart
    exact ⟨(not_not.mp hto).symm, by omega, by omega, rfl⟩
  · rintro ⟨rfl, hstart, hend, rfl⟩
    exact verifyEnvelope_minted hread hwrite hp hkept hmint hstart hend

end

/-! ### The envelope of a greeting -/

open Receiver (helloKey helloSignature)
open Python (helloTemplate helloHash helloClaims helloSeed helloToken)

def greeting : EnvelopePayload := { helloTemplate with msgHash := helloHash }

def greetingKey : Python.KeyPair := ⟨helloKey, some helloSeed⟩

def greetingHeader : Bytes :=
  bytes "\x7b\"alg\":\"EdDSA\",\"kid\":\"a@b.co\",\"typ\":\"shadownet-env+jwt\"\x7d"

def greetingPayload : Bytes :=
  bytes "\x7b\"v\":\"0.2\",\"from\":\"a@b.co\",\"to\":\"c@b.co\",\"iat\":100,\"exp\":400," ++
    bytes "\"msgHash\":\"sha256:mToD16J0txo2zXy1DwZlwSEJEbIpZOSHPsRAsPk_Or0\"," ++
    bytes "\"body\":\x7b\"text\":\"hi\"\x7d\x7d"

theorem helloToken_eq : helloToken = compact greetingHeader greetingPayload helloSignature := by
  decide +kernel

/-- PyJWT with one key on one payload, and SHA-256 on one message. -/
def greetingRuntime : Runtime := { samplePython with
  jwtEncode := fun claims seed headers =>
    if claims = helloClaims.members ∧ seed = helloSeed ∧ headers =
        [(text "alg", .str (text "EdDSA")), (text "typ", .str Python.envelopeTyp),
          (text "kid", .str (text "a@b.co"))] then
      .ok helloToken
    else .error ⟨.pyJwtError, []⟩
  ed25519Verify := fun key signature msg =>
    key == helloKey && signature == helloSignature &&
      msg == signingInput greetingHeader greetingPayload
  sha256 := Python.helloRuntime.sha256 }

theorem greeting_reads : ReadsTokens plainJson greetingRuntime :=
  ⟨samplePython_reads.header, samplePython_reads.claims, samplePython_reads.int⟩

theorem greeting_writes : WritesTokens plainJson greetingRuntime greetingKey := by
  intro seed claims headers token hseed _ _ _ h
  simp only [greetingRuntime] at h
  split_ifs at h with hsample
  obtain ⟨hclaims, -, hheaders⟩ := hsample
  have hheader : Python.jsonLoads plainJson greetingHeader =
      .ok (.obj Receiver.helloHeader.members) := by
    decide
  have hpayload : Python.jsonLoads plainJson greetingPayload = .ok (.obj helloClaims.members) := by
    decide +kernel
  refine ⟨Receiver.helloHeader, greetingHeader, greetingPayload, helloSignature, ?_, hheader,
    fun k => ?_, ?_, ?_⟩
  · rw [← Except.ok.inj h, helloToken_eq]
  · -- the token holds the members in another order
    have hnames : text "kid" ≠ text "typ" := by decide
    rw [hheaders, Dict.get?]
    show List.lookup k [_, _, _] = _
    simp only [lookup_cons_ite, List.lookup_nil]
    by_cases hk : k = text "kid"
    · rw [if_pos hk, if_pos hk, if_neg fun ht => hnames (hk.symm.trans ht)]
    · rw [if_neg hk, if_neg hk]
  · rw [hclaims, hpayload]
  · simp [greetingRuntime, greetingKey]

theorem greeting_settled : Settled greetingRuntime greeting where
  version := rfl
  sender := by decide
  recipient := by decide
  iat := by decide
  exp := by decide
  hash := by decide
  body _ _ := rfl

theorem greeting_kept : Kept (.obj greeting.claims) := by
  have hclaims : greeting.claims = [(text "v", .str (text "0.2")),
      (text "from", .str (text "a@b.co")), (text "to", .str (text "c@b.co")),
      (text "iat", .num (.int 100)), (text "exp", .num (.int 400)),
      (text "msgHash", .str helloHash),
      (text "body", .obj [(text "text", .str (text "hi"))])] := rfl
  have hint : ∀ n : Nat, n ≤ 400 → KeptNumber (.int n) := by
    intro n hn
    show (n : Int).natAbs < Python.intLimit
    have hlimit : 10 ^ 3 ≤ Python.intLimit := pow_le_pow_right₀ (by decide) (by decide)
    omega
  have hstr : ∀ k s : String, Clean (text k) ∧ Kept (.str (text s)) := fun k s =>
    ⟨clean_text k, clean_text s⟩
  rw [hclaims, Kept, Json.forall_obj]
  refine ⟨trivial, fun m hm => ?_⟩
  simp only [List.mem_cons, List.not_mem_nil, or_false] at hm
  rcases hm with rfl | rfl | rfl | rfl | rfl | rfl | rfl
  · exact hstr "v" "0.2"
  · exact hstr "from" "a@b.co"
  · exact hstr "to" "c@b.co"
  · exact ⟨clean_text "iat", hint 100 (by decide)⟩
  · exact ⟨clean_text "exp", hint 400 (by decide)⟩
  · exact hstr "msgHash" _
  · refine ⟨clean_text "body", Json.forall_obj.mpr ⟨trivial, fun m hm => ?_⟩⟩
    obtain rfl := List.mem_singleton.mp hm
    exact hstr "text" "hi"

theorem greeting_minted :
    Python.mintEnvelope greetingRuntime greeting greetingKey = .ok helloToken := by
  decide +kernel

theorem minted_envelope_accepted_sample :
    Python.verifyEnvelope greetingRuntime helloToken helloKey (text "c@b.co") 430 60 =
      .ok (readEnvelope greeting) :=
  (minted_envelope_accepted_iff greeting_reads greeting_writes greeting_settled greeting_kept
    greeting_minted (text "c@b.co") 430 60 _).mpr ⟨rfl, by decide, by decide, rfl⟩

end Shadownet.Interop
