import Shadownet.Python.Message

/-!
# The envelope is bound to its message

The sender hashes the message before the envelope goes into its metadata, the receiver
after taking it out again. `computeMsgHash_congr` says that the hash depends only on the
hashed fields up to the order of members, and `computeMsgHash_agrees` that it determines
them. Together they give `message_binding`.
-/

namespace Shadownet.Python

open Foundation

/-- The metadata as `compute_msg_hash` sees it. -/
def hashedMetadata (message : Dict) : Option Value :=
  (message.sub? (text "metadata")).map fun d => .obj (withoutEnvelope d.members)

/-- Two messages that agree on everything `compute_msg_hash` reads. -/
def SameHashed (m₁ m₂ : Dict) : Prop :=
  (∀ k ∈ hashedKeys, Option.Rel Json.Agrees (m₁.get? k) (m₂.get? k)) ∧
    Option.Rel Json.Agrees (hashedMetadata m₁) (hashedMetadata m₂)

/-! ## The canonical input -/

theorem nodup_hashed : (hashedKeys ++ [text "metadata"]).Nodup := by decide

theorem lookup_filterMap (keys : List Text) (f : Text → Option Value) (k : Text) :
    (keys.filterMap fun k => (f k).map (k, ·)).lookup k = if k ∈ keys then f k else none := by
  induction keys with
  | nil => rfl
  | cons l keys ih =>
    by_cases hk : k = l
    · subst hk
      cases hf : f k with
      | some v => simp [hf]
      | none =>
        simp only [List.filterMap_cons, hf, Option.map_none, List.mem_cons, true_or, if_true, ih]
        split_ifs <;> rfl
    · have hmem : (k ∈ l :: keys) = (k ∈ keys) := by simp [hk]
      simp only [hmem]
      rw [← ih]
      cases hf : f l with
      | some v => simp [hf, List.lookup_cons, beq_false_of_ne hk]
      | none => simp [hf]

theorem canonicalInput_eq_ok {m : Dict} {input : List (Text × Value)} :
    canonicalInput m = .ok input ↔
      (m.get? (text "metadata") = none ∨ ∃ d, m.sub? (text "metadata") = some d) ∧
      input = (hashedKeys.filterMap fun k => (m.get? k).map (k, ·)) ++
        (hashedMetadata m).toList.map (text "metadata", ·) := by
  unfold canonicalInput hashedMetadata
  have hother : ∀ v : Value, (∀ ms, v ≠ .obj ms) → m.get? (text "metadata") = some v →
      m.sub? (text "metadata") = none := by
    intro v hv hget
    rw [Option.eq_none_iff_forall_ne_some]
    intro d hd
    rw [Dict.sub?_eq_some, hget, Option.some.injEq] at hd
    exact hv _ hd
  cases hget : m.get? (text "metadata") with
  | none =>
    have hsub : m.sub? (text "metadata") = none := by
      rw [Option.eq_none_iff_forall_ne_some]
      intro d hd
      rw [Dict.sub?_eq_some, hget] at hd
      cases hd
    simpa [hsub] using eq_comm
  | some v =>
    cases v with
    | obj ms =>
      have hsub : m.sub? (text "metadata") = some ⟨ms, Dict.distinct_get hget⟩ :=
        Dict.sub?_eq_some.mpr hget
      simpa [hsub] using eq_comm
    | _ =>
      have hsub := hother _ (by simp) hget
      simp [hsub]

variable {m : Dict} {input : List (Text × Value)}

theorem lookup_canonicalInput (h : canonicalInput m = .ok input) (k : Text) :
    input.lookup k = if k ∈ hashedKeys then m.get? k
      else if k = text "metadata" then hashedMetadata m else none := by
  obtain ⟨-, rfl⟩ := canonicalInput_eq_ok.mp h
  rw [List.lookup_append, lookup_filterMap]
  have hmeta : ((hashedMetadata m).toList.map (text "metadata", ·)).lookup k =
      if k = text "metadata" then hashedMetadata m else none := by
    cases hashedMetadata m with
    | none => simp
    | some v =>
      by_cases hk : k = text "metadata"
      · simp [hk]
      · simp [hk, List.lookup_cons, beq_false_of_ne hk]
  rw [hmeta]
  by_cases hk : k ∈ hashedKeys
  · have hne : k ≠ text "metadata" := by
      rintro rfl
      exact List.disjoint_of_nodup_append nodup_hashed hk (by simp)
    simp [hk, hne]
  · simp [hk]

theorem distinct_canonicalInput (h : canonicalInput m = .ok input) :
    (Json.obj input).Distinct := by
  obtain ⟨-, rfl⟩ := canonicalInput_eq_ok.mp h
  refine Json.distinct_obj.mpr ⟨?_, ?_⟩
  · refine nodup_hashed.sublist ?_
    rw [List.map_append]
    refine List.Sublist.append ?_ ?_
    · induction hashedKeys with
      | nil => simp
      | cons k keys ih =>
        cases hk : m.get? k with
        | none => simpa [hk] using ih.cons k
        | some v => simpa [hk] using ih.cons_cons k
    · cases hashedMetadata m <;> simp
  · intro x hx
    rcases List.mem_append.mp hx with hx | hx
    · obtain ⟨k, -, hk⟩ := List.mem_filterMap.mp hx
      obtain ⟨v, hv, rfl⟩ := Option.map_eq_some_iff.mp hk
      exact Dict.distinct_get hv
    · obtain ⟨v, hv, rfl⟩ := List.mem_map.mp hx
      obtain ⟨d, -, rfl⟩ := Option.map_eq_some_iff.mp (Option.mem_toList.mp hv)
      exact (d.filter fun m => m.1 != envelopeExtensionUri).distinct

/-- The canonical inputs agree exactly when the messages agree on the hashed fields. -/
theorem canonicalInput_agrees_iff {m₁ m₂ : Dict} {i₁ i₂ : List (Text × Value)}
    (h₁ : canonicalInput m₁ = .ok i₁) (h₂ : canonicalInput m₂ = .ok i₂) :
    (Json.obj i₁).Agrees (.obj i₂) ↔ SameHashed m₁ m₂ := by
  have hd₁ := Json.distinct_obj.mp (distinct_canonicalInput h₁)
  have hd₂ := Json.distinct_obj.mp (distinct_canonicalInput h₂)
  have hmeta : text "metadata" ∉ hashedKeys := fun hk =>
    List.disjoint_of_nodup_append nodup_hashed hk (by simp)
  rw [Json.agrees_obj_iff hd₁.1 hd₂.1]
  simp only [lookup_canonicalInput h₁, lookup_canonicalInput h₂]
  constructor
  · intro h
    refine ⟨fun k hk => ?_, ?_⟩
    · simpa only [if_pos hk] using h k
    · simpa only [if_neg hmeta, if_true] using h (text "metadata")
  · rintro ⟨hkeys, hmd⟩ k
    split_ifs with hk hk'
    · exact hkeys k hk
    · exact hmd
    · exact .none

/-! ## The hash -/

theorem computeMsgHash_eq_ok {G : Runtime} {m : Dict} {h : Text} :
    computeMsgHash G m = .ok h ↔ ∃ input b, canonicalInput m = .ok input ∧
      canonicalize (.obj input) = .ok b ∧ text "sha256:" ++ base64Url (G.sha256 b) = h := by
  simp only [computeMsgHash, bind_eq_ok, pure_eq_ok]
  constructor
  · rintro ⟨input, hi, b, hb, hh⟩
    exact ⟨input, b, hi, hb, hh⟩
  · rintro ⟨input, b, hi, hb, hh⟩
    exact ⟨input, hi, b, hb, hh⟩

/-- Messages with one hash agree on the hashed fields. -/
theorem computeMsgHash_agrees {G : Runtime} (hsha : Function.Injective G.sha256)
    {m₁ m₂ : Dict} {h : Text} (h₁ : computeMsgHash G m₁ = .ok h)
    (h₂ : computeMsgHash G m₂ = .ok h) : SameHashed m₁ m₂ := by
  obtain ⟨i₁, b₁, hi₁, hb₁, hh₁⟩ := computeMsgHash_eq_ok.mp h₁
  obtain ⟨i₂, b₂, hi₂, hb₂, hh₂⟩ := computeMsgHash_eq_ok.mp h₂
  have hb : b₁ = b₂ := by
    have htext := List.append_cancel_left (hh₁.trans hh₂.symm)
    exact hsha (base64Url_injective htext)
  rw [← hb] at hb₂
  exact (canonicalInput_agrees_iff hi₁ hi₂).mp
    (canonicalize_agrees (distinct_canonicalInput hi₁) (distinct_canonicalInput hi₂) hb₁ hb₂)

/-- A message that agrees on the hashed fields has the same hash. -/
theorem computeMsgHash_congr {G : Runtime} {m₁ m₂ : Dict} {h : Text}
    (hsame : SameHashed m₁ m₂)
    (hmeta : m₂.get? (text "metadata") = none ∨ ∃ d, m₂.sub? (text "metadata") = some d)
    (h₁ : computeMsgHash G m₁ = .ok h) : computeMsgHash G m₂ = .ok h := by
  obtain ⟨i₁, b, hi₁, hb, hh⟩ := computeMsgHash_eq_ok.mp h₁
  have hi₂ := canonicalInput_eq_ok.mpr ⟨hmeta, rfl⟩
  refine computeMsgHash_eq_ok.mpr ⟨_, b, hi₂, ?_, hh⟩
  exact canonicalize_congr (distinct_canonicalInput hi₁) (distinct_canonicalInput hi₂)
    ((canonicalInput_agrees_iff hi₁ hi₂).mpr hsame) hb

/-! ## What the sender builds -/

theorem toWire_metadata (message : A2AMessage) :
    message.toWire.sub? (text "metadata") = some message.metadata := by
  have hn := (Json.distinct_obj.mp message.fields_distinct).1
  have hmem : (text "metadata", Json.obj message.metadata.members) ∈ message.fields := by
    simp [A2AMessage.fields]
  rw [Dict.sub?_eq_some, A2AMessage.toWire, Dict.get?, Dict.filter, Json.lookup_filter hn,
    Json.lookup_of_mem hn hmem]
  rfl

theorem lookup_withoutEnvelope {d : Dict} (k : Text) :
    (withoutEnvelope d.members).lookup k =
      if k = envelopeExtensionUri then none else d.get? k := by
  rw [withoutEnvelope, Json.lookup_filter (Json.distinct_obj.mp d.distinct).1, Dict.get?]
  by_cases hk : k = envelopeExtensionUri
  · rw [if_pos hk]
    cases d.members.lookup k <;> simp [hk]
  · rw [if_neg hk]
    cases d.members.lookup k <;> simp [hk]

theorem get?_agrees {d e : Dict} (h : (Json.obj d.members).Agrees (.obj e.members)) (k : Text) :
    Option.Rel Json.Agrees (d.get? k) (e.get? k) :=
  (Json.agrees_obj_iff (Json.distinct_obj.mp d.distinct).1
    (Json.distinct_obj.mp e.distinct).1).mp h k

theorem sub?_agrees {d e d' : Dict} {k : Text}
    (h : (Json.obj d.members).Agrees (.obj e.members)) (hd : d.sub? k = some d') :
    ∃ e', e.sub? k = some e' ∧ (Json.obj d'.members).Agrees (.obj e'.members) := by
  have hrel := get?_agrees h k
  rw [Dict.sub?_eq_some.mp hd] at hrel
  cases he : e.get? k with
  | none =>
    rw [he] at hrel
    cases hrel
  | some w =>
    rw [he] at hrel
    cases hrel with
    | some hvw =>
      cases w with
      | obj ms => exact ⟨⟨ms, Dict.distinct_get he⟩, Dict.sub?_eq_some.mpr he, hvw⟩
      | _ => exact absurd hvw (by simp [Json.Agrees])

/-- Inserting the envelope changes nothing that is hashed. -/
theorem sameHashed_of_built {raw m md : Dict} {jws : Text}
    (hraw : raw.sub? (text "metadata") = some md)
    (h : (Json.obj (raw.set (text "metadata")
        (.obj (md.set envelopeExtensionUri (.str jws) (Json.distinct_str _)).members)
        (md.set envelopeExtensionUri (.str jws) (Json.distinct_str _)).distinct).members).Agrees
      (.obj m.members)) :
    SameHashed raw m ∧ ∃ md', m.sub? (text "metadata") = some md' ∧
      md'.get? envelopeExtensionUri = some (.str jws) := by
  have hmeta : text "metadata" ∉ hashedKeys := fun hk =>
    List.disjoint_of_nodup_append nodup_hashed hk (by simp)
  obtain ⟨md', hmd', hagree⟩ := sub?_agrees h
    (Dict.sub?_eq_some.mpr (by rw [Dict.get?_set, if_pos rfl]))
  refine ⟨⟨fun k hk => ?_, ?_⟩, md', hmd', ?_⟩
  · have hk' : k ≠ text "metadata" := by
      rintro rfl
      exact hmeta hk
    have hrel := get?_agrees h k
    rwa [Dict.get?_set, if_neg hk'] at hrel
  · rw [hashedMetadata, hashedMetadata, hraw, hmd']
    refine .some ((Json.agrees_obj_iff ?_ ?_).mpr fun k => ?_)
    · exact (Json.distinct_obj.mp (md.filter fun m => m.1 != envelopeExtensionUri).distinct).1
    · exact (Json.distinct_obj.mp (md'.filter fun m => m.1 != envelopeExtensionUri).distinct).1
    · rw [lookup_withoutEnvelope, lookup_withoutEnvelope]
      by_cases hk : k = envelopeExtensionUri
      · rw [if_pos hk, if_pos hk]
        exact .none
      · have hrel := get?_agrees hagree k
        rw [Dict.get?_set, if_neg hk] at hrel
        rwa [if_neg hk, if_neg hk]
  · have hrel := get?_agrees hagree envelopeExtensionUri
    rw [Dict.get?_set, if_pos rfl] at hrel
    cases hget : md'.get? envelopeExtensionUri with
    | none =>
      rw [hget] at hrel
      cases hrel
    | some w =>
      rw [hget] at hrel
      cases hrel with
      | some hw => cases w <;> simp_all [Json.Agrees]

/-- Decoding a token that PyJWT made gives its ASCII claims back. -/
def PyJwtRoundTrips (G : Runtime) : Prop :=
  ∀ claims seed headers token, G.jwtEncode claims seed headers = .ok token →
    ∃ d, G.decodeUnverified token = .ok d ∧ ∀ k s, (∀ c ∈ k, c.IsAscii) →
      (∀ c ∈ s, c.IsAscii) → claims.lookup k = some (.str s) → d.get? k = some (.str s)

theorem claims_msgHash (p : EnvelopePayload) :
    p.claims.lookup (text "msgHash") = some (.str p.msgHash) := by
  have hkeys : ([text "v", text "from", text "to", text "iat", text "exp",
      text "msgHash", text "body"] : List Text).Nodup := by decide
  have hfix : [(text "v", Json.str p.v), (text "from", .str p.sender),
      (text "to", .str p.recipient), (text "iat", .num (.int p.iat)),
      (text "exp", .num (.int p.exp)), (text "msgHash", .str p.msgHash),
      (text "body", .obj p.body.modelDump)].lookup (text "msgHash") =
        some (.str p.msgHash) :=
    Json.lookup_of_mem hkeys (by simp)
  rw [EnvelopePayload.claims, excludeNone, List.filter_append, List.filter_append,
    List.lookup_append, List.lookup_append]
  simp only [List.filter_cons, List.filter_nil, if_true]
  rw [hfix]
  rfl

theorem mintEnvelope_claims {G : Runtime} (hjwt : PyJwtRoundTrips G) {p : EnvelopePayload}
    {key : KeyPair} {jws : Text} (hascii : ∀ c ∈ p.msgHash, c.IsAscii)
    (h : mintEnvelope G p key = .ok jws) :
    ∃ claims, decodeUnverifiedClaims G jws = .ok claims ∧
      claims.get? (text "msgHash") = some (.str p.msgHash) := by
  simp only [mintEnvelope, guard_eq_ok, signJwt] at h
  obtain ⟨-, -, h⟩ := h
  cases hseed : key.seed with
  | none => simp [hseed] at h
  | some seed =>
    rw [hseed] at h
    obtain ⟨d, hd, hclaims⟩ := hjwt _ _ _ _ h
    refine ⟨d, by rw [decodeUnverifiedClaims, reraise_eq_ok, hd], ?_⟩
    refine hclaims _ _ ?_ hascii (claims_msgHash p)
    have hall : (text "msgHash").all (fun c => decide c.IsAscii) = true := by decide
    simpa using hall

theorem computeMsgHash_ascii {G : Runtime} {m : Dict} {h : Text}
    (hh : computeMsgHash G m = .ok h) : ∀ c ∈ h, c.IsAscii := by
  obtain ⟨input, b, -, -, rfl⟩ := computeMsgHash_eq_ok.mp hh
  intro c hc
  rcases List.mem_append.mp hc with hc | hc
  · have hall : (text "sha256:").all (fun c => decide c.IsAscii) = true := by decide
    simpa using List.all_eq_true.mp hall c hc
  · have := base64Url_mem hc
    exact show c.val < 0x80 by omega

/-! ## Binding -/

/-- The hash of a message is the `msgHash` claim of the envelope it carries. -/
def Bound (G : Runtime) (m : Dict) : Prop :=
  ∃ h metadata jws claims, computeMsgHash G m = .ok h ∧
    m.sub? (text "metadata") = some metadata ∧
    metadata.get? envelopeExtensionUri = some (.str jws) ∧
    decodeUnverifiedClaims G jws = .ok claims ∧
    claims.get? (text "msgHash") = some (.str h)

/-- What `build_and_sign_message` returns is bound after any round trip of its JSON, and a
hash determines the hashed fields. -/
theorem message_binding (G : Runtime) (hsha : Function.Injective G.sha256)
    (hjwt : PyJwtRoundTrips G) :
    (∀ message template key built, buildAndSignMessage G message template key = .ok built →
      ∀ m : Dict, (Json.obj built.message.members).Agrees (.obj m.members) → Bound G m) ∧
    (∀ (m₁ m₂ : Dict) (h : Text), computeMsgHash G m₁ = .ok h → computeMsgHash G m₂ = .ok h →
      SameHashed m₁ m₂) := by
  refine ⟨?_, fun m₁ m₂ h h₁ h₂ => computeMsgHash_agrees hsha h₁ h₂⟩
  intro message template key built hbuilt m hm
  simp only [buildAndSignMessage, bind_eq_ok, pure_eq_ok, toWire_metadata,
    Option.getD_some] at hbuilt
  obtain ⟨h, hhash, jws, hmint, rfl⟩ := hbuilt
  obtain ⟨hsame, md, hmd, hjws⟩ := sameHashed_of_built (toWire_metadata message) hm
  obtain ⟨claims, hdec, hclaim⟩ := mintEnvelope_claims hjwt (computeMsgHash_ascii hhash) hmint
  exact ⟨h, md, jws, claims, computeMsgHash_congr hsame (.inr ⟨md, hmd⟩) hhash, hmd, hjws, hdec,
    hclaim⟩

/-! ## A message from `a@b.co` to `c@b.co` -/

/-- A runtime whose outside functions refuse everything, with `str.lower` on ASCII. -/
def bareRuntime : Runtime where
  getUnverifiedHeader _ := .error ⟨.pyJwtError, []⟩
  decodeUnverified _ := .error ⟨.pyJwtError, []⟩
  jwtEncode _ _ _ := .error ⟨.pyJwtError, []⟩
  ed25519Verify _ _ _ := false
  sha256 b := b
  laxInt
    | .num (.int n) => some n
    | _ => none
  validationText _ _ := []
  repr _ := []
  lowerUnicode s := s.map lowerAscii

def hello : A2AMessage where
  messageId := text "m1"
  role := text "u"
  parts := [⟨[(text "text", .str (text "hi"))], by simp [Json.distinct_obj, Json.distinct_str]⟩]
  contextId := none
  taskId := none
  extensions := [envelopeExtensionUri]
  metadata := Dict.empty
  extra := Dict.empty
  extra_fresh _ _ := rfl

def helloTemplate : EnvelopePayload where
  v := text "0.2"
  sender := text "a@b.co"
  recipient := text "c@b.co"
  iat := 100
  exp := 400
  msgHash := text "sha256:x"
  body := ⟨some (text "hi"), none, none, Dict.empty⟩
  creds := []
  extra := Dict.empty
  extra_fresh _ _ := rfl

def helloHash : Text := text "sha256:mToD16J0txo2zXy1DwZlwSEJEbIpZOSHPsRAsPk_Or0"

def helloSeed : Bytes := List.replicate 32 1

def helloClaims : Dict where
  members := { helloTemplate with msgHash := helloHash }.claims
  distinct := by
    refine Json.distinct_obj.mpr ⟨by decide, ?_⟩
    intro m hm
    simp [EnvelopePayload.claims, excludeNone, helloTemplate, Dict.empty,
      EnvelopeBody.modelDump] at hm
    rcases hm with rfl | rfl | rfl | rfl | rfl | rfl | rfl
    all_goals trivial

/-- The token PyJWT makes of these claims with this seed. -/
def helloToken : Text :=
  text "eyJhbGciOiJFZERTQSIsImtpZCI6ImFAYi5jbyIsInR5cCI6InNoYWRvd25ldC1lbnYrand0In0.eyJ2" ++
    text "IjoiMC4yIiwiZnJvbSI6ImFAYi5jbyIsInRvIjoiY0BiLmNvIiwiaWF0IjoxMDAsImV4cCI6NDAwLCJt" ++
    text "c2dIYXNoIjoic2hhMjU2Om1Ub0QxNkowdHhvMnpYeTFEd1psd1NFSkViSXBaT1NIUHNSQXNQa19PcjAi" ++
    text "LCJib2R5Ijp7InRleHQiOiJoaSJ9fQ.Id_BjuzQERIJ8jvDhFf0isKSKq6uIn6QJvEJlEh2Vl8TW3mgs" ++
    text "p-GRp3Yb774CyYva6Pd0HHiGnJ2Dh1ethDAAw"

/-- What PyJWT signs and decodes, and SHA-256, as they are on this message. -/
def helloRuntime : Runtime := { bareRuntime with
  decodeUnverified := fun token =>
    if token = helloToken then .ok helloClaims else .error ⟨.pyJwtError, []⟩
  jwtEncode := fun claims seed _ =>
    if claims = helloClaims.members ∧ seed = helloSeed then .ok helloToken
    else .error ⟨.pyJwtError, []⟩
  sha256 := fun b =>
    if b = bytes "\x7b\"messageId\":\"m1\",\"metadata\":\x7b\x7d," ++
      bytes "\"parts\":[\x7b\"text\":\"hi\"\x7d],\"role\":\"u\"\x7d"
    then [153, 58, 3, 215, 162, 116, 183, 26, 54, 205, 124, 181, 15, 6, 101, 193, 33, 9, 17,
      178, 41, 100, 228, 135, 62, 196, 64, 176, 249, 63, 58, 189]
    else b ++ List.replicate 33 0 }

theorem helloRuntime_sha256 : Function.Injective helloRuntime.sha256 := by
  have hlen : ∀ b : Bytes, (b ++ List.replicate 33 0).length ≠ 32 := by
    intro b
    simp
  intro b c h
  simp only [helloRuntime] at h
  split_ifs at h with hb hc hc
  · exact hb.trans hc.symm
  · exact absurd (congrArg List.length h).symm (hlen c)
  · exact absurd (congrArg List.length h) (hlen b)
  · exact List.append_cancel_right h

theorem helloRuntime_roundTrips : PyJwtRoundTrips helloRuntime := by
  intro claims seed headers token h
  simp only [helloRuntime] at h
  split_ifs at h with hc
  obtain rfl := Except.ok.inj h
  refine ⟨helloClaims, by simp [helloRuntime], ?_⟩
  rintro k s - - hk
  rwa [hc.1] at hk

theorem hello_hash : computeMsgHash helloRuntime hello.toWire = .ok helloHash := by
  decide

/-- The same message with its members in another order. -/
def helloReordered : Dict where
  members := hello.toWire.members.reverse
  distinct := by
    have h := Json.distinct_obj.mp hello.toWire.distinct
    refine Json.distinct_obj.mpr ⟨?_, fun m hm => h.2 m (List.mem_reverse.mp hm)⟩
    rw [List.map_reverse]
    exact List.nodup_reverse.mpr h.1

theorem helloReordered_hash : computeMsgHash helloRuntime helloReordered = .ok helloHash := by
  decide

theorem message_binding_hello :
    (∃ built, buildAndSignMessage helloRuntime hello helloTemplate ⟨[], some helloSeed⟩ =
      .ok built ∧ Bound helloRuntime built.message) ∧
    SameHashed hello.toWire helloReordered := by
  have hbinding := message_binding helloRuntime helloRuntime_sha256 helloRuntime_roundTrips
  refine ⟨?_, hbinding.2 _ _ _ hello_hash helloReordered_hash⟩
  have hmint : mintEnvelope helloRuntime { helloTemplate with msgHash := helloHash }
      ⟨[], some helloSeed⟩ = .ok helloToken := by
    simp [mintEnvelope, helloTemplate, signJwt, helloRuntime, helloClaims]
  have hbuilt : ∃ built, buildAndSignMessage helloRuntime hello helloTemplate
      ⟨[], some helloSeed⟩ = .ok built := by
    simp only [buildAndSignMessage, hello_hash]
    exact ⟨_, by simp only [bind, Except.bind, hmint]; rfl⟩
  obtain ⟨built, hbuilt⟩ := hbuilt
  exact ⟨built, hbuilt, hbinding.1 _ _ _ _ hbuilt built.message
    (Json.agrees_refl built.message.distinct)⟩

end Shadownet.Python
