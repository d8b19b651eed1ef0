import Shadownet.Issuer.Authz
import Shadownet.Issuer.Idempotency
import Shadownet.Issuer.Lifetime
import Shadownet.Issuer.Parking

/-!
# Several credentials for one affiliation

A row is stored under a key that is made of the claims of the CSR as they are written. Two
things follow. The minted kind is a constant, and the requested one only goes into the key:
a CSR for any other kind gets a credential of the constant kind, under a key of its own
(`minted_kind_iff`). And the key tells spellings of an organisation apart that the authorizer
takes for the same one (`one_per_spelling`).
-/

namespace Shadownet.Issuer

open Foundation Go
open Interop (Valid)

section
variable (G : Runtime) (V : Verifier) (cfg : HandlerConfig)

/-- The row was minted for the CSR of the body. -/
def StoredFor (body : Option Bytes) (c : CredentialRow) (parsed : CsrPayload) : Prop :=
  ∃ t idem t', Verified G V cfg body t parsed idem ∧ MintedAt G cfg parsed idem t' c

end

variable {G : Runtime} {V : Verifier} {cfg : HandlerConfig} {h : Hook} {body body' : Option Bytes}
  {c c' : CredentialRow} {parsed parsed' : CsrPayload}

/-- The fields of a row that was minted for a CSR. -/
theorem StoredFor.fields (hc : StoredFor G V cfg body c parsed) :
    c.sub = parsed.iss ∧ c.org = parsed.req.org ∧
      idempotencyKey G c.sub cfg.issuerIdentifier ⟨parsed.req.kind, c.org⟩ =
        .ok c.idempotencyKey := by
  obtain ⟨t, idem, t', ⟨data, -, -, hp, hi⟩, hm⟩ := hc
  have haud := parseAndVerifyCSR_aud hp
  rw [hm.row]
  refine ⟨rfl, rfl, ?_⟩
  rw [← haud]
  exact hi

/-- Two rows of one subject, one organisation and one requested kind have one key. -/
theorem StoredFor.key_eq (hc : StoredFor G V cfg body c parsed)
    (hc' : StoredFor G V cfg body' c' parsed') (hsub : c.sub = c'.sub) (horg : c.org = c'.org)
    (hkind : parsed.req.kind = parsed'.req.kind) : c.idempotencyKey = c'.idempotencyKey := by
  have hkey := hc.fields.2.2
  rw [hsub, horg, hkind, hc'.fields.2.2] at hkey
  exact (Except.ok.inj hkey).symm

/-- Every row a POST tries to insert was minted for the CSR of its body. -/
theorem IssuePath.put_minted {calls : Calls IssueOp IssueAns} {r : Response}
    {a : Except StoreError Unit} (hp : IssuePath G V cfg body calls r)
    (hm : ⟨.putCredential c, a⟩ ∈ calls) : ∃ parsed, StoredFor G V cfg body c parsed := by
  obtain ⟨init, rest, rfl⟩ := List.append_of_mem hm
  obtain ⟨t, parsed, idem, t', hv, -, hc⟩ := hp.minted_at
  exact ⟨parsed, t, idem, t', hv, hc⟩

/-- What a body says does not depend on the clock. -/
theorem Verified.payload_unique {t t' : Time} {idem idem' : Bytes}
    (hv : Verified G V cfg body t parsed idem) (hv' : Verified G V cfg body t' parsed' idem') :
    parsed = parsed' := by
  obtain ⟨data, hb, -, hp, -⟩ := hv
  obtain ⟨data', hb', -, hp', -⟩ := hv'
  obtain rfl : data = data' := Option.some.inj (hb.symm.trans hb')
  exact Except.ok.inj ((parseAndVerifyCSR_segment hp).symm.trans (parseAndVerifyCSR_segment hp'))

/-! ## The minted kind -/

theorem mint_kind {priv pub jws : Bytes} {p : CredentialPayload}
    (hm : mint G priv pub p = .ok jws) : p.kind = bytes "org_affiliation" := by
  unfold mint at hm
  split at hm
  · cases hm
  · next hk => exact not_not.mp hk

section
variable {ι : Type} [DecidableEq ι] {bodies : ι → Option Bytes} {s : Store}
  {pool : ι → IssueProg Response} {tr : List (IssueEvent ι)}

/-- In every reachable state each row was minted for the CSR of some request. -/
theorem stored_for_run {m : Nat} {now : Time} {s₀ : Store}
    (ho : Store.openStore .empty m now = .ok s₀)
    (hr : Run IssueHandle AdminStep s₀ (fun i => serveIssue G V cfg (bodies i)) tr s pool) :
    s.Sound ∧ ∀ c ∈ s.db.credentials, ∃ i parsed, StoredFor G V cfg (bodies i) c parsed := by
  induction hr with
  | start =>
    have hl : Ledger (ι := Unit) [] s₀ := .fresh ho
    exact ⟨hl.sound, fun c hc => absurd (hl.pairs_taken c hc) (by simp [taken])⟩
  | env hr he ih =>
    obtain ⟨call, rfl⟩ := he
    exact ⟨ih.1.step call, step_credentials ih.1 call ▸ ih.2⟩
  | @step tr s s' pool i o k a hr hc hs ih =>
    obtain ⟨rest, r, hrest⟩ := Prog.exists_path issueAns_nonempty (k a)
    have hpath := path_serveIssue_ways (hr.path_call hc hrest)
    cases issue_effect (ι := ι) hs ih.1 with
    | idle o a ha hrow => exact ih
    | took exp now p s' hsound he hcred => exact ⟨hsound, hcred ▸ ih.2⟩
    | stored c s' hsound he hcred hk =>
      refine ⟨hsound, fun d hd => ?_⟩
      rw [hcred] at hd
      rcases List.mem_append.mp hd with hd | hd
      · exact ih.2 d hd
      · rw [List.mem_singleton.mp hd]
        exact ⟨i, hpath.put_minted (List.mem_append_right _ List.mem_cons_self)⟩

/-- A credential has the kind its CSR asked for exactly when that is `org_affiliation`. And in
every interleaving of any number of requests that all ask for this kind, a subject has at most
one credential for an organisation. -/
theorem minted_kind_iff {m : Nat} {now : Time} {s₀ : Store}
    (ho : Store.openStore .empty m now = .ok s₀)
    (hr : Run IssueHandle AdminStep s₀ (fun i => serveIssue G V cfg (bodies i)) tr s pool) :
    (∀ body calls r c a, Prog.Path (serveIssue G V cfg body) calls r →
      ⟨.putCredential c, a⟩ ∈ calls → ∃ t parsed idem payload,
        Verified G V cfg body t parsed idem ∧ payload.sub = parsed.iss ∧
        payload.org = parsed.req.org ∧
        mint G cfg.signerPrivate cfg.signerPublic payload = .ok c.jws ∧
        (payload.kind = parsed.req.kind ↔ parsed.req.kind = bytes "org_affiliation")) ∧
    ((∀ i t parsed idem, Verified G V cfg (bodies i) t parsed idem →
        parsed.req.kind = bytes "org_affiliation") →
      ∀ c ∈ s.db.credentials, ∀ c' ∈ s.db.credentials,
        c.sub = c'.sub → c.org = c'.org → c = c') := by
  constructor
  · intro body calls r c a hpath hmem
    obtain ⟨parsed, t, idem, t', hv, hm⟩ := (path_serveIssue_ways hpath).put_minted hmem
    refine ⟨t, parsed, idem, _, hv, rfl, rfl, hm.mint, ?_⟩
    rw [mint_kind hm.mint]
    exact eq_comm
  · intro hkinds c hc c' hc' hsub horg
    obtain ⟨i, parsed, hfor⟩ := (stored_for_run ho hr).2 c hc
    obtain ⟨i', parsed', hfor'⟩ := (stored_for_run ho hr).2 c' hc'
    have hkind : parsed.req.kind = parsed'.req.kind := by
      obtain ⟨t, idem, -, hv, -⟩ := id hfor
      obtain ⟨t', idem', -, hv', -⟩ := id hfor'
      rw [hkinds i t parsed idem hv, hkinds i' t' parsed' idem' hv']
    exact List.inj_on_of_nodup_map (issue_run ho bodies hr).1.keys_nodup hc hc'
      (hfor.key_eq hfor' hsub horg hkind)

end

/-! ### A request for another kind, and one for the right kind -/

/-- The sample request asks for the kind `k` and gets a credential of the other kind. -/
theorem other_kind_minted : racePayload.req.kind = bytes "k" ∧ ∃ calls r c payload,
    Prog.Path (serveIssue raceRuntime raceVerifier raceConfig (some raceToken)) calls r ∧
    r.status = 200 ∧ r.body = c.jws ∧ ⟨.putCredential c, .ok ()⟩ ∈ calls ∧
    mint raceRuntime raceConfig.signerPrivate raceConfig.signerPublic payload = .ok c.jws ∧
    payload.sub = racePayload.iss ∧ payload.kind = bytes "org_affiliation" := by
  obtain ⟨jws, hm⟩ := race_mint 0 (by decide)
  have hsub : subjectPubFromCSR raceRuntime racePayload = .ok attackerKey := by decide
  have hc : MintedAt raceRuntime raceConfig racePayload raceKey (Time.ofUnix 200) (raceRow 0 jws) :=
    ⟨hm, rfl⟩
  have hdecision : (⟨.approve, [], []⟩ : Decision).outcome = .approve := rfl
  have hpath := path_of_decision race_verified hsub (path_of_approval hc hdecision)
  exact ⟨rfl, _, _, _, _, hpath, rfl, rfl, by simp, hm, rfl, rfl⟩

/-- A CSR for `org_affiliation` at `a.co`. -/
def plainToken : Bytes :=
  compactToken csrHeaderJson
    (bytes "\x7b\"iss\":\"z6Mkon3Necd6NkkyfoGoHxid2znGc59LU3K7mubaRcFbLfLX\",\"aud\":\"a.co\"," ++
      bytes "\"iat\":100,\"exp\":400," ++
      bytes "\"req\":\x7b\"kind\":\"org_affiliation\",\"org\":\"a.co\"\x7d\x7d")
    [54, 199, 158, 42, 122, 56, 214, 146, 160, 233, 210, 75, 105, 62, 110, 8, 186, 12, 62, 175,
      252, 161, 176, 88, 20, 37, 241, 169, 175, 93, 137, 229, 25, 108, 57, 69, 186, 103, 209, 44,
      221, 35, 123, 161, 10, 226, 151, 207, 115, 36, 45, 195, 152, 158, 83, 190, 94, 17, 174, 146,
      39, 238, 196, 10]

/-- The same with the organisation in capitals. -/
def capsToken : Bytes :=
  compactToken csrHeaderJson
    (bytes "\x7b\"iss\":\"z6Mkon3Necd6NkkyfoGoHxid2znGc59LU3K7mubaRcFbLfLX\",\"aud\":\"a.co\"," ++
      bytes "\"iat\":100,\"exp\":400," ++
      bytes "\"req\":\x7b\"kind\":\"org_affiliation\",\"org\":\"A.co\"\x7d\x7d")
    [231, 202, 70, 226, 125, 9, 199, 174, 176, 167, 17, 92, 250, 106, 20, 254, 196, 74, 189, 86,
      213, 253, 32, 199, 236, 232, 157, 129, 142, 99, 192, 254, 186, 101, 206, 219, 9, 213, 49,
      199, 222, 5, 214, 54, 130, 9, 66, 140, 122, 35, 44, 88, 22, 183, 91, 196, 131, 144, 101,
      231, 100, 29, 60, 5]

def spelledPayload (org : String) : CsrPayload :=
  { iss := bytes "z6Mkon3Necd6NkkyfoGoHxid2znGc59LU3K7mubaRcFbLfLX", aud := bytes "a.co"
    iat := 100, exp := 400, req := { kind := bytes "org_affiliation", org := bytes org } }

/-- The text that is hashed for one of the two. -/
def spelledInput (org : String) : Bytes :=
  bytes "z6Mkon3Necd6NkkyfoGoHxid2znGc59LU3K7mubaRcFbLfLX" ++ 0x1F :: (bytes "a.co" ++ 0x1F ::
    bytes ("\x7b\"kind\":\"org_affiliation\",\"org\":\"" ++ org ++ "\"\x7d"))

def plainDigest : Bytes :=
  [82, 131, 196, 94, 150, 205, 195, 224, 100, 236, 11, 39, 176, 63, 39, 152, 120, 191, 88, 51,
      37, 7, 175, 207, 105, 17, 135, 216, 150, 65, 201, 37]

def capsDigest : Bytes :=
  [55, 183, 98, 185, 51, 146, 133, 9, 159, 63, 219, 116, 217, 199, 200, 41, 111, 21, 60, 255,
      195, 40, 215, 163, 28, 183, 76, 4, 59, 205, 82, 231]

def spelledRuntime : Runtime :=
  sampleRuntime (hashOn (spelledInput "a.co") plainDigest (spelledInput "A.co") capsDigest)
    raceSigner

/-- Ed25519 on the subject's two signatures. -/
def spelledVerifier : Verifier := fun key msg sig =>
  key == attackerKey && [plainToken, capsToken].any fun token =>
    (compactJws spelledRuntime token).toOption.any fun obj =>
      obj.signingInput == msg && obj.signature == sig

theorem plain_verified : Verified spelledRuntime spelledVerifier raceConfig (some plainToken)
    (Time.ofUnix 200) (spelledPayload "a.co") (hexEncode plainDigest) :=
  .of_token (by decide +kernel) (by decide +kernel) (by decide)

theorem caps_verified : Verified spelledRuntime spelledVerifier raceConfig (some capsToken)
    (Time.ofUnix 200) (spelledPayload "A.co") (hexEncode capsDigest) :=
  .of_token (by decide +kernel) (by decide +kernel) (by decide)

def plainRow (jws : Bytes) : CredentialRow :=
  approvedRow raceConfig (spelledPayload "a.co") (hexEncode plainDigest) jws (Time.ofUnix 200) 1 0

theorem plain_insert (jws : Bytes) :
    (raceStore 1 []).putCredential (plainRow jws) = (raceStore 1 [plainRow jws], .ok ()) := rfl

/-- Two requests for the right kind that overlap: the second reads its clock first, and looks
its key up when the first has been answered. -/
theorem minted_kind_iff_plain : ∃ jws tr pool,
    Run IssueHandle AdminStep (raceStore 0 [])
      (fun _ : Bool => serveIssue spelledRuntime spelledVerifier raceConfig (some plainToken)) tr
      (raceStore 1 [plainRow jws]) pool ∧
    (∀ i, pool i = .ret (writeCredential jws)) ∧
    (∃ payload, mint spelledRuntime raceConfig.signerPrivate raceConfig.signerPublic payload =
      .ok jws ∧ payload.kind = bytes "org_affiliation") ∧
    ∀ c ∈ [plainRow jws], ∀ c' ∈ [plainRow jws], c.sub = c'.sub → c.org = c'.org → c = c' := by
  have ho : Store.openStore .empty 5 (Time.ofUnix 100) = .ok (raceStore 0 []) := rfl
  have hok : (mint spelledRuntime raceConfig.signerPrivate raceConfig.signerPublic
      (approvedPayload raceConfig (spelledPayload "a.co") (Time.ofUnix 200) 1 0)).isOk = true := by
    decide
  obtain ⟨jws, hm⟩ := isOk_iff.mp hok
  have hsub : subjectPubFromCSR spelledRuntime (spelledPayload "a.co") = .ok attackerKey := by
    decide
  obtain ⟨data, hdata, htok, hp, hi⟩ := plain_verified
  cases hdata
  obtain ⟨calls, hfirst⟩ := follows_to_insert htok hp hi (by decide) hsub rfl
    (race_alloc 0 (by decide)) hm
  have hput := IssueHandle.put (raceStore 1 []) (plainRow jws)
  rw [plain_insert] at hput
  have hget := IssueHandle.get (raceStore 1 [plainRow jws]) (hexEncode plainDigest)
  rw [show (raceStore 1 [plainRow jws]).db.getByIdempotencyKey (hexEncode plainDigest) =
    .ok (plainRow jws) by simp [Database.getByIdempotencyKey, raceStore, plainRow, approvedRow,
      pure, Except.pure]] at hget
  have hclock : Evolves IssueHandle (raceStore 0 []) [⟨.now, Time.ofUnix 200⟩] (raceStore 0 []) :=
    .cons (.now _ _) (.nil _)
  have hlook : Evolves IssueHandle (raceStore 1 [plainRow jws])
      [⟨.getByIdempotencyKey (hexEncode plainDigest), .ok (plainRow jws)⟩]
      (raceStore 1 [plainRow jws]) := .cons hget (.nil _)
  have hsecond : Prog.Path (serveIssue spelledRuntime spelledVerifier raceConfig (some plainToken))
      ([⟨.now, Time.ofUnix 200⟩] ++
        [⟨.getByIdempotencyKey (hexEncode plainDigest), .ok (plainRow jws)⟩])
      (writeCredential jws) := path_of_lookup plain_verified (.ret _)
  obtain ⟨p, hf, hrest⟩ := hclock.follows hsecond
  have hstart : Run IssueHandle AdminStep (raceStore 0 []) (fun _ : Bool => serveIssue
      spelledRuntime spelledVerifier raceConfig (some plainToken)) [] (raceStore 0 []) _ := .start
  have h₁ := hstart.follow (i := false) rfl hf
  have h₂ := (h₁.follow (i := true) (Function.update_of_ne (by decide) _ _) hfirst).step
    (i := true) (Function.update_self ..) hput
  have h₃ := h₂.follow (i := false) ((Function.update_of_ne (by decide) _ _).trans
    ((Function.update_of_ne (by decide) _ _).trans (Function.update_self ..)))
    (hlook.follows_all hrest)
  obtain ⟨hkinds, hrows⟩ := minted_kind_iff ho h₃
  have happroved := path_of_decision plain_verified hsub
    (path_of_approval (d := ⟨.approve, [], []⟩) (c := plainRow jws) ⟨hm, rfl⟩ rfl)
  obtain ⟨t, parsed, idem, payload, hv, -, -, hmint, hiff⟩ :=
    hkinds (some plainToken) _ _ (plainRow jws) (.ok ()) happroved (by simp)
  rw [hv.payload_unique plain_verified] at hiff
  refine ⟨jws, _, _, h₃, fun i => ?_, ⟨payload, hmint, hiff.mpr rfl⟩, hrows ?_⟩
  · cases i with
    | true => rw [Function.update_of_ne (by decide), Function.update_self]; rfl
    | false => exact Function.update_self ..
  · intro _ t parsed idem hv
    rw [hv.payload_unique plain_verified]
    rfl

/-! ## The spelling of the organisation -/

/-- Rule 1 of the authorizer takes the two for the same organisation. -/
def SameOrg (G : Runtime) (org org' : Bytes) : Prop :=
  matchesIssEqOrg G org (classify G org) org' (classify G org') = true

instance (G : Runtime) (org org' : Bytes) : Decidable (SameOrg G org org') :=
  inferInstanceAs (Decidable (_ = true))

/-- The operator's moves: a change of a ceremony's status, or a call of the store. -/
inductive QueueMove : QueueState → QueueState → Prop
  | update (w : QueueState) (handleID : Bytes) (status : PendingStatus) (reason : Bytes)
      (t now : Time) :
      QueueMove w (w.commit (updatePendingStatus w.pendings handleID status reason t now)).2
  | admin (w : QueueState) (call : Call) :
      QueueMove w { w with store := (w.store.step call).1 }

/-- Accepted CSRs of one subject for one kind and one organisation write it alike. -/
def SpelledAlike {ι : Type} (G : Runtime) (V : Verifier) (cfg : HandlerConfig)
    (bodies : ι → Option Bytes) : Prop :=
  ∀ i j t t' parsed parsed' idem idem', Verified G V cfg (bodies i) t parsed idem →
    Verified G V cfg (bodies j) t' parsed' idem' → parsed.iss = parsed'.iss →
    parsed.req.kind = parsed'.req.kind → SameOrg G parsed.req.org parsed'.req.org →
    parsed.req.org = parsed'.req.org

/-- The text that is hashed for a key. -/
def keyText (iss aud canonical : Bytes) : Bytes := iss ++ 0x1F :: (aud ++ 0x1F :: canonical)

/-- SHA-256 does not collide on the texts of the two requests. -/
def NoCollision (G : Runtime) (p p' : CsrPayload) : Prop :=
  ∀ b b', canonicalize G (.obj (requestMap p.req.kind p.req.org)) = .ok b →
    canonicalize G (.obj (requestMap p'.req.kind p'.req.org)) = .ok b' →
    G.sha256 (keyText p.iss p.aud b) = G.sha256 (keyText p'.iss p'.aud b') →
    keyText p.iss p.aud b = keyText p'.iss p'.aud b'

theorem request_eq {req req' : CsrRequest} (hkind : req.kind = req'.kind)
    (horg : req.org = req'.org) : req = req' := by
  cases req
  cases req'
  cases hkind
  cases horg
  rfl

theorem key_text {p : CsrPayload} {idem : Bytes}
    (hk : idempotencyKey G p.iss p.aud p.req = .ok idem) :
    ∃ b, canonicalize G (.obj (requestMap p.req.kind p.req.org)) = .ok b ∧ Valid p.req.kind ∧
      Valid p.req.org ∧ idem = hexEncode (G.sha256 (keyText p.iss p.aud b)) := by
  simp only [idempotencyKey, guard_eq_ok, bind_eq_ok, mapError_eq_ok, pure_eq_ok] at hk
  obtain ⟨-, b, hb, hidem⟩ := hk
  have hvalid := Interop.jcsEncode_valid hb
  rw [Json.forall_obj] at hvalid
  have hkind := hvalid.2 (bytes "kind", .str p.req.kind) (by simp)
  have horg := hvalid.2 (bytes "org", .str p.req.org) (by simp)
  exact ⟨b, hb, hkind.2, horg.2, hidem.symm⟩

/-- For one subject, one issuer and one kind, the keys are equal only for equal spellings. -/
theorem key_eq_iff {p p' : CsrPayload} {idem idem' : Bytes} (hno : NoCollision G p p')
    (hiss : p.iss = p'.iss) (haud : p.aud = p'.aud) (hkind : p.req.kind = p'.req.kind)
    (hk : idempotencyKey G p.iss p.aud p.req = .ok idem)
    (hk' : idempotencyKey G p'.iss p'.aud p'.req = .ok idem') :
    idem = idem' ↔ p.req.org = p'.req.org := by
  constructor
  · rintro rfl
    obtain ⟨b, hb, hvk, hvo, hidem⟩ := key_text hk
    obtain ⟨b', hb', hvk', hvo', hidem'⟩ := key_text hk'
    have htext := hno b b' hb hb' (hexEncode_injective (hidem.symm.trans hidem'))
    rw [hiss, haud] at htext
    obtain rfl : b = b' := by simpa [keyText] using htext
    exact (canonicalize_inj hvk hvo hvk' hvo' hb hb').2
  · intro horg
    rw [hiss, haud, request_eq hkind horg] at hk
    exact Except.ok.inj (hk.symm.trans hk')

/-! ### What a POST of the issuer with the queue hook stores -/

section
variable {calls : Calls QueueOp QueueAns} {r : Response}

theorem PostPath.put_minted {a : Except StoreError Unit} (hp : PostPath G V cfg h body calls r)
    (hm : ⟨.issue (.putCredential c), a⟩ ∈ calls) :
    ∃ parsed, StoredFor G V cfg body c parsed := by
  have hof : ∀ {l : Calls IssueOp IssueAns}, ⟨.issue (.putCredential c), a⟩ ∈ issueCalls l →
      ⟨.putCredential c, a⟩ ∈ l := by
    intro l hl
    obtain ⟨⟨o, b⟩, hin, heq⟩ := List.mem_map.mp hl
    cases heq
    exact hin
  cases hp with
  | early calls r hp hc =>
    exact hp.put_minted (hof hm)
  | decided t parsed idem hv pub hs d hook hh rest r hd =>
    have hrest : ⟨.issue (.putCredential c), a⟩ ∈ issueCalls rest := by
      cases hh <;> simpa using hm
    -- the hook's answer in place of its calls
    have hpath := IssuePath.decided t parsed idem hv pub hs d rest r hd
    exact hpath.put_minted (a := a) (by simp [hof hrest])

/-- The ceremony is one for the CSR of the body. -/
def ParkedFor (G : Runtime) (V : Verifier) (cfg : HandlerConfig) (body : Option Bytes) (p : Pending)
    (parsed : CsrPayload) : Prop :=
  ∃ t, Verified G V cfg body t parsed p.idempotencyKey ∧ p.iss = parsed.iss ∧
    p.aud = parsed.aud ∧ p.kind = parsed.req.kind ∧ p.org = parsed.req.org

theorem PostPath.parked {p : Pending} {a : Except StoreError Unit}
    (hp : PostPath G V cfg h body calls r) (hm : ⟨.putPending p, a⟩ ∈ calls) :
    ∃ parsed, ParkedFor G V cfg body p parsed := by
  have hnot : ∀ {l : Calls IssueOp IssueAns}, ⟨.putPending p, a⟩ ∉ issueCalls l := by
    intro l hl
    obtain ⟨⟨o, b⟩, -, heq⟩ := List.mem_map.mp hl
    cases heq
  cases hp with
  | early calls r hp hc => exact absurd hm hnot
  | decided t parsed idem hv pub hs d hook hh rest r hd =>
    cases hh with
    | parked pubMB handle now b he =>
      have hm' : p = h.pending (csrView parsed) idem pubMB handle now := by
        simp only [List.cons_append, List.nil_append, List.mem_cons, Sigma.mk.injEq, reduceCtorEq,
          false_and, false_or, QueueOp.putPending.injEq, hnot, or_false] at hm
        exact hm.1
      rw [hm']
      exact ⟨parsed, t, hv, rfl, rfl, rfl, rfl⟩
    | _ => simp [hnot] at hm

end

/-- Two ceremonies of one subject, one organisation and one kind have one key. -/
theorem ParkedFor.key_eq {p p' : Pending} (hp : ParkedFor G V cfg body p parsed)
    (hp' : ParkedFor G V cfg body' p' parsed') (hiss : parsed.iss = parsed'.iss)
    (hkind : parsed.req.kind = parsed'.req.kind) (horg : parsed.req.org = parsed'.req.org) :
    p.idempotencyKey = p'.idempotencyKey := by
  obtain ⟨t, ⟨data, -, -, hparse, hi⟩, -⟩ := hp
  obtain ⟨t', ⟨data', -, -, hparse', hi'⟩, -⟩ := hp'
  rw [hiss, parseAndVerifyCSR_aud hparse, request_eq hkind horg,
    ← parseAndVerifyCSR_aud hparse', hi'] at hi
  exact (Except.ok.inj hi).symm

/-- A write of a ceremony adds a row with a new key, or changes neither the keys nor what a
row says about its request. -/
theorem putPending_rows {rows rows' : List Pending} {p : Pending} {now : Time}
    (hp : putPending rows p now = .ok rows') :
    (rows' = rows ++ [p.row now] ∧ p.idempotencyKey ∉ rows.map Pending.idempotencyKey) ∨
      ∃ f : Pending → Pending, rows' = rows.map f ∧ ∀ q, (f q).idempotencyKey = q.idempotencyKey ∧
        (f q).iss = q.iss ∧ (f q).aud = q.aud ∧ (f q).kind = q.kind ∧ (f q).org = q.org := by
  dsimp only [putPending] at hp
  split at hp
  · refine .inr ⟨_, (pure_eq_ok.mp hp).symm, fun q => ?_⟩
    split <;> exact ⟨rfl, rfl, rfl, rfl, rfl⟩
  · split at hp
    · cases hp
    · next hnone =>
      refine .inl ⟨(pure_eq_ok.mp hp).symm, fun hm => hnone ?_⟩
      obtain ⟨q, hq, hk⟩ := List.mem_map.mp hm
      exact List.any_eq_true.mpr ⟨q, hq, beq_iff_eq.mpr hk⟩

/-! ### Over whole runs -/

/-- Each row belongs to the CSR of a request, and no two rows of a table have one key. -/
structure Booked {ι : Type} (G : Runtime) (V : Verifier) (cfg : HandlerConfig)
    (bodies : ι → Option Bytes) (w : QueueState) : Prop where
  sound : w.store.Sound
  keys : (w.store.db.credentials.map CredentialRow.idempotencyKey).Nodup
  rows : ∀ c ∈ w.store.db.credentials, ∃ i parsed, StoredFor G V cfg (bodies i) c parsed
  pendingKeys : (w.pendings.map Pending.idempotencyKey).Nodup
  pendings : ∀ p ∈ w.pendings, ∃ i parsed, ParkedFor G V cfg (bodies i) p parsed

section
variable {ι : Type} {bodies : ι → Option Bytes} {w w' : QueueState}

theorem Booked.fresh {m : Nat} {now t₀ : Time} {s₀ : Store}
    (ho : Store.openStore .empty m now = .ok s₀) : Booked G V cfg bodies ⟨s₀, [], t₀⟩ := by
  have hl : Ledger (ι := Unit) [] s₀ := .fresh ho
  exact ⟨hl.sound, hl.keys_nodup, fun c hc => absurd (hl.pairs_taken c hc) (by simp [taken]),
    List.nodup_nil, fun p hp => absurd hp List.not_mem_nil⟩

/-- A change that keeps the keys of the ceremonies and what they say about their requests. -/
theorem Booked.map (hb : Booked G V cfg bodies w) {f : Pending → Pending}
    (hf : ∀ q, (f q).idempotencyKey = q.idempotencyKey ∧ (f q).iss = q.iss ∧ (f q).aud = q.aud ∧
      (f q).kind = q.kind ∧ (f q).org = q.org) :
    Booked G V cfg bodies { w with pendings := w.pendings.map f } := by
  refine ⟨hb.sound, hb.keys, hb.rows, ?_, ?_⟩
  · rw [List.map_map]
    have hcomp : Pending.idempotencyKey ∘ f = Pending.idempotencyKey := funext fun q => (hf q).1
    rw [hcomp]
    exact hb.pendingKeys
  · intro p hp
    obtain ⟨q, hq, rfl⟩ := List.mem_map.mp hp
    obtain ⟨i, parsed, t, hv, hiss, haud, hkind, horg⟩ := hb.pendings q hq
    obtain ⟨hkey, hfiss, hfaud, hfkind, hforg⟩ := hf q
    refine ⟨i, parsed, t, ?_, hfiss.trans hiss, hfaud.trans haud, hfkind.trans hkind,
      hforg.trans horg⟩
    rw [hkey]
    exact hv

theorem Booked.move (hb : Booked G V cfg bodies w) (hm : QueueMove w w') :
    Booked G V cfg bodies w' := by
  cases hm with
  | update handleID status reason t now =>
    cases hu : updatePendingStatus w.pendings handleID status reason t now with
    | error e => exact hb
    | ok rows =>
      rw [updatePendingStatus_ok hu]
      refine hb.map fun q => ?_
      split <;> exact ⟨rfl, rfl, rfl, rfl, rfl⟩
  | admin call =>
    have hcred := step_credentials hb.sound call
    exact ⟨hb.sound.step call, hcred ▸ hb.keys, hcred ▸ hb.rows, hb.pendingKeys, hb.pendings⟩

/-- A new row has a new key. -/
theorem stored_fresh {a : Except StoreError Unit}
    (hs : QueueFaulty w (.issue (.putCredential c)) a w') :
    (w' = w ∨ w'.store.db.credentials = w.store.db.credentials ++ [c] ∧
      c.idempotencyKey ∉ w.store.db.credentials.map CredentialRow.idempotencyKey) := by
  cases hs with
  | fault o a hf => exact .inl rfl
  | fine hq =>
    cases hq with
    | put c =>
      cases hp : w.store.db.putCredential c with
      | error e =>
        simp only [Store.putCredential, Store.commit, hp, Except.map]
        exact .inl trivial
      | ok db =>
        obtain ⟨hcred, -, hk⟩ := putCredential_ok hp
        simp only [Store.putCredential, Store.commit, hp, Except.map]
        exact .inr ⟨hcred, hk⟩

theorem Booked.step {o : QueueOp} {a : QueueAns o} {i : ι} {calls : Calls QueueOp QueueAns}
    {r : Response} (hb : Booked G V cfg bodies w) (hs : QueueFaulty w o a w')
    (hp : PostPath G V cfg h (bodies i) calls r) (hm : ⟨o, a⟩ ∈ calls) :
    Booked G V cfg bodies w' := by
  have hfresh : ∀ c (heq : o = .issue (.putCredential c)), w' = w ∨
      c.idempotencyKey ∉ w.store.db.credentials.map CredentialRow.idempotencyKey := by
    rintro c rfl
    exact (stored_fresh hs).imp id And.right
  cases queue_effect hb.sound hs with
  | idle o a w' hu =>
    exact ⟨hu.sound, hu.credentials ▸ hb.keys, hu.credentials ▸ hb.rows, hu.pendings ▸
      hb.pendingKeys,
      hu.pendings ▸ hb.pendings⟩
  | stored c s hsound hcred =>
    rcases hfresh c rfl with hsame | hk
    · exact hsame ▸ hb
    refine ⟨hsound, ?_, ?_, hb.pendingKeys, hb.pendings⟩
    · rw [hcred, List.map_append, List.map_singleton, ← List.concat_eq_append]
      exact hb.keys.concat hk
    · intro d hd
      rw [hcred] at hd
      rcases List.mem_append.mp hd with hd | hd
      · exact hb.rows d hd
      · rw [List.mem_singleton.mp hd]
        exact ⟨i, hp.put_minted hm⟩
  | parked p now rows hput =>
    rcases putPending_rows hput with ⟨rfl, hk⟩ | ⟨f, rfl, hf⟩
    · refine ⟨hb.sound, hb.keys, hb.rows, ?_, ?_⟩
      · rw [List.map_append, List.map_singleton, ← List.concat_eq_append]
        exact hb.pendingKeys.concat hk
      · intro q hq
        rcases List.mem_append.mp hq with hq | hq
        · exact hb.pendings q hq
        · obtain ⟨parsed, hpark⟩ := hp.parked hm
          rw [List.mem_singleton.mp hq]
          exact ⟨i, parsed, hpark⟩
    · exact hb.map hf

variable [DecidableEq ι] {tr : List (Event ι QueueOp QueueAns)} {pool : ι → QueueProg Response}

theorem booked_run {m : Nat} {now t₀ : Time} {s₀ : Store}
    (ho : Store.openStore .empty m now = .ok s₀)
    (hr : Run QueueFaulty QueueMove ⟨s₀, [], t₀⟩ (fun i => serveQueued G V cfg h (bodies i)) tr w
      pool) : Booked G V cfg bodies w := by
  induction hr with
  | start => exact .fresh ho
  | env hr he ih => exact ih.move he
  | @step tr w w' pool i o k a hr hc hs ih =>
    obtain ⟨rest, r, hrest⟩ := Prog.exists_path queueAns_nonempty (k a)
    exact ih.step hs (path_serveQueued_ways (hr.path_call hc hrest))
      (List.mem_append_right _ List.mem_cons_self)

/-- Two accepted CSRs of one subject for one kind and one organisation have one key exactly
when they write the organisation alike. And in every interleaving of any number of POSTs with
the operator's calls in which they do, a subject has at most one credential and at most one
ceremony for each kind and each organisation. -/
theorem one_per_spelling {m : Nat} {now t₀ : Time} {s₀ : Store}
    (ho : Store.openStore .empty m now = .ok s₀)
    (hr : Run QueueFaulty QueueMove ⟨s₀, [], t₀⟩ (fun i => serveQueued G V cfg h (bodies i)) tr w
      pool) :
    (∀ body body' t t' parsed parsed' idem idem', Verified G V cfg body t parsed idem →
      Verified G V cfg body' t' parsed' idem' → parsed.iss = parsed'.iss →
      parsed.req.kind = parsed'.req.kind → SameOrg G parsed.req.org parsed'.req.org →
      NoCollision G parsed parsed' → (idem = idem' ↔ parsed.req.org = parsed'.req.org)) ∧
    (SpelledAlike G V cfg bodies →
      (∀ c ∈ w.store.db.credentials, ∃ i parsed, StoredFor G V cfg (bodies i) c parsed) ∧
      (∀ c ∈ w.store.db.credentials, ∀ c' ∈ w.store.db.credentials, ∀ i i' parsed parsed',
        StoredFor G V cfg (bodies i) c parsed → StoredFor G V cfg (bodies i') c' parsed' →
        c.sub = c'.sub → parsed.req.kind = parsed'.req.kind → SameOrg G c.org c'.org → c = c') ∧
      ∀ p ∈ w.pendings, ∀ p' ∈ w.pendings, p.iss = p'.iss → p.aud = p'.aud → p.kind = p'.kind →
        SameOrg G p.org p'.org → p = p') := by
  refine ⟨?_, fun halike => ?_⟩
  · intro body body' t t' parsed parsed' idem idem' hv hv' hiss hkind _ hno
    obtain ⟨data, -, -, hp, hi⟩ := hv
    obtain ⟨data', -, -, hp', hi'⟩ := hv'
    have haud : parsed.aud = parsed'.aud :=
      (parseAndVerifyCSR_aud hp).trans (parseAndVerifyCSR_aud hp').symm
    exact key_eq_iff hno hiss haud hkind hi hi'
  · have hb := booked_run ho hr
    refine ⟨hb.rows, ?_, ?_⟩
    · intro c hc c' hc' i i' parsed parsed' hfor hfor' hsub hkind horg
      have hspell : c.org = c'.org := by
        obtain ⟨hs, ho, -⟩ := hfor.fields
        obtain ⟨hs', ho', -⟩ := hfor'.fields
        obtain ⟨t, idem, -, hv, -⟩ := hfor
        obtain ⟨t', idem', -, hv', -⟩ := hfor'
        rw [ho, ho'] at horg ⊢
        rw [hs, hs'] at hsub
        exact halike i i' t t' parsed parsed' idem idem' hv hv' hsub hkind horg
      exact List.inj_on_of_nodup_map hb.keys hc hc' (hfor.key_eq hfor' hsub hspell hkind)
    · intro p hp p' hp' hiss _ hkind horg
      obtain ⟨i, parsed, hpark⟩ := hb.pendings p hp
      obtain ⟨i', parsed', hpark'⟩ := hb.pendings p' hp'
      refine List.inj_on_of_nodup_map hb.pendingKeys hp hp' ?_
      obtain ⟨t, hv, his, -, hki, hor⟩ := id hpark
      obtain ⟨t', hv', his', -, hki', hor'⟩ := id hpark'
      rw [his, his'] at hiss
      rw [hki, hki'] at hkind
      rw [hor, hor'] at horg
      exact hpark.key_eq hpark' hiss hkind (halike i i' t t' _ _ _ _ hv hv' hiss hkind horg)

end

/-! ### Two spellings of one organisation -/

/-- The ceremony of one of the two CSRs. -/
def spelledPending (org : String) (key handle : Bytes) : Pending :=
  deskHook.pending (csrView (spelledPayload org)) key (spelledPayload org).iss handle
    (Time.ofUnix 200)

/-- The calls of the hook that parks it. -/
def spelledParking (org : String) (key handle : Bytes) : Calls QueueOp QueueAns :=
  [⟨.getPendingByIdempotencyKey key, .error .notFound⟩, ⟨.newHandleID, .ok handle⟩,
    ⟨.hookNow, Time.ofUnix 200⟩, ⟨.putPending (spelledPending org key handle), .ok ()⟩]

/-- The calls of its POST. -/
def spelledCalls (org : String) (key handle : Bytes) : Calls QueueOp QueueAns :=
  openCalls key (bytes org) ++ spelledParking org key handle

theorem spelled_path {token key : Bytes} {org : String} (handle : Bytes)
    (hv : Verified spelledRuntime spelledVerifier raceConfig (some token) (Time.ofUnix 200)
      (spelledPayload org) key) :
    Prog.Path (serveQueued spelledRuntime spelledVerifier raceConfig deskHook (some token))
      (spelledCalls org key handle) (writeCeremonyPending deskHook.nextURL) := by
  have hsub : subjectPubFromCSR spelledRuntime (spelledPayload "") = .ok attackerKey := by
    decide
  have henc : encodePubKey attackerKey = .ok (spelledPayload org).iss := by
    have h : encodePubKey attackerKey = .ok (spelledPayload "").iss := by decide +kernel
    exact h
  obtain ⟨-, -, -, -, hk⟩ := id hv
  have hhook : Prog.Path (deskHook.evaluate spelledRuntime (csrView (spelledPayload org))
      attackerKey) _ _ := path_of_parked handle (Time.ofUnix 200) (.ok ()) hk henc
  exact path_of_hook hv hsub hhook (.ret (writeCeremonyPending deskHook.nextURL))

theorem opened_evolves {key org : Bytes} {rows : List Pending} {clock : Time}
    (ht : clock.nanos ≤ (Time.ofUnix 200).nanos) :
    Evolves QueueFaulty ⟨raceStore 0 [], rows, clock⟩ (openCalls key org)
      ⟨raceStore 0 [], rows, Time.ofUnix 200⟩ := by
  have hnow : QueueHandle ⟨raceStore 0 [], rows, clock⟩ (.issue .now) (Time.ofUnix 200)
      ⟨raceStore 0 [], rows, Time.ofUnix 200⟩ := .now _ _ ht
  exact .cons (.fine hnow) (.cons (.fine (.get _ key)) (.cons (.fine (.authorize _ _ _ _))
    (.nil _)))

theorem parking_evolves {org : String} {key handle : Bytes} {rows : List Pending}
    (hmiss : getPendingByIdempotencyKey rows key = .error .notFound)
    (hfresh : handle ∉ rows.map Pending.handleID)
    (hput : putPending rows (spelledPending org key handle) (Time.ofUnix 200) =
      .ok (rows ++ [spelledPending org key handle])) :
    Evolves QueueFaulty ⟨raceStore 0 [], rows, Time.ofUnix 200⟩ (spelledParking org key handle)
      ⟨raceStore 0 [], rows ++ [spelledPending org key handle], Time.ofUnix 200⟩ := by
  have hlook := QueueHandle.getPending ⟨raceStore 0 [], rows, Time.ofUnix 200⟩ key
  rw [hmiss] at hlook
  have hpark := QueueHandle.putPending ⟨raceStore 0 [], rows, Time.ofUnix 200⟩
    (spelledPending org key handle) (Time.ofUnix 200)
  rw [hput] at hpark
  exact .cons (.fine hlook) (.cons (.fine (.newHandle _ _ hfresh))
    (.cons (.fine (.hookNow _ _ le_rfl)) (.cons (.fine hpark) (.nil _))))

/-- The first of the two POSTs parks its ceremony. -/
def plainParked : QueueState :=
  ⟨raceStore 0 [], [spelledPending "a.co" (hexEncode plainDigest) deskHandle], Time.ofUnix 200⟩

theorem plain_parks : Evolves QueueFaulty deskLooked
    (spelledParking "a.co" (hexEncode plainDigest) deskHandle) plainParked :=
  parking_evolves rfl List.not_mem_nil rfl

theorem plain_evolves : Evolves QueueFaulty deskStart
    (spelledCalls "a.co" (hexEncode plainDigest) deskHandle) plainParked :=
  evolves_append.mpr ⟨deskLooked, opened_evolves (by decide), plain_parks⟩

theorem caps_evolves : Evolves QueueFaulty plainParked
    (spelledCalls "A.co" (hexEncode capsDigest) otherHandle)
    ⟨raceStore 0 [], plainParked.pendings ++
      [spelledPending "A.co" (hexEncode capsDigest) otherHandle], Time.ofUnix 200⟩ :=
  evolves_append.mpr ⟨_, opened_evolves le_rfl, parking_evolves (by decide) (by decide) (by decide)⟩

/-- One subject parks two ceremonies of one kind, for `a.co` and for `A.co`, which are the same
organisation to the authorizer. -/
theorem spelled_twice : SameOrg spelledRuntime (bytes "a.co") (bytes "A.co") ∧
    ∃ tr w pool, Run QueueFaulty QueueMove deskStart (fun b : Bool => serveQueued spelledRuntime
      spelledVerifier raceConfig deskHook (some (if b then plainToken else capsToken))) tr w pool ∧
    ∃ p ∈ w.pendings, ∃ p' ∈ w.pendings, p.iss = p'.iss ∧ p.aud = p'.aud ∧ p.kind = p'.kind ∧
      p.org = bytes "a.co" ∧ p'.org = bytes "A.co" ∧ p.idempotencyKey ≠ p'.idempotencyKey := by
  have hplain := spelled_path deskHandle plain_verified
  have hcaps := spelled_path otherHandle caps_verified
  rw [← List.append_nil (spelledCalls _ _ _)] at hplain hcaps
  obtain ⟨_, hf, -⟩ := plain_evolves.follows hplain
  obtain ⟨_, hf', -⟩ := caps_evolves.follows hcaps
  have hstart : Run QueueFaulty QueueMove deskStart (fun b : Bool => serveQueued spelledRuntime
      spelledVerifier raceConfig deskHook (some (if b then plainToken else capsToken))) [] deskStart
      _ := .start
  have hr := (hstart.follow (i := true) rfl hf).follow (i := false)
    (Function.update_of_ne (by decide) _ _) hf'
  refine ⟨by decide, _, _, _, hr, _, List.mem_cons_self, _,
    List.mem_cons_of_mem _ List.mem_cons_self, rfl, rfl, rfl, rfl, rfl, ?_⟩
  intro hkey
  exact absurd (hexEncode_injective hkey) (by decide)

theorem plain_alike : SpelledAlike spelledRuntime spelledVerifier raceConfig
    (fun _ : Bool => some plainToken) := by
  intro _ _ t t' parsed parsed' idem idem' hv hv' _ _ _
  rw [hv.payload_unique hv']

theorem spelled_injective : Function.Injective spelledRuntime.sha256 :=
  @hashOn_injective (spelledInput "a.co") plainDigest (spelledInput "A.co") capsDigest (by decide)
    rfl rfl

/-- The lookup that finds the first ceremony. -/
def plainFinding : Calls QueueOp QueueAns :=
  [⟨.getPendingByIdempotencyKey (hexEncode plainDigest),
    .ok (spelledPending "a.co" (hexEncode plainDigest) deskHandle)⟩]

/-- Two POSTs of one CSR that overlap: both come up to the hook, the first parks its ceremony,
and the second finds it. -/
def plainTrace : List (Event Bool QueueOp QueueAns) :=
  (openCalls (hexEncode plainDigest) (bytes "a.co")).map (fun c => ⟨true, c.1, c.2⟩) ++
    (openCalls (hexEncode plainDigest) (bytes "a.co")).map (fun c => ⟨false, c.1, c.2⟩) ++
    (spelledParking "a.co" (hexEncode plainDigest) deskHandle).map (fun c => ⟨true, c.1, c.2⟩) ++
    plainFinding.map fun c => ⟨false, c.1, c.2⟩

theorem one_per_spelling_plain : ∃ pool,
    Run QueueFaulty QueueMove deskStart (fun _ : Bool => serveQueued spelledRuntime spelledVerifier
      raceConfig deskHook (some plainToken)) plainTrace plainParked pool ∧
    (∀ i, pool i = .ret (writeCeremonyPending deskHook.nextURL)) ∧
    (∀ p ∈ plainParked.pendings, ∀ p' ∈ plainParked.pendings, p.iss = p'.iss → p.aud = p'.aud →
      p.kind = p'.kind → SameOrg spelledRuntime p.org p'.org → p = p') ∧
    (hexEncode plainDigest = hexEncode capsDigest ↔ bytes "a.co" = bytes "A.co") := by
  have ho : Store.openStore .empty 5 (Time.ofUnix 100) = .ok (raceStore 0 []) := rfl
  have hfind : Evolves QueueFaulty plainParked plainFinding plainParked := by
    have hget := QueueHandle.getPending plainParked (hexEncode plainDigest)
    rw [show getPendingByIdempotencyKey plainParked.pendings (hexEncode plainDigest) =
      .ok (spelledPending "a.co" (hexEncode plainDigest) deskHandle) by decide] at hget
    exact .cons (.fine hget) (.nil _)
  have hsub : subjectPubFromCSR spelledRuntime (spelledPayload "a.co") = .ok attackerKey := by
    decide
  obtain ⟨-, -, -, -, hk⟩ := plain_verified
  have hhook : Prog.Path (deskHook.evaluate spelledRuntime (csrView (spelledPayload "a.co"))
      attackerKey) _ _ :=
    path_of_found (spelledPending "a.co" (hexEncode plainDigest) deskHandle) hk
  have hsecond : Prog.Path (serveQueued spelledRuntime spelledVerifier raceConfig deskHook
      (some plainToken)) (openCalls (hexEncode plainDigest) (bytes "a.co") ++ plainFinding)
      (writeCeremonyPending deskHook.nextURL) :=
    path_of_hook plain_verified hsub hhook (.ret (writeCeremonyPending deskHook.nextURL))
  have hbegin : Evolves QueueFaulty deskStart (openCalls (hexEncode plainDigest) (bytes "a.co"))
      deskLooked := opened_evolves (by decide)
  have hagain : Evolves QueueFaulty deskLooked (openCalls (hexEncode plainDigest) (bytes "a.co"))
      deskLooked := opened_evolves le_rfl
  have hstart : Run QueueFaulty QueueMove deskStart (fun _ : Bool => serveQueued spelledRuntime
      spelledVerifier raceConfig deskHook (some plainToken)) [] deskStart _ := .start
  obtain ⟨pool, hr, htrue, hfalse⟩ := hstart.overlap (i := true) (j := false) (by decide)
    (spelled_path deskHandle plain_verified) hsecond hbegin hagain plain_parks hfind
  obtain ⟨hkeys, hrows⟩ := one_per_spelling ho hr
  refine ⟨pool, hr, fun i => ?_, (hrows plain_alike).2.2, ?_⟩
  · cases i with
    | true => exact htrue
    | false => exact hfalse
  · exact hkeys (some plainToken) (some capsToken) _ _ _ _ _ _ plain_verified caps_verified rfl rfl
      (by decide) fun b b' _ _ h => spelled_injective h

end Shadownet.Issuer
