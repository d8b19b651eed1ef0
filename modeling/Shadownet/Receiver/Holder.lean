import Shadownet.Receiver.Runs

/-!
# Whose credential it is

Step 9 never compares the `sub` of a credential with the sender of the envelope, although
the identity gate of the payment package does. `holder_binding` says which runs are safe
all the same: those whose requests carry no credential of somebody else that the policy
would count. `holder_binding_stolen` is a run with one such request.
-/

namespace Shadownet.Receiver

open Foundation Python

/-- Every credential in the envelope of a request that the policy would count has the
envelope's sender as its subject. -/
def HolderBound (G : Runtime) (cfg : ReceiverConfig) (body : Dict) : Prop :=
  ∀ jws message claims env token d payload, extractEnvelopeJws G body = .ok (jws, message) →
    decodeUnverifiedClaims G jws = .ok claims → EnvelopePayload.modelValidate G claims = .ok env →
    token ∈ env.creds → decodeUnverifiedClaims G token = .ok d →
    CredentialPayload.modelValidate G d = .ok payload →
    cfg.trustStore.accepts G payload.iss payload.kind = true →
    payload.kind ∈ cfg.policy.fromStranger → payload.sub = env.sender

/-- A `stranger_review` decision rests on a credential of its sender. -/
def HolderSound (G : Runtime) (cfg : ReceiverConfig) (calls : List Call)
    (d : AcceptedDecision) : Prop :=
  d.route = .strangerReview → ∃ c, Weighed calls d.sender c ∧
    Counts G cfg.trustStore cfg.policy.fromStranger c ∧ c.payload.sub = d.sender

section
variable {G : Runtime} {cfg : ReceiverConfig} {tick : Int → Int → Prop} {t₀ : Int}
  {h : List Happened} {s s' : Stores} {body : Dict} {calls : List Call}
  {d : AcceptedDecision}

/-- A counted credential that was presented has its presenter as subject. -/
theorem Presented.sub_eq {sender : Text} {c : VerifiedCredential} {e : Int}
    (hbound : HolderBound G cfg body) (hp : Presented G cfg body calls sender c e)
    (hcount : Counts G cfg.trustStore cfg.policy.fromStranger c) : c.payload.sub = sender := by
  obtain ⟨p, key, record, t, resolving, env, hpre, rfl, -, -, henv, htoken⟩ := hp.envelope
  obtain ⟨t', hchecks⟩ := hp.checks
  obtain ⟨claims, hd, hpayload⟩ := hchecks.claims
  obtain ⟨hext, claims', raw, hclaims', hfrom, hcanon⟩ := preparse_parts hpre
  obtain ⟨⟨claims'', hclaims'', henv'⟩, -⟩ := verifyEnvelope_ok henv
  cases hclaims'.symm.trans hclaims''
  have hsub : c.payload.sub = env.sender :=
    hbound _ _ _ _ _ _ _ hext hclaims' henv' htoken hd hpayload hcount.1 hcount.2
  have hsender : canonicalizeIdentifier G raw = .ok env.sender := modelValidate_sender henv' hfrom
  rw [hcanon, Except.ok.injEq] at hsender
  rw [hsub, hsender]

/-- The step: requests before and the request itself are bound, so the decision is. -/
theorem holderSound_of_bound (hr : Runs G cfg tick t₀ h s)
    (hpast : ∀ b cs r, .received b cs r ∈ h → HolderBound G cfg b)
    (hbound : HolderBound G cfg body) (hp : Fallible.Path (receive G cfg body) calls (.ok d))
    (he : Evolves (handle tick) s calls s') : HolderSound G cfg calls d := by
  intro hroute
  obtain ⟨A⟩ := receive_ok hp
  rcases classify_ways A.classify_ok with ⟨-, hr', -⟩ | ⟨-, ⟨hr', -⟩ | ⟨-, -, hr', -⟩ |
    ⟨-, -, c, hc, hcount⟩⟩
  · simp [hroute] at hr'
  · simp [hroute] at hr'
  · simp [hroute] at hr'
  have hw := A.weighed hc
  have hnow : ∀ e, ⟨.cache d.sender c e, ()⟩ ∈ calls → c.payload.sub = d.sender :=
    fun e hcall => (presented_of_cache hp hcall).sub_eq hbound hcount
  refine ⟨c, hw, hcount, ?_⟩
  rcases hw with ⟨e, hcall⟩ | ⟨creds, hcall, hmem⟩
  · exact hnow e hcall
  · obtain ⟨e, -, -, -, -, -, -, -, -, hold | hnew⟩ := evolves_forSender he hcall hmem
    · obtain ⟨b, cs, r, hin, hcache⟩ := hr.cached hold
      exact (presented_of_cache (hr.path hin) hcache).sub_eq (hpast _ _ _ hin) hcount
    · exact hnow e hnew

/-- In a run whose requests are bound, every decision is. -/
theorem holder_binding (hr : Runs G cfg tick t₀ h s)
    (hbound : ∀ b cs r, .received b cs r ∈ h → HolderBound G cfg b) :
    ∀ b cs d, .received b cs (.ok d) ∈ h → HolderSound G cfg cs d := by
  intro b cs d hmem
  obtain ⟨h₁, s₁, s₂, hr₁, hpre, hp, he⟩ := hr.split hmem
  refine holderSound_of_bound hr₁ (fun b' cs' r hin => ?_) (hbound _ _ _ hmem) hp he
  exact hbound _ _ _ (hpre.subset hin)

end

/-! ## A stranger with a credential -/

/-- The issuer's key. -/
def issuerKeyText : Text := text "z6MkvRXNYcE7MMduynWTgeKbDaT1iijDSC8pZqXZc8rHPrf2"

def issuerKeyBytes : Bytes :=
  [237, 73, 40, 198, 40, 209, 194, 198, 234, 233, 3, 56, 144, 89, 149, 97, 41, 89, 39, 58, 92,
    99, 249, 54, 54, 193, 70, 20, 172, 135, 55, 209]

def issuerRecord : ProviderRecord :=
  ⟨text "b.co", text "0.2", text "https://b.co", [issuerKeyText], true, []⟩

/-- The subject of the credential: the sender, or somebody else. -/
def subjectOf (stolen : Bool) : Text := if stolen then text "v@b.co" else text "a@b.co"

def credClaims (stolen : Bool) : Dict :=
  let rev := (Dict.empty.set (text "epoch") (.str (text "e")) (Json.distinct_str _)).set
    (text "idx") (.num (.int 0)) trivial
  ((((((Dict.empty.set (text "iss") (.str (text "b.co")) (Json.distinct_str _)).set (text "sub")
    (.str (subjectOf stolen)) (Json.distinct_str _)).set (text "kind") (.str orgAffiliation)
    (Json.distinct_str _)).set (text "org") (.str (text "b.co")) (Json.distinct_str _)).set
    (text "iat") (.num (.int 100)) trivial).set (text "exp") (.num (.int 1000)) trivial).set
    (text "rev") (.obj rev.members) rev.distinct

/-- The credential as the issuer signed it. -/
def credToken (stolen : Bool) : Text :=
  text "eyJhbGciOiJFZERTQSIsInR5cCI6InNoYWRvd25ldC1jcmVkK2p3dCJ9.eyJpc3MiOiJiLmNvIiwic3V" ++
    text "iIjoi" ++
  if stolen then
    text "dkBiLmNvIiwia2luZCI6Im9yZ19hZmZpbGlhdGlvbiIsIm9yZyI6ImIuY28iLCJpYXQiOjEwMCwiZXhw" ++
      text "IjoxMDAwLCJyZXYiOnsiZXBvY2giOiJlIiwiaWR4IjowfX0.qi48CsbwfwRZEa9CY8s2AcadYoR7OGPa" ++
      text "mds1EbE1qJVFvOsUokx8cVz9cs6qEIYtLzRPMGHuma1Wahh_XAMoBw"
  else
    text "YUBiLmNvIiwia2luZCI6Im9yZ19hZmZpbGlhdGlvbiIsIm9yZyI6ImIuY28iLCJpYXQiOjEwMCwiZXhw" ++
      text "IjoxMDAwLCJyZXYiOnsiZXBvY2giOiJlIiwiaWR4IjowfX0.jSuEPbHvTa7FmBoW-KyOvUQCDm151vSC" ++
      text "xlbkBqJquGFdRY5Cfer-T29Y-VpyCER6OfzCNwF9ckiBx_nYShgsDA"

def credSignature (stolen : Bool) : Bytes :=
  if stolen then
    [170, 46, 60, 10, 198, 240, 127, 4, 89, 17, 175, 66, 99, 203, 54, 1, 198, 157, 98, 132, 123,
      56, 99, 218, 153, 219, 53, 17, 177, 53, 168, 149, 69, 188, 235, 20, 162, 76, 124, 113, 92,
      253, 114, 206, 170, 16, 134, 45, 47, 52, 79, 48, 97, 238, 153, 173, 86, 106, 24, 127, 92,
      3, 40, 7]
  else
    [141, 43, 132, 61, 177, 239, 77, 174, 197, 152, 26, 22, 248, 172, 142, 189, 68, 2, 14, 109,
      121, 214, 244, 130, 198, 86, 228, 6, 162, 106, 184, 97, 93, 69, 142, 66, 125, 234, 254,
      79, 111, 88, 249, 90, 114, 8, 68, 122, 57, 252, 194, 55, 1, 125, 114, 72, 129, 199, 249,
      216, 74, 24, 44, 12]

/-- The sender's envelope around it. -/
def envToken (stolen : Bool) : Text :=
  text "eyJhbGciOiJFZERTQSIsImtpZCI6ImFAYi5jbyIsInR5cCI6InNoYWRvd25ldC1lbnYrand0In0.eyJ2" ++
    text "IjoiMC4yIiwiZnJvbSI6ImFAYi5jbyIsInRvIjoiY0BiLmNvIiwiaWF0IjoxMDAsImV4cCI6NDAwLCJt" ++
    text "c2dIYXNoIjoic2hhMjU2Om1Ub0QxNkowdHhvMnpYeTFEd1psd1NFSkViSXBaT1NIUHNSQXNQa19PcjAi" ++
    text "LCJib2R5Ijp7InRleHQiOiJoaSJ9LCJjcmVkcyI6WyJleUpoYkdjaU9pSkZaRVJUUVNJc0luUjVjQ0k2" ++
    text "SW5Ob1lXUnZkMjVsZEMxamNtVmtLMnAzZENKOS5leUpwYzNNaU9pSmlMbU52SWl3aWMzVmlJam9p" ++
  if stolen then
    text "ZGtCaUxtTnZJaXdpYTJsdVpDSTZJbTl5WjE5aFptWnBiR2xoZEdsdmJpSXNJbTl5WnlJNkltSXVZMjhp" ++
      text "TENKcFlYUWlPakV3TUN3aVpYaHdJam94TURBd0xDSnlaWFlpT25zaVpYQnZZMmdpT2lKbElpd2lhV1I0" ++
      text "SWpvd2ZYMC5xaTQ4Q3Nid2Z3UlpFYTlDWThzMkFjYWRZb1I3T0dQYW1kczFFYkUxcUpWRnZPc1Vva3g4" ++
      text "Y1Z6OWNzNnFFSVl0THpSUE1HSHVtYTFXYWhoX1hBTW9CdyJdfQ.3tlzpQ2FR_1rQYTekoW7qno557lSK" ++
      text "cMSEmD2hc5tfery-3jHDtp2LCS1IofJLFVEeiLPLjdMQgyx90hquzs8Dw"
  else
    text "WVVCaUxtTnZJaXdpYTJsdVpDSTZJbTl5WjE5aFptWnBiR2xoZEdsdmJpSXNJbTl5WnlJNkltSXVZMjhp" ++
      text "TENKcFlYUWlPakV3TUN3aVpYaHdJam94TURBd0xDSnlaWFlpT25zaVpYQnZZMmdpT2lKbElpd2lhV1I0" ++
      text "SWpvd2ZYMC5qU3VFUGJIdlRhN0ZtQm9XLUt5T3ZVUUNEbTE1MXZTQ3hsYmtCcUpxdUdGZFJZNUNmZXIt" ++
      text "VDI5WS1WcHlDRVI2T2Z6Q053Rjlja2lCeF9uWVNoZ3NEQSJdfQ.H6BQqdMjcOE5LMUmbLwPd5VGLJ6sK" ++
      text "BVBVY8iZm00Ym0eGa5Ozh9TXL23C4PT8K_QMi3Fz2JJJ2kTbiqzAw0ACw"

def envSignature (stolen : Bool) : Bytes :=
  if stolen then
    [222, 217, 115, 165, 13, 133, 71, 253, 107, 65, 132, 222, 146, 133, 187, 170, 122, 57, 231,
      185, 82, 41, 195, 18, 18, 96, 246, 133, 206, 109, 125, 234, 242, 251, 120, 199, 14, 218,
      118, 44, 36, 181, 34, 135, 201, 44, 85, 68, 122, 34, 207, 46, 55, 76, 66, 12, 177, 247,
      72, 106, 187, 59, 60, 15]
  else
    [31, 160, 80, 169, 211, 35, 112, 225, 57, 44, 197, 38, 108, 188, 15, 119, 149, 70, 44, 158,
      172, 40, 21, 65, 85, 143, 34, 102, 109, 52, 98, 109, 30, 25, 174, 78, 206, 31, 83, 92,
      189, 183, 11, 131, 211, 240, 175, 208, 50, 45, 197, 207, 98, 73, 39, 105, 19, 110, 42,
      179, 3, 13, 0, 11]

def credHeader : Dict :=
  (Dict.empty.set (text "alg") (.str (text "EdDSA")) trivial).set (text "typ")
    (.str credentialTyp) trivial

def envClaims (stolen : Bool) : Dict :=
  helloClaims.set (text "creds") (.arr [.str (credToken stolen)])
    (Json.distinct_arr.mpr fun _ hv => List.mem_singleton.mp hv ▸ Json.distinct_str _)

/-- PyJWT, SHA-256 and Ed25519 as they are on these tokens. -/
def strangerRuntime (stolen : Bool) : Runtime := { helloRuntime with
  getUnverifiedHeader := fun token =>
    if token = credToken stolen then .ok credHeader
    else if token = envToken stolen then .ok helloHeader else .error ⟨.pyJwtError, []⟩
  decodeUnverified := fun token =>
    if token = credToken stolen then .ok (credClaims stolen)
    else if token = envToken stolen then .ok (envClaims stolen) else .error ⟨.pyJwtError, []⟩
  ed25519Verify := fun key sig msg =>
    decide (key = helloKey ∧ sig = envSignature stolen ∧ msg = signedPart (envToken stolen)) ||
    decide (key = issuerKeyBytes ∧ sig = credSignature stolen ∧
      msg = signedPart (credToken stolen)) }

def strangerConfig : ReceiverConfig :=
  { contactConfig with
    trustStore := [⟨text "b.co", [orgAffiliation]⟩]
    policy := ⟨[], [orgAffiliation]⟩ }

def strangerCredential (stolen : Bool) : VerifiedCredential where
  payload := ⟨text "b.co", subjectOf stolen, orgAffiliation, text "b.co", 100, 1000,
    ⟨text "e", 0⟩, []⟩
  issuerKey := issuerKeyText
  rawJws := credToken stolen

def strangerDecision (stolen : Bool) : AcceptedDecision where
  route := .strangerReview
  sender := text "a@b.co"
  envelope := { helloTemplate with msgHash := helloHash, creds := [credToken stolen] }
  autoAddedContact := false

set_option maxRecDepth 2000 in
theorem stranger_checks (stolen : Bool) :
    preparse (strangerRuntime stolen) strangerConfig (requestWith (envToken stolen)) =
      .ok ⟨envToken stolen, helloMessage (envToken stolen), text "a@b.co"⟩ ∧
    openEnvelope (strangerRuntime stolen) strangerConfig (envToken stolen) helloKey 200 =
      .ok (strangerDecision stolen).envelope ∧
    checkMessage (strangerRuntime stolen) (strangerDecision stolen).envelope
      (helloMessage (envToken stolen)) = .ok (text "m1") ∧
    checkClaims (strangerRuntime stolen) (credToken stolen) 200 60 =
      .ok (strangerCredential stolen).payload ∧
    checkIssuerSignature (strangerRuntime stolen) (credToken stolen) issuerKeyText = .ok () ∧
    contextIdOf (helloMessage (envToken stolen)) = .ok none := by
  cases stolen <;> decide +kernel

def strangerResolving : List Call :=
  [⟨.providerLookup (text "b.co"), .ok issuerRecord⟩,
    ⟨.fetchAgentCard (text "a@b.co") issuerRecord,
      .ok (text "z6Mkon3Necd6NkkyfoGoHxid2znGc59LU3K7mubaRcFbLfLX")⟩]

def strangerValidating (stolen : Bool) : List Call :=
  [⟨.now, (200 : Int)⟩, ⟨.providerLookup (text "b.co"), .ok issuerRecord⟩,
    ⟨.revocationCheck (strangerCredential stolen), .ok ()⟩, ⟨.now, (200 : Int)⟩,
    ⟨.cache (text "a@b.co") (strangerCredential stolen) 940, ()⟩]

def strangerCalls (stolen : Bool) : List Call :=
  strangerResolving ++ ⟨.now, (200 : Int)⟩ :: ⟨.seen (text "a@b.co") (text "m1"), false⟩ ::
    ⟨.remember (text "a@b.co") (text "m1") 600, ()⟩ ::
    (strangerValidating stolen ++ [⟨.isContact (text "a@b.co"), false⟩])

theorem stranger_senderKey (stolen : Bool) :
    SenderKey (strangerRuntime stolen) (text "a@b.co") strangerResolving helloKey
      (some issuerRecord) := by
  refine @SenderKey.provider _ _ (text "a") _ _ _ _ (by decide) ?_ ?_
  all_goals cases stolen <;> decide

theorem stranger_verified (stolen : Bool) :
    Fallible.Path (verifyCredential (strangerRuntime stolen) (credToken stolen) 200 60
      (resolveIssuerKey (strangerRuntime stolen))
      (checkIssuerAuthorizedForOrg (strangerRuntime stolen)))
      [⟨.providerLookup (text "b.co"), .ok issuerRecord⟩] (.ok (strangerCredential stolen)) := by
  obtain ⟨-, -, -, hclaims, hsig, -⟩ := stranger_checks stolen
  have hkey : Fallible.Path (resolveIssuerKey (strangerRuntime stolen) (text "b.co"))
      [⟨.providerLookup (text "b.co"), .ok issuerRecord⟩] (.ok issuerKeyText) := by
    have hdomain : isPublicKeyIdentifier (text "b.co") = false := by decide
    rw [resolveIssuerKey, hdomain, if_neg (by decide)]
    exact Fallible.path_bind_ok.mpr ⟨[_], [], issuerRecord, rfl,
      path_reraise_ok.mpr (path_askPy.mpr ⟨.ok issuerRecord, rfl, rfl⟩),
      Fallible.path_pure.mpr ⟨rfl, rfl⟩⟩
  refine Fallible.path_bind_ok.mpr ⟨[], _, _, rfl,
    Fallible.path_ofExcept.mpr ⟨rfl, hclaims.symm⟩, Fallible.path_bind_ok.mpr ⟨_, [], _, rfl, hkey,
      Fallible.path_bind_ok.mpr ⟨[], [], (), rfl, Fallible.path_ofExcept.mpr ⟨rfl, hsig.symm⟩,
        Fallible.path_bind_ok.mpr ⟨[], [], (), rfl, ?_, Fallible.path_pure.mpr ⟨rfl, rfl⟩⟩⟩⟩⟩
  have horg : (strangerCredential stolen).payload.iss = (strangerCredential stolen).payload.org :=
    rfl
  rw [checkIssuerAuthorizedForOrg, if_pos horg]
  exact Fallible.path_pure.mpr ⟨rfl, rfl⟩

theorem stranger_validated (stolen : Bool) :
    Fallible.Path (validateCreds (strangerRuntime stolen) strangerConfig
      (strangerDecision stolen).envelope (text "a@b.co")) (strangerValidating stolen)
      (.ok [strangerCredential stolen]) := by
  have hone : Fallible.Path (validateCred (strangerRuntime stolen) strangerConfig (text "a@b.co")
      (credToken stolen)) (strangerValidating stolen) (.ok (strangerCredential stolen)) :=
    Fallible.path_bind_ok.mpr ⟨[_], _, 200, rfl, path_ask.mpr ⟨_, rfl, rfl⟩,
      Fallible.path_bind_ok.mpr ⟨[_], _, _, rfl, path_reraise_ok.mpr (stranger_verified stolen),
        Fallible.path_bind_ok.mpr ⟨[_], _, (), rfl,
          path_reraise_ok.mpr (path_askPy.mpr ⟨.ok (), rfl, rfl⟩),
          Fallible.path_bind_ok.mpr ⟨[_], _, 200, rfl, path_ask.mpr ⟨_, rfl, rfl⟩,
            Fallible.path_bind_ok.mpr ⟨[_], [], (), rfl, path_ask.mpr ⟨_, rfl, rfl⟩,
              Fallible.path_pure.mpr ⟨rfl, rfl⟩⟩⟩⟩⟩⟩
  exact Fallible.path_bind_ok.mpr ⟨_, [], _, (List.append_nil _).symm, hone,
    Fallible.path_bind_ok.mpr ⟨[], [], [], rfl, Fallible.path_pure.mpr ⟨rfl, rfl⟩,
      Fallible.path_pure.mpr ⟨rfl, rfl⟩⟩⟩

theorem stranger_path (stolen : Bool) :
    Fallible.Path (receive (strangerRuntime stolen) strangerConfig (requestWith (envToken stolen)))
      (strangerCalls stolen) (.ok (strangerDecision stolen)) := by
  obtain ⟨hpre, henv, hmsg, -, -, hctx⟩ := stranger_checks stolen
  have hcount : classifyStranger (strangerRuntime stolen) strangerConfig (text "a@b.co")
      [strangerCredential stolen] = .ok (.strangerReview, false) := by
    cases stolen <;> decide
  have hclassify : Fallible.Path (classify (strangerRuntime stolen) strangerConfig (text "a@b.co")
      (some issuerRecord) [strangerCredential stolen] none) [⟨.isContact (text "a@b.co"), false⟩]
      (.ok (.strangerReview, false)) :=
    Fallible.path_bind_ok.mpr ⟨[], _, false, rfl, path_py.mpr ⟨rfl, rfl⟩,
      Fallible.path_bind_ok.mpr ⟨[_], [], false, rfl, path_ask.mpr ⟨false, rfl, rfl⟩,
        Fallible.path_bind_ok.mpr ⟨[], [], false, rfl, Fallible.path_pure.mpr ⟨rfl, rfl⟩,
          path_py.mpr ⟨rfl, hcount.symm⟩⟩⟩⟩
  exact Accepted.path
    { preparsed := _, senderKey := _, record := _, messageId := _, time := _
      credentials := [strangerCredential stolen], contextId := none, resolving := _
      validating := strangerValidating stolen, classifying := _, preparse_ok := hpre
      senderKey_ok := stranger_senderKey stolen, envelope_ok := henv, message_ok := hmsg
      credentials_ok := stranger_validated stolen, contextId_ok := hctx
      classify_ok := hclassify, sender_eq := rfl, calls_eq := rfl }

theorem stranger_evolves (stolen : Bool) :
    ∃ s, Evolves (handle (· ≤ ·)) (Stores.empty 200) (strangerCalls stolen) s :=
  ⟨_, .cons rfl (.cons rfl (.cons ⟨le_refl 200, rfl⟩ (.cons ⟨200, le_refl 200, rfl, rfl⟩
    (.cons ⟨200, le_refl 200, rfl⟩ (.cons ⟨le_refl 200, rfl⟩ (.cons rfl (.cons rfl
      (.cons ⟨le_refl 200, rfl⟩ (.cons rfl (.cons ⟨rfl, rfl⟩ (.nil _)))))))))))⟩

theorem stranger_run (stolen : Bool) : ∃ s, Runs (strangerRuntime stolen) strangerConfig (· ≤ ·)
    200 [.received (requestWith (envToken stolen)) (strangerCalls stolen)
      (.ok (strangerDecision stolen))] s := by
  obtain ⟨s, he⟩ := stranger_evolves stolen
  exact ⟨s, .receive .start (stranger_path stolen) he⟩

theorem own_bound :
    HolderBound (strangerRuntime false) strangerConfig (requestWith (envToken false)) := by
  obtain ⟨hpre, henv, -, hcred, -, -⟩ := stranger_checks false
  obtain ⟨hext, -⟩ := preparse_parts hpre
  obtain ⟨⟨claims, hclaims, henv⟩, -⟩ := verifyEnvelope_ok (reraise_eq_ok.mp henv)
  obtain ⟨⟨d, hd, hpayload⟩, -⟩ := checkClaims_ok hcred
  intro jws message claims' env token d' payload h₁ h₂ h₃ h₄ h₅ h₆ _ _
  obtain ⟨rfl, -⟩ := Prod.mk.inj (Except.ok.inj (hext.symm.trans h₁))
  obtain rfl : claims = claims' := Except.ok.inj (hclaims.symm.trans h₂)
  obtain rfl : (strangerDecision false).envelope = env := Except.ok.inj (henv.symm.trans h₃)
  have htoken : token = credToken false := List.mem_singleton.mp h₄
  rw [htoken] at h₅
  obtain rfl : d = d' := Except.ok.inj (hd.symm.trans h₅)
  obtain rfl : (strangerCredential false).payload = payload :=
    Except.ok.inj (hpayload.symm.trans h₆)
  rfl

theorem holder_binding_own : ∃ s,
    Runs (strangerRuntime false) strangerConfig (· ≤ ·) 200
      [.received (requestWith (envToken false)) (strangerCalls false)
        (.ok (strangerDecision false))] s ∧
    ∃ c, Weighed (strangerCalls false) (text "a@b.co") c ∧ c.payload.sub = text "a@b.co" := by
  obtain ⟨s, hr⟩ := stranger_run false
  have hbound : ∀ b cs r, Happened.received b cs r ∈ [.received (requestWith (envToken false))
      (strangerCalls false) (.ok (strangerDecision false))] →
      HolderBound (strangerRuntime false) strangerConfig b := by
    intro b cs r hmem
    simp only [List.mem_singleton, Happened.received.injEq] at hmem
    rw [hmem.1]
    exact own_bound
  have hsound := holder_binding hr hbound _ _ _ (List.mem_singleton.mpr rfl)
  obtain ⟨c, hw, -, hsub⟩ := hsound rfl
  exact ⟨s, hr, c, hw, hsub⟩

/-- The sender `a@b.co` passes the policy for strangers with a credential of `v@b.co`. -/
theorem holder_binding_stolen : ∃ s,
    Runs (strangerRuntime true) strangerConfig (· ≤ ·) 200
      [.received (requestWith (envToken true)) (strangerCalls true)
        (.ok (strangerDecision true))] s ∧
    ¬ HolderSound (strangerRuntime true) strangerConfig (strangerCalls true)
      (strangerDecision true) := by
  obtain ⟨s, hr⟩ := stranger_run true
  refine ⟨s, hr, fun hsound => ?_⟩
  obtain ⟨c, ⟨e, hcall⟩ | ⟨creds, hcall, -⟩, -, hsub⟩ := hsound rfl
  · simp only [strangerCalls, strangerResolving, strangerValidating, List.cons_append,
      List.nil_append, List.mem_cons, Sigma.mk.injEq, reduceCtorEq, false_and, false_or,
      List.not_mem_nil, or_false, Op.cache.injEq] at hcall
    obtain ⟨⟨-, rfl, -⟩, -⟩ := hcall
    revert hsub
    decide
  · simp [strangerCalls, strangerResolving, strangerValidating] at hcall

end Shadownet.Receiver
