import Shadownet.Python.Binding
import Shadownet.Python.Csr

/-!
# Lifetimes in the Python SDK

The three kinds of token share four inequalities. The upper bound on the lifetime and the two
clock checks stand in every verifier; that a token expires after it was issued is left to the
minter, and `mint_credential` leaves it out as well.

* `lifetime_iff`: what is accepted has a proper lifetime exactly when it expires after it was
  issued.
-/

namespace Shadownet.Python

open Foundation

/-- A lifetime of at most `maxSeconds`, and not empty. -/
def LifetimeWithin (maxSeconds iat exp : Int) : Prop := 0 < exp - iat ∧ exp - iat ≤ maxSeconds

/-- The clock is within the leeway of the lifetime. -/
def ClockWithin (leeway now iat exp : Int) : Prop := iat - leeway ≤ now ∧ now ≤ exp + leeway

theorem lifetimeWithin_iff {maxSeconds iat exp : Int} (h : exp - iat ≤ maxSeconds) :
    LifetimeWithin maxSeconds iat exp ↔ iat < exp := by
  constructor
  · rintro ⟨hpos, -⟩
    omega
  · intro hlt
    exact ⟨by omega, h⟩

theorem clockWithin_of_checks {leeway now iat exp : Int} (hlate : now - leeway ≤ exp)
    (hearly : iat ≤ now + leeway) : ClockWithin leeway now iat exp :=
  ⟨by omega, by omega⟩

section
variable {G : Runtime} {token : Text} {current leeway : Int}

theorem verifyCsr_ok {subjectKey : Bytes} {aud : Text} {p : CsrPayload}
    (h : verifyCsr G token subjectKey aud current leeway = .ok p) :
    (∃ d, decodeUnverifiedClaims G token = .ok d ∧ CsrPayload.modelValidate G d = .ok p) ∧
      p.exp - p.iat ≤ 600 ∧ current - leeway ≤ p.exp ∧ p.iat ≤ current + leeway := by
  simp only [verifyCsr, bind_eq_ok, reraise_eq_ok, guard_eq_ok, pure_eq_ok] at h
  obtain ⟨header, -, -, -, d, hd, q, hq, -, hlife, hexp, hiat, u, -, rfl⟩ := h
  exact ⟨⟨d, hd, hq⟩, by omega, by omega, by omega⟩

theorem verifyCredential_claims {O : Type} {A : O → Type} {calls : Calls O A}
    {resolve : Text → Fallible O A Exc Text} {authorize : Text → Text → Fallible O A Exc Unit}
    {c : VerifiedCredential}
    (h : Fallible.Path (verifyCredential G token current leeway resolve authorize) calls (.ok c)) :
    checkClaims G token current leeway = .ok c.payload := by
  simp only [verifyCredential, Fallible.path_bind_ok, Fallible.path_ofExcept,
    Fallible.path_pure] at h
  obtain ⟨_, _, p, -, ⟨-, hp⟩, _, _, _, -, -, _, _, _, -, -, _, _, _, -, -, -, hc⟩ := h
  cases hc
  exact hp.symm

theorem mintEnvelope_lifetime {p : EnvelopePayload} {key : KeyPair}
    (h : mintEnvelope G p key = .ok token) : LifetimeWithin 300 p.iat p.exp := by
  simp only [mintEnvelope, guard_eq_ok] at h
  exact ⟨by omega, by omega⟩

theorem mintCsr_lifetime {p : CsrPayload} {key : KeyPair} (h : mintCsr G p key = .ok token) :
    LifetimeWithin 600 p.iat p.exp := by
  simp only [mintCsr, guard_eq_ok] at h
  exact ⟨by omega, by omega⟩

theorem mintCredential_lifetime {p : CredentialPayload} {key : KeyPair}
    (h : mintCredential G p key = .ok token) : p.exp - p.iat ≤ 2592000 := by
  simp only [mintCredential, guard_eq_ok] at h
  omega

end

/-- For every token, key, clock and leeway: what a verifier accepts is within the upper bound and
within the leeway of the clock, and its lifetime is proper exactly when the token's claims expire
after they were issued. Of the minters two sign proper lifetimes only; `mint_credential` signs one
exactly under the same condition. -/
theorem lifetime_iff (G : Runtime) (token : Text) (current leeway : Int) :
    (∀ senderKey recipient d q p, decodeUnverifiedClaims G token = .ok d →
      EnvelopePayload.modelValidate G d = .ok q →
      verifyEnvelope G token senderKey recipient current leeway = .ok p →
      p = q ∧ p.exp - p.iat ≤ 300 ∧ ClockWithin leeway current p.iat p.exp ∧
        (LifetimeWithin 300 p.iat p.exp ↔ q.iat < q.exp)) ∧
    (∀ subjectKey aud d q p, decodeUnverifiedClaims G token = .ok d →
      CsrPayload.modelValidate G d = .ok q →
      verifyCsr G token subjectKey aud current leeway = .ok p →
      p = q ∧ p.exp - p.iat ≤ 600 ∧ ClockWithin leeway current p.iat p.exp ∧
        (LifetimeWithin 600 p.iat p.exp ↔ q.iat < q.exp)) ∧
    (∀ (O : Type) (A : O → Type) (resolve : Text → Fallible O A Exc Text)
      (authorize : Text → Text → Fallible O A Exc Unit) calls d q c,
      decodeUnverifiedClaims G token = .ok d → CredentialPayload.modelValidate G d = .ok q →
      Fallible.Path (verifyCredential G token current leeway resolve authorize) calls (.ok c) →
      c.payload = q ∧ q.exp - q.iat ≤ 2592000 ∧ ClockWithin leeway current q.iat q.exp ∧
        (LifetimeWithin 2592000 c.payload.iat c.payload.exp ↔ q.iat < q.exp)) ∧
    (∀ p key, mintEnvelope G p key = .ok token → LifetimeWithin 300 p.iat p.exp) ∧
    (∀ p key, mintCsr G p key = .ok token → LifetimeWithin 600 p.iat p.exp) ∧
    (∀ p key, mintCredential G p key = .ok token →
      p.exp - p.iat ≤ 2592000 ∧ (LifetimeWithin 2592000 p.iat p.exp ↔ p.iat < p.exp)) := by
  refine ⟨?_, ?_, ?_, fun p key => mintEnvelope_lifetime, fun p key => mintCsr_lifetime, ?_⟩
  · intro senderKey recipient d q p hd hq hok
    obtain ⟨⟨d', hd', hp⟩, hlife, hlate, hearly, -⟩ := verifyEnvelope_ok hok
    obtain rfl := Except.ok.inj (hd.symm.trans hd')
    obtain rfl := Except.ok.inj (hq.symm.trans hp)
    exact ⟨rfl, hlife, clockWithin_of_checks hlate hearly, lifetimeWithin_iff hlife⟩
  · intro subjectKey aud d q p hd hq hok
    obtain ⟨⟨d', hd', hp⟩, hlife, hlate, hearly⟩ := verifyCsr_ok hok
    obtain rfl := Except.ok.inj (hd.symm.trans hd')
    obtain rfl := Except.ok.inj (hq.symm.trans hp)
    exact ⟨rfl, hlife, clockWithin_of_checks hlate hearly, lifetimeWithin_iff hlife⟩
  · intro O A resolve authorize calls d q c hd hq hok
    obtain ⟨⟨d', hd', hp⟩, -, hlife, hlate, hearly⟩ := checkClaims_ok (verifyCredential_claims hok)
    obtain rfl := Except.ok.inj (hd.symm.trans hd')
    obtain rfl := Except.ok.inj (hq.symm.trans hp)
    exact ⟨rfl, hlife, clockWithin_of_checks hlate hearly, lifetimeWithin_iff hlife⟩
  · intro p key hok
    have hlife := mintCredential_lifetime hok
    exact ⟨hlife, lifetimeWithin_iff hlife⟩

/-! ## Four tokens -/

/-- A token with what it decodes to and the key pair that signed it. -/
structure KnownToken where
  token : Text
  header : Dict
  claims : Dict
  key : Bytes
  seed : Bytes

/-- PyJWT and Ed25519 on tokens that end in a signature of 64 bytes. -/
def tokenRuntime (known : List KnownToken) : Runtime := { bareRuntime with
  getUnverifiedHeader := fun token =>
    match known.find? (·.token == token) with
    | some k => .ok k.header
    | none => .error ⟨.pyJwtError, []⟩
  decodeUnverified := fun token =>
    match known.find? (·.token == token) with
    | some k => .ok k.claims
    | none => .error ⟨.pyJwtError, []⟩
  jwtEncode := fun claims seed _ =>
    match known.find? fun k => k.claims.members == claims && k.seed == seed with
    | some k => .ok k.token
    | none => .error ⟨.pyJwtError, []⟩
  ed25519Verify := fun key sig msg => known.any fun k =>
    k.key == key && utf8 (k.token.take (k.token.length - 87)) == msg &&
      (urlsafeB64decode (k.token.drop (k.token.length - 86) ++ text "==")).toOption == some sig }

def subjectBytes : Bytes :=
  [138, 136, 227, 221, 116, 9, 241, 149, 253, 82, 219, 45, 60, 186, 93, 114, 202, 103, 9, 191, 29,
    148, 18, 27, 243, 116, 136, 1, 180, 15, 111, 92]

def issuerBytes : Bytes :=
  [237, 73, 40, 198, 40, 209, 194, 198, 234, 233, 3, 56, 144, 89, 149, 97, 41, 89, 39, 58, 92, 99,
    249, 54, 54, 193, 70, 20, 172, 135, 55, 209]

def headerOf (typ : Text) : Dict :=
  (Dict.empty.set (text "alg") (.str (text "EdDSA")) (Json.distinct_str _)).set (text "typ")
    (.str typ) (Json.distinct_str _)

def knownEnvelope : KnownToken where
  token := helloToken
  header := ((Dict.empty.set (text "alg") (.str (text "EdDSA")) trivial).set (text "kid")
    (.str (text "a@b.co")) trivial).set (text "typ") (.str envelopeTyp) trivial
  claims := helloClaims
  key := subjectBytes
  seed := helloSeed

/-- A request for a credential, valid for five minutes. -/
def requestPayload : CsrPayload where
  iss := text "z6Mkon3Necd6NkkyfoGoHxid2znGc59LU3K7mubaRcFbLfLX"
  aud := text "a.co"
  iat := 100
  exp := 400
  req := ⟨orgAffiliation, text "a.co"⟩
  extra := []

def knownRequest : KnownToken where
  token :=
    text "eyJhbGciOiJFZERTQSIsInR5cCI6InNoYWRvd25ldC1jc3Irand0In0.eyJpc3MiOiJ6Nk1rb24zTmVj" ++
      text "ZDZOa2t5Zm9Hb0h4aWQyem5HYzU5TFUzSzdtdWJhUmNGYkxmTFgiLCJhdWQiOiJhLmNvIiwiaWF0Ijox" ++
      text "MDAsImV4cCI6NDAwLCJyZXEiOnsia2luZCI6Im9yZ19hZmZpbGlhdGlvbiIsIm9yZyI6ImEuY28ifX0." ++
      text "Jj6TbajrJRudcw82_2EOLdkohr9cvaPnIcFf10DpZURY3p7HLcGqXiiZGQkyn2B3PXD_czXPZ47s3JP8" ++
      text "-J1qBw"
  header := headerOf csrTyp
  claims :=
    { members := requestPayload.modelDump
      distinct := by
        refine Json.distinct_obj.mpr ⟨by decide, ?_⟩
        intro m hm
        simp only [requestPayload, CsrPayload.modelDump, List.append_nil, List.mem_cons,
          List.not_mem_nil, or_false] at hm
        rcases hm with rfl | rfl | rfl | rfl | rfl
        all_goals trivial }
  key := subjectBytes
  seed := helloSeed

/-- A credential with its times. -/
def timedPayload (iat exp : Int) : CredentialPayload where
  iss := text "b.co"
  sub := text "a@b.co"
  kind := orgAffiliation
  org := text "b.co"
  iat := iat
  exp := exp
  rev := ⟨text "1", 0⟩
  extra := []

theorem timedPayload_distinct (iat exp : Int) :
    (Json.obj (timedPayload iat exp).modelDump).Distinct := by
  have hkeys : ((timedPayload iat exp).modelDump.map Prod.fst).Nodup := by
    show ([text "iss", text "sub", text "kind", text "org", text "iat", text "exp",
      text "rev"] : List Text).Nodup
    decide
  refine Json.distinct_obj.mpr ⟨hkeys, ?_⟩
  intro m hm
  simp only [timedPayload, CredentialPayload.modelDump, List.append_nil, List.mem_cons,
    List.not_mem_nil, or_false] at hm
  rcases hm with rfl | rfl | rfl | rfl | rfl | rfl | rfl
  all_goals trivial

/-- The credential under a token. -/
def knownCredential (iat exp : Int) (token : Text) : KnownToken where
  token := token
  header := headerOf credentialTyp
  claims := ⟨(timedPayload iat exp).modelDump, timedPayload_distinct iat exp⟩
  key := issuerBytes
  seed := List.replicate 32 3

/-- A credential issued at 100 that expires at 400. -/
def properCredential : KnownToken :=
  knownCredential 100 400
    (text "eyJhbGciOiJFZERTQSIsInR5cCI6InNoYWRvd25ldC1jcmVkK2p3dCJ9.eyJpc3MiOiJiLmNvIiwic3V" ++
      text "iIjoiYUBiLmNvIiwia2luZCI6Im9yZ19hZmZpbGlhdGlvbiIsIm9yZyI6ImIuY28iLCJpYXQiOjEwMCw" ++
      text "iZXhwIjo0MDAsInJldiI6eyJlcG9jaCI6IjEiLCJpZHgiOjB9fQ.mi87MB4NOA6CPXuGbNDJ3M4e22h5" ++
      text "czjhpFteFeXzVlVAKv8Tw8P8yeeXJmsZbBsk_eDScH88OE-LWQTpyeYwCA")

/-- A credential issued at 200 that expires at 150. -/
def reversedCredential : KnownToken :=
  knownCredential 200 150
    (text "eyJhbGciOiJFZERTQSIsInR5cCI6InNoYWRvd25ldC1jcmVkK2p3dCJ9.eyJpc3MiOiJiLmNvIiwic3V" ++
      text "iIjoiYUBiLmNvIiwia2luZCI6Im9yZ19hZmZpbGlhdGlvbiIsIm9yZyI6ImIuY28iLCJpYXQiOjIwMCw" ++
      text "iZXhwIjoxNTAsInJldiI6eyJlcG9jaCI6IjEiLCJpZHgiOjB9fQ.xXBBmLmYwgnl9oKGt4xzLddw2PWh" ++
      text "G2djov9U2gh-HC-7yNal7HYNcdxF26xQDakDKz40_5OAXKw-Yyxs88JBCQ")

def timedRuntime : Runtime :=
  tokenRuntime [knownEnvelope, knownRequest, properCredential, reversedCredential]

def issuerText : Text := text "z6MkvRXNYcE7MMduynWTgeKbDaT1iijDSC8pZqXZc8rHPrf2"

/-- A credential passes when its claims and its signature do, with a resolver that knows the
issuer's key. -/
theorem verifyCredential_timed {iat exp current leeway : Int} {token : Text}
    (hclaims : checkClaims timedRuntime token current leeway = .ok (timedPayload iat exp))
    (hsig : checkIssuerSignature timedRuntime token issuerText = .ok ()) :
    Fallible.Path (verifyCredential timedRuntime token current leeway
      (fun _ => (pure issuerText : Fallible Empty (fun _ => Empty) Exc Text))
      (fun _ _ => pure ())) [] (.ok ⟨timedPayload iat exp, issuerText, token⟩) := by
  refine Fallible.path_bind_ok.mpr ⟨[], [], _, rfl,
    Fallible.path_ofExcept.mpr ⟨rfl, hclaims.symm⟩, ?_⟩
  refine Fallible.path_bind_ok.mpr ⟨[], [], _, rfl, Fallible.path_pure.mpr ⟨rfl, rfl⟩, ?_⟩
  refine Fallible.path_bind_ok.mpr ⟨[], [], (), rfl,
    Fallible.path_ofExcept.mpr ⟨rfl, hsig.symm⟩, ?_⟩
  exact Fallible.path_bind_ok.mpr ⟨[], [], (), rfl, Fallible.path_pure.mpr ⟨rfl, rfl⟩,
    Fallible.path_pure.mpr ⟨rfl, rfl⟩⟩

/-- A credential that expires 50 seconds before it was issued is minted, and accepted in the
leeway. -/
theorem lifetime_reversed :
    mintCredential timedRuntime (timedPayload 200 150) ⟨issuerBytes, some (List.replicate 32 3)⟩ =
      .ok reversedCredential.token ∧
    Fallible.Path (verifyCredential timedRuntime reversedCredential.token 180 60
      (fun _ => (pure issuerText : Fallible Empty (fun _ => Empty) Exc Text))
      (fun _ _ => pure ())) []
      (.ok ⟨timedPayload 200 150, issuerText, reversedCredential.token⟩) ∧
    ¬ LifetimeWithin 2592000 (timedPayload 200 150).iat (timedPayload 200 150).exp := by
  refine ⟨by decide +kernel, verifyCredential_timed (by decide +kernel) (by decide +kernel), ?_⟩
  rintro ⟨hpos, -⟩
  exact absurd hpos (by decide)

/-- The bounds at an envelope, a request and a credential of five minutes each, minted and
accepted. -/
theorem lifetime_proper :
    (mintEnvelope timedRuntime { helloTemplate with msgHash := helloHash }
        ⟨subjectBytes, some helloSeed⟩ = .ok helloToken ∧
      LifetimeWithin 300 100 400 ∧ ClockWithin 60 200 100 400) ∧
    (mintCsr timedRuntime requestPayload ⟨subjectBytes, some helloSeed⟩ =
        .ok knownRequest.token ∧ LifetimeWithin 600 100 400 ∧ ClockWithin 60 200 100 400) ∧
    (mintCredential timedRuntime (timedPayload 100 400)
        ⟨issuerBytes, some (List.replicate 32 3)⟩ = .ok properCredential.token ∧
      LifetimeWithin 2592000 100 400 ∧ ClockWithin 60 200 100 400) := by
  have henv : decodeUnverifiedClaims timedRuntime helloToken = .ok helloClaims ∧
      EnvelopePayload.modelValidate timedRuntime helloClaims =
        .ok { helloTemplate with msgHash := helloHash } ∧
      verifyEnvelope timedRuntime helloToken subjectBytes (text "c@b.co") 200 60 =
        .ok { helloTemplate with msgHash := helloHash } ∧
      mintEnvelope timedRuntime { helloTemplate with msgHash := helloHash }
        ⟨subjectBytes, some helloSeed⟩ = .ok helloToken := by
    decide +kernel
  have hreq : decodeUnverifiedClaims timedRuntime knownRequest.token = .ok knownRequest.claims ∧
      CsrPayload.modelValidate timedRuntime knownRequest.claims = .ok requestPayload ∧
      verifyCsr timedRuntime knownRequest.token subjectBytes (text "a.co") 200 60 =
        .ok requestPayload ∧
      mintCsr timedRuntime requestPayload ⟨subjectBytes, some helloSeed⟩ =
        .ok knownRequest.token := by
    decide +kernel
  have hcred : decodeUnverifiedClaims timedRuntime properCredential.token =
        .ok properCredential.claims ∧
      CredentialPayload.modelValidate timedRuntime properCredential.claims =
        .ok (timedPayload 100 400) ∧
      checkClaims timedRuntime properCredential.token 200 60 = .ok (timedPayload 100 400) ∧
      checkIssuerSignature timedRuntime properCredential.token issuerText = .ok () ∧
      mintCredential timedRuntime (timedPayload 100 400)
        ⟨issuerBytes, some (List.replicate 32 3)⟩ = .ok properCredential.token := by
    decide +kernel
  obtain ⟨hd, hq, hok, hmint⟩ := henv
  obtain ⟨hd', hq', hok', hmint'⟩ := hreq
  obtain ⟨hd'', hq'', hclaims, hsig, hmint''⟩ := hcred
  obtain ⟨hverify, -, -, hminted, -, -⟩ := lifetime_iff timedRuntime helloToken 200 60
  obtain ⟨-, hverify', -, -, hminted', -⟩ := lifetime_iff timedRuntime knownRequest.token 200 60
  obtain ⟨-, -, hverify'', -, -, -⟩ :=
    lifetime_iff timedRuntime properCredential.token 200 60
  obtain ⟨-, -, hclock, -⟩ := hverify _ _ _ _ _ hd hq hok
  obtain ⟨-, -, hclock', -⟩ := hverify' _ _ _ _ _ hd' hq' hok'
  obtain ⟨-, -, hclock'', hproper⟩ := hverify'' _ _ _ _ _ _ _ _ hd'' hq''
    (verifyCredential_timed hclaims hsig)
  exact ⟨⟨hmint, hminted _ _ hmint, hclock⟩, ⟨hmint', hminted' _ _ hmint', hclock'⟩,
    hmint'', hproper.mpr (by decide), hclock''⟩

end Shadownet.Python
