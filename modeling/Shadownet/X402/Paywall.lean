import Mathlib.Data.Finset.Insert
import Mathlib.Logic.Function.Basic
import Shadownet.Python.Credential
import Shadownet.X402.Payment

/-!
# The paywall

`nonce.py`, `budget.py`, `pop.py`, `gate.py` and `server.py` of `shadownet_x402`. A request is
a program over the operations of the two in-memory stores, the facilitator and the callbacks;
`handle` says what each of them answers and does.
-/

namespace Shadownet.X402

open Foundation Python

/-! ## The stores -/

/-- `InMemoryNonceStore` and `InMemoryBudgetStore`, and the last reading of the clock. -/
structure Stores where
  clock : ℚ
  entries : Text → Option (Option Text × ℚ)
  cap : Int
  spent : Text → Int
  revoked : Finset Text

/-- Fresh stores at the time `t`. -/
def Stores.fresh (t : ℚ) (capMicro : Int) : Stores where
  clock := t
  entries _ := none
  cap := capMicro
  spent _ := 0
  revoked := ∅

def replayError (msg : Text) : Exc := ⟨.paymentReplayError, msg⟩

def budgetError (msg : Text) : Exc := ⟨.budgetError, msg⟩

/-- `issue` at the time `t`, with the nonce it drew. -/
def Stores.issue (s : Stores) (G : Runtime) (t : ℚ) (ttl : Int) (identityKey : Option Text)
    (nonce : Text) : Stores :=
  let entry := (identityKey, G.later t ttl)
  { s with clock := t, entries := Function.update s.entries nonce (some entry) }

/-- `self._entries.pop(nonce, None)`, with the time read after it. -/
def Stores.pop (s : Stores) (t : ℚ) (nonce : Text) : Stores :=
  { s with clock := t, entries := Function.update s.entries nonce none }

/-- What `consume` does with the entry it popped, at the time `t`. -/
def checkEntry (t : ℚ) (entry : Option Text × ℚ) (identityKey : Option Text) : Py Unit :=
  if entry.2 < t then throw (replayError (text "nonce expired"))
  else if entry.1 ≠ none ∧ entry.1 ≠ identityKey then
    throw (replayError (text "nonce bound to a different identity"))
  else pure ()

def Stores.allowed (s : Stores) (identityKey : Text) : Bool := decide (identityKey ∉ s.revoked)

def Stores.reserve (s : Stores) (G : Runtime) (identityKey : Text) (amount : Int) : Py Unit :=
  if ¬ s.allowed identityKey then
    throw (budgetError (text "identity " ++ G.py.reprStr identityKey ++ text " is revoked"))
  else if s.spent identityKey + amount > s.cap then
    throw (budgetError (text "payment would exceed the per-identity budget"))
  else pure ()

def Stores.record (s : Stores) (identityKey : Text) (amount : Int) : Stores :=
  { s with spent := Function.update s.spent identityKey (s.spent identityKey + amount) }

def Stores.revoke (s : Stores) (identityKey : Text) : Stores :=
  { s with revoked := insert identityKey s.revoked }

def Stores.restore (s : Stores) (identityKey : Text) : Stores :=
  { s with revoked := s.revoked.erase identityKey }

/-- What the paywall calls. -/
inductive Op where
  | now
  | timestamp
  | resolveIssuerKey (issuer : Text)
  | checkIssuerAuthorizedForOrg (issuer org : Text)
  | checkRevoked (credential : VerifiedCredential)
  | resolveSubjectKey (sub : Text)
  | issue (ttl : Int) (identityKey : Option Text)
  | consume (nonce : Text) (identityKey : Option Text)
  | allowed (identityKey : Text)
  | reserve (identityKey : Text) (amount : Int)
  | settle (xPayment : Text) (requirements : PaymentRequirements)
  | record (identityKey : Text) (amount : Int)
  deriving DecidableEq

/-- The type of the answers. A key pair is its public bytes. -/
@[reducible] def Ans : Op → Type
  | .now => Int
  | .timestamp => ℚ
  | .resolveIssuerKey _ => Py Text
  | .checkIssuerAuthorizedForOrg _ _ => Py Unit
  | .checkRevoked _ => Py Unit
  | .resolveSubjectKey _ => Py Bytes
  | .issue _ _ => Text
  | .consume _ _ => Py Unit
  | .allowed _ => Bool
  | .reserve _ _ => Py Unit
  | .settle _ _ => Py SettleOutcome
  | .record _ _ => Unit

/-- `handle G tick s o a s'`: called in `s`, the operation `o` may answer `a` and leave `s'`.
The callbacks and the facilitator may answer anything; `tick` relates each reading of the
nonce store's clock to the next. -/
def handle (G : Runtime) (tick : ℚ → ℚ → Prop) (s : Stores) : (o : Op) → Ans o → Stores → Prop
  | .issue ttl identityKey, nonce, s' =>
    ∃ t, tick s.clock t ∧ s' = s.issue G t ttl identityKey nonce
  | .consume nonce identityKey, a, s' =>
      match s.entries nonce with
      | none => a = .error (replayError (text "unknown or already-used nonce")) ∧ s' = s
      | some entry => ∃ t, tick s.clock t ∧ a = checkEntry t entry identityKey ∧
          s' = s.pop t nonce
  | .allowed identityKey, b, s' => b = s.allowed identityKey ∧ s' = s
  | .reserve identityKey amount, a, s' => a = s.reserve G identityKey amount ∧ s' = s
  | .record identityKey amount, _, s' => s' = s.record identityKey amount
  | .now, _, s' => s' = s
  | .timestamp, _, s' => s' = s
  | .resolveIssuerKey _, _, s' => s' = s
  | .checkIssuerAuthorizedForOrg _ _, _, s' => s' = s
  | .checkRevoked _, _, s' => s' = s
  | .resolveSubjectKey _, _, s' => s' = s
  | .settle _ _, _, s' => s' = s

abbrev Px (α : Type) := Fallible Op Ans Exc α

/-- A call of an operation. -/
def ask (o : Op) : Px (Ans o) := Fallible.ask o

/-- A computation without calls. -/
def py {α : Type} (x : Py α) : Px α := Fallible.ofExcept x

/-- A call whose answer may be an exception. -/
def askPy {α : Type} (o : Op) (raised : Ans o → Py α) : Px α := do
  let a ← ask o
  py (raised a)

/-! ## Proof of possession -/

def popTyp : Text := text "shadownet-x402-pop+jwt"

def popError (msg : Text) : Exc := ⟨.popError, msg⟩

def gateError (msg : Text) : Exc := ⟨.gateError, msg⟩

/-- `verify_jwt`, as `verify_pop` calls it, at the time `t`. -/
def verifyJwt (G : Runtime) (token : Text) (key : Bytes) (audience : Text) (leeway : Int)
    (required : List Text) (t : ℚ) : Py Dict :=
  reraise [.pyJwtError] (fun exc => jwtError exc.msg)
    (G.jwtDecode token key audience leeway required t)

/-- The claims `verify_pop` requires. -/
def popClaims : List Text := [text "sub", text "aud", text "nonce", text "iat", text "exp"]

/-- `verify_pop`. -/
def verifyPop (G : Runtime) (token expectedSub expectedAudience expectedNonce : Text)
    (resolveSubjectKey : Text → Px Bytes) (leeway : Int) : Px Unit := do
  let header ← py (reraise [.jwtError]
    (fun exc => popError (text "invalid proof-of-possession header: " ++ exc.msg))
    (decodeHeader G.py token))
  if ¬ isStr (header.get? (text "typ")) popTyp then
    throw (popError (text "typ must be " ++ G.py.reprStr popTyp ++ text ", got " ++
      G.py.reprGet header (text "typ")))
  else do
    let key ← resolveSubjectKey expectedSub
    let t ← ask .timestamp
    let claims ← py (reraise [.jwtError]
      (fun exc => popError (text "proof-of-possession did not verify: " ++ exc.msg))
      (verifyJwt G token key expectedAudience leeway popClaims t))
    if ¬ isStr (claims.get? (text "sub")) expectedSub then
      throw (popError (text "proof-of-possession sub does not match the credential subject"))
    else if ¬ isStr (claims.get? (text "nonce")) expectedNonce then
      throw (popError (text "proof-of-possession nonce does not match the challenge"))
    else pure ()

/-! ## The identity gate -/

/-- `ShadowIdentity`. -/
structure ShadowIdentity where
  sub : Text
  org : Text
  credential : VerifiedCredential
  deriving DecidableEq

/-- `default_resolve_subject_key`. -/
def defaultResolveSubjectKey (G : Runtime) (sub : Text) : Py Bytes :=
  if ¬ isPublicKeyIdentifier sub then
    throw (gateError (text "cannot resolve a signing key for Shadowname " ++ G.py.reprStr sub ++
      text "; inject resolve_subject_key"))
  else
    reraise [.invalidIdentifierError]
      (fun exc =>
        gateError (text "invalid subject key " ++ G.py.reprStr sub ++ text ": " ++ exc.msg))
      (do
        let bytes ← parsePublicKey G.py sub
        fromPublicBytes bytes)

/-- `Paywall`: its settings and trust store, and whether a `resolve_subject_key` was given.
The stores, the facilitator and the other callbacks are operations. -/
structure Paywall where
  settings : Settings
  trustStore : Option TrustStore
  resolvesSubjectKey : Bool

/-- `resolve_subject_key or default_resolve_subject_key`. -/
def Paywall.resolveSubjectKey (G : Runtime) (w : Paywall) (sub : Text) : Px Bytes :=
  if w.resolvesSubjectKey then askPy (.resolveSubjectKey sub) id
  else py (defaultResolveSubjectKey G sub)

/-- `DEFAULT_REQUIRED_KINDS`. -/
def defaultRequiredKinds : List Text := [orgAffiliation]

/-- `verify_credential` with the callbacks of the paywall and the default leeway. -/
def verifyPresented (G : Runtime) (credentialJws : Text) : Px VerifiedCredential := do
  let now ← ask .now
  verifyCredential G.py credentialJws now 60 (fun issuer => askPy (.resolveIssuerKey issuer) id)
    (fun issuer org => askPy (.checkIssuerAuthorizedForOrg issuer org) id)

/-- `run_identity_gate`, as the paywall calls it. -/
def runIdentityGate (G : Runtime) (w : Paywall) (credentialJws popJws resourceUrl nonce : Text) :
    Px ShadowIdentity := do
  let credential ← Fallible.mapOutcome
    (reraise [.credentialError] fun exc =>
      gateError (text "credential rejected: " ++ exc.msg))
    (verifyPresented G credentialJws)
  if ¬ defaultRequiredKinds.contains credential.payload.kind then
    throw (gateError (text "credential kind " ++ G.py.reprStr credential.payload.kind ++
      text " not accepted"))
  else do
    Fallible.mapOutcome (reraise [.statusListError] fun _ => gateError (text "credential revoked"))
      (askPy (.checkRevoked credential) id)
    if ∃ store ∈ w.trustStore, ¬ satisfiesPolicy G.py [credential] store defaultRequiredKinds then
      throw (gateError (text "credential not accepted by trust policy"))
    else do
      verifyPop G popJws credential.payload.sub resourceUrl nonce (w.resolveSubjectKey G) 60
      pure ⟨credential.payload.sub, credential.payload.org, credential⟩

/-! ## The server -/

/-- `PaywallResult`. -/
inductive PaywallResult where
  | challenge (requirements : PaymentRequirements) (nonce : Text)
  | settled (identity : ShadowIdentity) (outcome : SettleOutcome)
  | refused (status : Nat) (reason : Text)
  deriving DecidableEq

/-- `except (cs…) as exc: return f(exc)`. -/
def refusing (cs : List ExcClass) (f : Exc → PaywallResult) (e : Exc) : Py PaywallResult :=
  if cs.any e.cls.isA then .ok (f e) else .error e

/-- `Paywall._challenge`. -/
def challenge (G : Runtime) (w : Paywall) (resourceUrl : Text) (credential : Option Text) :
    Px PaywallResult :=
  match credential with
  | none | some [] => pure (.refused 401 (text "Shadow-Credential header required"))
  | some credential =>
    Fallible.handling
      (refusing [.credentialError] fun exc =>
        .refused 403 (text "credential rejected: " ++ exc.msg))
      (verifyPresented G credential)
      fun verified => do
        let sub := verified.payload.sub
        let allowed ← ask (.allowed sub)
        if ¬ allowed then pure (.refused 403 (text "identity revoked"))
        else
          Fallible.handling
            (refusing [.statusListError] fun _ => .refused 403 (text "credential revoked"))
            (askPy (.checkRevoked verified) id)
            fun _ => do
              let nonce ← ask (.issue w.settings.nonceTtlSeconds (some sub))
              let requirements ← py (buildPaymentRequirements w.settings resourceUrl)
              pure (.challenge requirements nonce)

/-- The end of `Paywall._settle`, from the call of the facilitator on. -/
def finish (identity : ShadowIdentity) (xPayment : Text) (requirements : PaymentRequirements) :
    Px PaywallResult :=
  Fallible.handling (refusing [.settlementError] fun exc => .refused 402 exc.msg)
    (askPy (.settle xPayment requirements) id)
    fun outcome =>
      if ¬ outcome.success then
        pure (.refused 402 (match outcome.errorReason with
          | none | some [] => text "settlement failed"
          | some reason => reason))
      else do
        ask (.record identity.sub requirements.amount)
        pure (.settled identity outcome)

/-- The part of `Paywall._settle` after the nonce is consumed. -/
def collect (G : Runtime) (w : Paywall) (resourceUrl xPayment : Text) (identity : ShadowIdentity) :
    Px PaywallResult := do
  let requirements ← py (buildPaymentRequirements w.settings resourceUrl)
  Fallible.handling (refusing [.amountMismatchError] fun exc => .refused 402 exc.msg)
    (py (do
      let terms ← parseXPayment G xPayment
      enforceAgreedEqualsPaid terms requirements))
    fun _ =>
      Fallible.handling (refusing [.budgetError] fun exc => .refused 402 exc.msg)
        (askPy (.reserve identity.sub requirements.amount) id)
        fun _ => finish identity xPayment requirements

/-- `str(decode_unverified_claims(pop).get("nonce", ""))`. -/
def popNonce (G : Runtime) (pop : Text) : Py Text := do
  let claims ← decodeUnverifiedClaims G.py pop
  pure (pyStr G ((claims.get? (text "nonce")).getD (.str [])))

/-- `Paywall._settle`. -/
def settle (G : Runtime) (w : Paywall) (resourceUrl : Text) (credential pop : Option Text)
    (xPayment : Text) : Px PaywallResult :=
  match credential, pop with
  | some (c :: credential), some (p :: pop) =>
    Fallible.handling
      (refusing [.jwtError] fun _ => .refused 400 (text "malformed proof-of-possession"))
      (py (popNonce G (p :: pop)))
      fun nonce =>
        Fallible.handling
          (refusing [.gateError] fun exc =>
            .refused 403 (text "identity refused: " ++ exc.msg))
          (runIdentityGate G w (c :: credential) (p :: pop) resourceUrl nonce)
          fun identity =>
            Fallible.handling
              (refusing [.paymentReplayError] fun _ =>
                .refused 409 (text "payment nonce reused or expired"))
              (askPy (.consume nonce (some identity.sub)) id)
              fun _ => collect G w resourceUrl xPayment identity
  | _, _ => pure (.refused 401 (text "Shadow-Credential and Shadow-PoP headers required"))

/-- One call of `Paywall.process`. -/
structure Request where
  paywall : Paywall
  resourceUrl : Text
  credential : Option Text
  pop : Option Text
  xPayment : Option Text

/-- `Paywall.process`. -/
def process (G : Runtime) (q : Request) : Px PaywallResult :=
  match q.xPayment with
  | none => challenge G q.paywall q.resourceUrl q.credential
  | some xPayment => settle G q.paywall q.resourceUrl q.credential q.pop xPayment

end Shadownet.X402
