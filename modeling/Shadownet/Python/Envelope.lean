import Shadownet.Python.Identifiers
import Shadownet.Python.Jcs

/-!
# Envelopes

`shadownet/envelope.py`: the payload of an envelope, the hash that binds it to the message
around it, minting and verification.
-/

namespace Shadownet.Python

open Foundation

def envelopeTyp : Text := text "shadownet-env+jwt"

def envelopeExtensionUri : Text := text "urn:shadownet:0.2"

def envelopeError (msg : Text) : Exc := ⟨.envelopeError, msg⟩

/-- `v == s` for a JSON value and a `str`. -/
def isStr (v : Option Value) (s : Text) : Bool :=
  match v with
  | some (.str t) => t == s
  | _ => false

theorem isStr_iff {v : Option Value} {s : Text} : isStr v s = true ↔ v = some (.str s) := by
  rcases v with - | v
  · simp [isStr]
  · cases v <;> simp [isStr]

/-! ## The payload -/

/-- `EnvelopeBody`. -/
structure EnvelopeBody where
  text : Option Text
  intent : Option Text
  data : Option Dict
  extra : Dict
  deriving DecidableEq

/-- The keys under which an envelope's fields travel. -/
def envelopeKeys : List Text :=
  [text "v", text "from", text "to", text "iat", text "exp", text "msgHash", text "body",
    text "creds"]

/-- `EnvelopePayload`. A key that belongs to a field is never kept as an extra. -/
structure EnvelopePayload where
  v : Text
  sender : Text
  recipient : Text
  iat : Int
  exp : Int
  msgHash : Text
  body : EnvelopeBody
  creds : List Text
  extra : Dict
  extra_fresh : ∀ k ∈ envelopeKeys, extra.get? k = none
  deriving DecidableEq

/-- A field by its alias, else by its name, with the key it was found under. -/
def aliased (d : Dict) (key name : Text) : Option (Text × Value) :=
  match d.get? key with
  | some v => some (key, v)
  | none => (d.get? name).map (name, ·)

/-- A `str` field: pydantic keeps a `str` as it is, lone surrogates included. -/
def strField : Option Value → Option Text
  | some (.str s) => some s
  | _ => none

/-- A `str` field with a pattern or a length, which pydantic checks on the UTF-8 of the text. -/
def constrainedStrField (check : Text → Bool) (v : Option Value) : Option Text :=
  (strField v).filter fun s => !hasSurrogate s && check s

/-- An `int` field that must not be negative. -/
def natField (G : Runtime) (v : Option Value) : Option Int :=
  (v.bind G.laxInt).filter (0 ≤ ·)

/-- A `str | None` field with default `None`. -/
def optStrField : Option Value → Option (Option Text)
  | none => some none
  | some .null => some none
  | v => (strField v).map some

/-- A field of type `Identifier`: `none` is an error pydantic collects, while the exception
of the validator itself is no `ValueError` and leaves the validation at once. -/
def identifierField (G : Runtime) (canonicalize : Runtime → Text → Py Text)
    (v : Option Value) : Py (Option Text) :=
  match strField v with
  | none => pure none
  | some s => (canonicalize G s).map some

/-- `^sha256:[A-Za-z0-9_-]+$`. -/
def msgHashPattern (s : Text) : Bool :=
  (text "sha256:").isPrefixOf s && s.drop 7 ≠ [] &&
    (s.drop 7).all fun c => isAlnum c || c == 95 || c == 45

/-- `tuple[str, ...]`, empty by default. -/
def credsField : Option Value → Option (List Text)
  | none => some []
  | some (.arr items) => items.mapM fun v => strField (some v)
  | some _ => none

def EnvelopeBody.modelValidate (d : Dict) : Option EnvelopeBody := do
  let keys := [Foundation.text "text", Foundation.text "intent", Foundation.text "data"]
  let text ← optStrField (d.get? (Foundation.text "text"))
  let intent ← optStrField (d.get? (Foundation.text "intent"))
  let data ← match d.get? (Foundation.text "data") with
    | none => some none
    | some .null => some none
    | some _ => (d.sub? (Foundation.text "data")).map some
  pure ⟨text, intent, data, d.filter fun m => !keys.contains m.1⟩

/-- The extras of an envelope: what no field was read from. -/
def envelopeExtra (d : Dict) (used : List Text) : Dict :=
  d.filter fun m => !(envelopeKeys.contains m.1 || used.contains m.1)

theorem envelopeExtra_fresh (d : Dict) (used : List Text) :
    ∀ k ∈ envelopeKeys, (envelopeExtra d used).get? k = none := by
  intro k hk
  rw [Dict.get?, List.lookup_eq_none_iff]
  intro m hm
  have hp := List.of_mem_filter hm
  have hne : k ≠ m.1 := by
    rintro rfl
    simp [hk] at hp
  simp [hne]

/-- `EnvelopePayload.model_validate`. -/
def EnvelopePayload.modelValidate (G : Runtime) (d : Dict) : Py EnvelopePayload := do
  let senderItem := aliased d (text "from") (text "sender")
  let recipientItem := aliased d (text "to") (text "recipient")
  let hashItem := aliased d (text "msgHash") (text "msg_hash")
  let used := [senderItem, recipientItem, hashItem].filterMap (Option.map Prod.fst)
  let sender ← identifierField G canonicalizeIdentifier (senderItem.map Prod.snd)
  let recipient ← identifierField G canonicalizeIdentifier (recipientItem.map Prod.snd)
  let fields : Option EnvelopePayload := do
    let v ← constrainedStrField (· == text "0.2") (d.get? (text "v"))
    let sender ← sender
    let recipient ← recipient
    let iat ← natField G (d.get? (text "iat"))
    let exp ← natField G (d.get? (text "exp"))
    let msgHash ← constrainedStrField msgHashPattern (hashItem.map Prod.snd)
    let body ← (d.sub? (text "body")).bind EnvelopeBody.modelValidate
    let creds ← credsField (d.get? (text "creds"))
    pure ⟨v, sender, recipient, iat, exp, msgHash, body, creds, envelopeExtra d used,
      envelopeExtra_fresh d used⟩
  match fields with
  | some payload => pure payload
  | none => throw ⟨.validationError, G.validationText (text "EnvelopePayload") d⟩

/-! ## The message hash -/

/-- The fields `compute_msg_hash` copies as they are. -/
def hashedKeys : List Text :=
  [text "messageId", text "role", text "parts", text "contextId", text "taskId"]

/-- The members of `metadata` that are hashed. -/
def withoutEnvelope (metadata : List (Text × Value)) : List (Text × Value) :=
  metadata.filter fun m => m.1 != envelopeExtensionUri

/-- `canonical_input` of `compute_msg_hash`. -/
def canonicalInput (message : Dict) : Py (List (Text × Value)) :=
  let fields := hashedKeys.filterMap fun k => (message.get? k).map (k, ·)
  match message.get? (text "metadata") with
  | none => pure fields
  | some (.obj metadata) =>
    pure (fields ++ [(text "metadata", .obj (withoutEnvelope metadata))])
  | some v =>
    throw ⟨.other, text "'" ++ typeName v ++ text "' object has no attribute 'items'"⟩

def computeMsgHash (G : Runtime) (message : Dict) : Py Text := do
  let input ← canonicalInput message
  let b ← canonicalize (.obj input)
  pure (text "sha256:" ++ base64Url (G.sha256 b))

/-! ## Minting -/

/-- Members whose value is `None` are left out. -/
def excludeNone (members : List (Text × Value)) : List (Text × Value) :=
  members.filter fun m => match m.2 with
    | .null => false
    | _ => true

/-- `body.model_dump(by_alias=True, exclude_none=True)`. -/
def EnvelopeBody.modelDump (b : EnvelopeBody) : List (Text × Value) :=
  excludeNone ([(Foundation.text "text", b.text.elim .null .str),
    (Foundation.text "intent", b.intent.elim .null .str),
    (Foundation.text "data", b.data.elim .null fun d => .obj d.members)] ++ b.extra.members)

/-- `payload.model_dump(by_alias=True, exclude_none=True)`, without `creds` when empty. -/
def EnvelopePayload.claims (p : EnvelopePayload) : List (Text × Value) :=
  excludeNone ([(text "v", .str p.v), (text "from", .str p.sender), (text "to", .str p.recipient),
    (text "iat", .num (.int p.iat)), (text "exp", .num (.int p.exp)),
    (text "msgHash", .str p.msgHash), (text "body", .obj p.body.modelDump)] ++
    (if p.creds = [] then [] else [(text "creds", .arr (p.creds.map .str))]) ++
    p.extra.members)

def mintEnvelope (G : Runtime) (payload : EnvelopePayload) (subjectKey : KeyPair) : Py Text :=
  if payload.exp - payload.iat > 300 then
    throw (envelopeError (text "envelope lifetime exceeds 300 seconds (exp - iat = " ++
      decimal (payload.exp - payload.iat) ++ text "s)"))
  else if payload.exp ≤ payload.iat then
    throw (envelopeError (text "envelope exp must be greater than iat"))
  else
    signJwt G payload.claims subjectKey
      [(text "typ", .str envelopeTyp), (text "kid", .str payload.sender)]

/-! ## Verification -/

/-- `verify_envelope`, at the instant `current`. -/
def verifyEnvelope (G : Runtime) (token : Text) (senderKey : Bytes) (expectedRecipient : Text)
    (current leeway : Int) : Py EnvelopePayload := do
  let header ← reraise [.jwtError]
    (fun exc => envelopeError (text "invalid JWS header: " ++ exc.msg)) (decodeHeader G token)
  if ¬ isStr (header.get? (text "typ")) envelopeTyp then
    throw (envelopeError (text "typ must be " ++ G.reprStr envelopeTyp ++ text ", got " ++
      G.reprGet header (text "typ")))
  else if ¬ isStr (header.get? (text "alg")) (text "EdDSA") then
    throw (envelopeError (text "alg must be EdDSA, got " ++ G.reprGet header (text "alg")))
  else do
    let unverified ← reraise [.jwtError]
      (fun exc => envelopeError (text "unable to decode envelope claims: " ++ exc.msg))
      (decodeUnverifiedClaims G token)
    let payload ← reraise [.validationError]
      (fun exc => envelopeError (text "envelope payload invalid: " ++ exc.msg))
      (EnvelopePayload.modelValidate G unverified)
    if ¬ isStr (header.get? (text "kid")) payload.sender then
      throw (envelopeError (text "kid must equal from (" ++ G.reprStr payload.sender ++
        text "), got " ++ G.reprGet header (text "kid")))
    else if payload.recipient ≠ expectedRecipient then
      throw (envelopeError (text "envelope to=" ++ G.reprStr payload.recipient ++
        text " does not match this URL (" ++ G.reprStr expectedRecipient ++ text ")"))
    else if payload.exp - payload.iat > 300 then
      throw (envelopeError (text "envelope lifetime exceeds 300 seconds"))
    else if payload.exp < current - leeway then throw (envelopeError (text "envelope expired"))
    else if payload.iat > current + leeway then
      throw (envelopeError (text "envelope iat in the future"))
    else do
      reraise [.jwtError, .cryptoSignatureError]
        (fun exc => envelopeError (text "signature verification failed: " ++ exc.msg))
        (verifyJwsSignature G token senderKey)
      pure payload

/-- What an envelope that verifies has passed. -/
theorem verifyEnvelope_ok {G : Runtime} {token : Text} {senderKey : Bytes}
    {expectedRecipient : Text} {current leeway : Int} {p : EnvelopePayload}
    (h : verifyEnvelope G token senderKey expectedRecipient current leeway = .ok p) :
    (∃ d, decodeUnverifiedClaims G token = .ok d ∧ EnvelopePayload.modelValidate G d = .ok p) ∧
      p.exp - p.iat ≤ 300 ∧ current - leeway ≤ p.exp ∧ p.iat ≤ current + leeway ∧
      verifyJwsSignature G token senderKey = .ok () := by
  simp only [verifyEnvelope, bind_eq_ok, reraise_eq_ok, guard_eq_ok, pure_eq_ok] at h
  obtain ⟨header, -, -, -, d, hd, q, hq, -, -, hlife, hexp, hiat, u, hsig, rfl⟩ := h
  exact ⟨⟨d, hd, hq⟩, by omega, by omega, by omega, hsig⟩

/-- The sender of a payload is the canonical form of its `from`. -/
theorem modelValidate_sender {G : Runtime} {d : Dict} {p : EnvelopePayload} {raw : Text}
    (h : EnvelopePayload.modelValidate G d = .ok p)
    (hraw : d.get? (text "from") = some (.str raw)) :
    canonicalizeIdentifier G raw = .ok p.sender := by
  have hitem : aliased d (text "from") (text "sender") = some (text "from", .str raw) := by
    simp [aliased, hraw]
  simp only [EnvelopePayload.modelValidate, bind_eq_ok, hitem, Option.map_some] at h
  obtain ⟨sender, hsender, recipient, -, h⟩ := h
  split at h
  · next q hq =>
    rw [pure_eq_ok] at h
    subst h
    simp only [Option.bind_eq_bind, Option.bind_eq_some_iff, Option.pure_def,
      Option.some.injEq] at hq
    obtain ⟨v, -, s, rfl, r, -, iat, -, exp, -, hash, -, body, -, creds, -, rfl⟩ := hq
    obtain ⟨c, hc, hcs⟩ := map_eq_ok.mp hsender
    cases hcs
    exact hc
  · cases h

end Shadownet.Python
