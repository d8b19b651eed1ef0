import Shadownet.Foundation.Base64
import Shadownet.Foundation.Prune
import Shadownet.Go.Identifiers
import Shadownet.Go.Jcs

/-!
# AgentCards in the Go code

`core/internal/agentcard`, and `SignCard` and `TXTRecord` of `core/internal/provider`. A
`map[string]any` is the list of its members; the encoders do not depend on their order. Ed25519
signing is a parameter (`Signer`), since results quantify over it.
-/

namespace Shadownet.Go

open Foundation

/-- `ed25519.Sign`: private key, message. -/
abbrev Signer := Bytes → Bytes → Bytes

/-- `signer.Public()` of an `ed25519.PrivateKey`. -/
def publicKey (signer : Bytes) : Bytes := signer.drop 32

/-- `base64.RawURLEncoding.EncodeToString`. -/
def rawUrlEncode (b : Bytes) : Bytes := utf8 (base64Url b)

/-! ## Building a card -/

/-- `ErrInvalid` with the detail after it. -/
def cardInvalid (detail : Bytes) : Bytes := bytes "agentcard: invalid: " ++ detail

inductive CardMode where
  | shadowname
  | direct
  /-- Any other value of the type. -/
  | other
  deriving DecidableEq

/-- `Body`; the fields with a default are zero values in most callers. -/
structure CardBody where
  name : Bytes
  description : Bytes
  version : Bytes
  a2aURL : Bytes
  a2aProtocolBinding : Bytes := []
  a2aProtocolVersion : Bytes := []
  shadowPublicKey : Bytes
  issueEndpoint : Bytes := []
  statusListBase : Bytes := []
  additionalSecurity : List (Bytes × JsonDoc) := []
  extras : List (Bytes × JsonDoc) := []

def pinnedSelfSign : Bytes := bytes "shadownet:pinned-self-signed"

def hasPinnedSelfSigned (m : List (Bytes × JsonDoc)) : Bool := (m.lookup pinnedSelfSign).isSome

/-- `AddPinnedSelfSigned`. -/
def CardBody.addPinnedSelfSigned (b : CardBody) : CardBody :=
  { b with
    additionalSecurity := Json.setMember b.additionalSecurity pinnedSelfSign (.obj
      [(bytes "type", .str (bytes "shadownet:pinned-self-signed")),
       (bytes "description", .str (bytes "Self-signed TLS certificate; clients pin SHA-256 " ++
         bytes "fingerprint on first use (TOFU) or against the #sha256: URI fragment."))]) }

/-- `s`, or a default when it is empty. -/
def orDefault (s : Bytes) (default : String) : Bytes := if s = [] then bytes default else s

/-- The members every card has. -/
def CardBody.required (b : CardBody) : List (Bytes × JsonDoc) :=
  [(bytes "name", .str b.name),
   (bytes "description", .str b.description),
   (bytes "version", .str (orDefault b.version "1.0.0")),
   (bytes "supportedInterfaces", .arr [.obj
     [(bytes "url", .str b.a2aURL),
      (bytes "protocolBinding", .str (orDefault b.a2aProtocolBinding "HTTP+JSON")),
      (bytes "protocolVersion", .str (orDefault b.a2aProtocolVersion "1.0"))]]),
   (bytes "capabilities", .obj [(bytes "extensions", .arr [.obj
     [(bytes "uri", .str (bytes "urn:shadownet:0.2")),
      (bytes "required", .bool true),
      (bytes "description", .str (bytes "Shadownet identity envelope"))]])]),
   (bytes "shadownet:v", .str (bytes "0.2")),
   (bytes "shadownet:pk", .str b.shadowPublicKey)]

/-- The members a card has when their field is set. -/
def CardBody.optional (b : CardBody) : List (Bytes × JsonDoc) :=
  (if b.issueEndpoint ≠ [] then [(bytes "shadownet:issueEndpoint", .str b.issueEndpoint)]
    else []) ++
  ((if b.statusListBase ≠ [] then [(bytes "shadownet:statusListBase", .str b.statusListBase)]
    else []) ++
  if b.additionalSecurity ≠ [] ∨ hasPinnedSelfSigned b.additionalSecurity then
    [(bytes "securitySchemes", .obj b.additionalSecurity)]
  else [])

/-- `Build`. -/
def buildCard (G : Runtime) (b : CardBody) : GoM (List (Bytes × JsonDoc)) :=
  if b.shadowPublicKey = [] then throw (cardInvalid (bytes "shadow public key required"))
  else if classify G b.shadowPublicKey ≠ .pubKey then
    throw (cardInvalid (bytes "shadow public key " ++ G.quote b.shadowPublicKey ++
      bytes " is not a multibase pubkey"))
  else if b.a2aURL = [] then throw (cardInvalid (bytes "A2A URL required"))
  else pure (b.extras.foldl (fun ms m => Json.setMember ms m.1 m.2) (b.required ++ b.optional))

/-! ## Signing a card -/

/-- `stripEmpty`, with `none` for `nil`. -/
def stripEmpty (v : JsonDoc) : Option JsonDoc := v.pruned List.isEmpty

/-- The `kid` of the signature. -/
def cardKid (G : Runtime) (mode : CardMode) (providerDomain shadowPubMB : Bytes) : GoM Bytes :=
  match mode with
  | .shadowname =>
    if providerDomain = [] then
      throw (cardInvalid (bytes "provider domain required for ModeShadowname"))
    else if classify G providerDomain ≠ .domain then
      throw (cardInvalid (bytes "provider domain " ++ G.quote providerDomain ++
        bytes " is not a domain"))
    else pure (bytes "shadownet@" ++ providerDomain)
  | .direct =>
    if shadowPubMB = [] then
      throw (cardInvalid (bytes "shadow public key required for ModeDirect"))
    else if classify G shadowPubMB ≠ .pubKey then
      throw (cardInvalid (bytes "shadow public key " ++ G.quote shadowPubMB ++
        bytes " is not a multibase pubkey"))
    else pure shadowPubMB
  | .other => throw (cardInvalid (bytes "unknown signing mode"))

/-- The protected header of the signature. -/
def cardHeader (kid : Bytes) : JsonDoc :=
  .obj [(bytes "alg", .str (bytes "EdDSA")), (bytes "typ", .str (bytes "JOSE")),
    (bytes "kid", .str kid)]

/-- The entry of the `signatures` array. -/
def cardSignature (S : Signer) (signer payload kid : Bytes) : JsonDoc :=
  let headerB64 := rawUrlEncode (marshalValue (cardHeader kid))
  let signingInput := headerB64 ++ 0x2E :: rawUrlEncode payload
  .obj [(bytes "protected", .str headerB64),
    (bytes "signature", .str (rawUrlEncode (S signer signingInput)))]

/-- `Sign`. -/
def signBody (G : Runtime) (S : Signer) (body : List (Bytes × JsonDoc)) (signer : Bytes)
    (mode : CardMode) (providerDomain shadowPubMB : Bytes) : GoM (List (Bytes × JsonDoc)) :=
  if (body.lookup (bytes "signatures")).isSome then
    throw (cardInvalid (bytes "body already has a signatures field"))
  else if signer.length ≠ 64 then
    throw (cardInvalid (bytes "signer key is not an Ed25519 private key"))
  else
    match stripEmpty (.obj body) with
    | none => throw (cardInvalid (bytes "canonical form is empty"))
    | some pruned => do
      let payload ← (canonicalize G pruned).mapError (bytes "agentcard: canonicalize: " ++ ·)
      let kid ← cardKid G mode providerDomain shadowPubMB
      pure (body ++ [(bytes "signatures", .arr [cardSignature S signer payload kid])])

/-! ## Provider cards -/

/-- `provider.Record`, without its timestamps. -/
structure ProviderCard where
  localPart : Bytes
  shadowPublicKey : Bytes
  a2aURL : Bytes
  displayName : Bytes
  description : Bytes
  version : Bytes

namespace ProviderCard

/-- `displayName`. -/
def cardName (r : ProviderCard) : Bytes := if r.displayName ≠ [] then r.displayName else r.localPart

/-- `description`. -/
def cardDescription (r : ProviderCard) (providerDomain : Bytes) : Bytes :=
  if r.description ≠ [] then r.description else r.localPart ++ 0x40 :: providerDomain

/-- `versionOr`. -/
def versionOr (v : Bytes) : Bytes := orDefault v "1.0.0"

/-- The body `SignCard` builds. -/
def body (r : ProviderCard) (providerDomain : Bytes) : CardBody :=
  { name := r.cardName, description := r.cardDescription providerDomain
    version := versionOr r.version, a2aURL := r.a2aURL, shadowPublicKey := r.shadowPublicKey }

/-- `SignCard`. -/
def signCard (G : Runtime) (S : Signer) (r : ProviderCard) (providerDomain signer : Bytes) :
    GoM Bytes := do
  let body ← (buildCard G (r.body providerDomain)).mapError (bytes "provider: build card: " ++ ·)
  let signed ← (signBody G S body signer .shadowname providerDomain r.shadowPublicKey).mapError
    (bytes "provider: sign card: " ++ ·)
  pure (marshalValue (.obj signed))

end ProviderCard

/-! ## The TXT record of a provider -/

/-- `TXTRecord`. -/
def txtRecord (endpoint : Bytes) (providerPubs extras : List Bytes) : GoM Bytes :=
  if endpoint = [] then throw (bytes "provider: endpoint required")
  else if providerPubs = [] then
    throw (bytes "provider: at least one provider public key required")
  else do
    let pks ← providerPubs.mapM fun pk => do
      let mb ← (encodePubKey pk).mapError (bytes "provider: encode pubkey: " ++ ·)
      pure (bytes "pk=" ++ mb)
    pure ((bytes "; ").intercalate (bytes "v=0.2" :: (bytes "ep=" ++ endpoint) :: pks ++ extras))

end Shadownet.Go
