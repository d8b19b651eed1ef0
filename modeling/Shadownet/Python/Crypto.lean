import Shadownet.Python.Stdlib
import Shadownet.Python.Values

/-!
# Keys, signatures and tokens of the Python SDK

`shadownet/crypto`. What the SDK takes from outside this repository is collected in
`Runtime`: PyJWT, the field validators of pydantic, Ed25519 and SHA-256, the Unicode
tables behind `str.lower` and the texts `repr` gives.
-/

namespace Shadownet.Python

open Foundation

structure Runtime where
  /-- `jwt.get_unverified_header(token)`. -/
  getUnverifiedHeader : Text → Py Dict
  /-- `jwt.decode(token, options={"verify_signature": False})`. -/
  decodeUnverified : Text → Py Dict
  /-- `jwt.encode(claims, key, algorithm="EdDSA", headers=headers)`, for a seed. -/
  jwtEncode : List (Text × Value) → Bytes → List (Text × Value) → Py Text
  /-- `Ed25519PublicKey.verify`: key, signature, message. -/
  ed25519Verify : Bytes → Bytes → Bytes → Bool
  sha256 : Bytes → Bytes
  /-- pydantic's conversion of a value to an `int` field. -/
  laxInt : Value → Option Int
  /-- `str(exc)` of the `ValidationError` for a model and an input. -/
  validationText : Text → Dict → Text
  repr : Value → Text
  /-- `str.lower()` of a text that is not ASCII. -/
  lowerUnicode : Text → Text

/-- `repr(s)` of a `str`. -/
def Runtime.reprStr (G : Runtime) (s : Text) : Text := G.repr (.str s)

/-- `repr(d.get(k))`. -/
def Runtime.reprGet (G : Runtime) (d : Dict) (k : Text) : Text :=
  G.repr ((d.get? k).getD .null)

def lowerAscii (c : CodePoint) : CodePoint :=
  if 65 ≤ c.val ∧ c.val ≤ 90 then Fin.ofNat 0x110000 (c.val + 32) else c

/-- `s.lower()`. -/
def Runtime.lower (G : Runtime) (s : Text) : Text :=
  if s.all fun c => decide c.IsAscii then s.map lowerAscii else G.lowerUnicode s

/-! ## Multibase -/

def multibaseDecodeError (msg : Text) : Exc := ⟨.multibaseDecodeError, msg⟩

def base58Alphabet : Text := text "123456789ABCDEFGHJKLMNPQRSTUVWXYZabcdefghijkmnopqrstuvwxyz"

/-- `_BASE58_INDEX.get(c)`. -/
def base58Index (c : CodePoint) : Option Nat :=
  let i := base58Alphabet.idxOf c
  if i < 58 then some i else none

/-- `n.to_bytes((n.bit_length() + 7) // 8, "big")`. -/
def toBytesBig (n : Nat) : Bytes := (Nat.digits 256 n).reverse.map UInt8.ofNat

/-- The loop of `_b58decode`. -/
def b58Number (G : Runtime) (n : Nat) : Text → Py Nat
  | [] => pure n
  | ch :: rest =>
    match base58Index ch with
    | none => throw ⟨.valueError, text "invalid base58 character: " ++ G.reprStr [ch]⟩
    | some i => b58Number G (n * 58 + i) rest

def b58decode (G : Runtime) (value : Text) : Py Bytes := do
  let n ← b58Number G 0 value
  let leading := (value.takeWhile (· == 49)).length
  pure (List.replicate leading 0 ++ toBytesBig n)

/-- `int.from_bytes(data, "big")`. -/
def fromBytesBig (data : Bytes) : Nat := data.foldl (fun n b => n * 256 + b.toNat) 0

/-- The loop of `_b58encode`. -/
def b58EncodeLoop (n : Nat) (encoded : Text) : Text :=
  if n = 0 then encoded else b58EncodeLoop (n / 58) (base58Alphabet.getD (n % 58) 0 :: encoded)
termination_by n
decreasing_by exact Nat.div_lt_self (by omega) (by decide)

def b58encode (data : Bytes) : Text :=
  let leading := (data.takeWhile (· == 0)).length
  List.replicate leading 49 ++ b58EncodeLoop (fromBytesBig data) []

def decodeMultibaseZ (G : Runtime) (value : Text) : Py Bytes :=
  if value.head? ≠ some 122 then
    throw (multibaseDecodeError (text "expected base58btc multibase prefix 'z'"))
  else
    reraise [.valueError] (fun exc => multibaseDecodeError exc.msg) (b58decode G (value.drop 1))

/-- `strip_multicodec(ED25519_PUB_MULTICODEC, value)`. -/
def stripMulticodec (value : Bytes) : Py Bytes :=
  if value.take 2 ≠ [0xED, 0x01] then
    throw (multibaseDecodeError (text "missing multicodec prefix ed01"))
  else pure (value.drop 2)

/-! ## Ed25519 -/

def cryptoSignatureError (msg : Text) : Exc := ⟨.cryptoSignatureError, msg⟩

/-- `Ed25519KeyPair`: the public bytes and, when it can sign, the seed. -/
structure KeyPair where
  publicBytes : Bytes
  seed : Option Bytes

/-- `Ed25519KeyPair.from_public_bytes`; a verifier is its public bytes. -/
def fromPublicBytes (publicBytes : Bytes) : Py Bytes :=
  if publicBytes.length ≠ 32 then
    throw (cryptoSignatureError (text "Ed25519 public key must be exactly 32 bytes"))
  else pure publicBytes

/-- `Ed25519KeyPair.verify`. -/
def verifySignature (G : Runtime) (key signature message : Bytes) : Py Unit :=
  if G.ed25519Verify key signature message then pure ()
  else throw (cryptoSignatureError (text "signature verification failed"))

/-! ## Tokens -/

def jwtError (msg : Text) : Exc := ⟨.jwtError, msg⟩

def decodeHeader (G : Runtime) (token : Text) : Py Dict :=
  reraise [.pyJwtError] (fun exc => jwtError exc.msg) (G.getUnverifiedHeader token)

def decodeUnverifiedClaims (G : Runtime) (token : Text) : Py Dict :=
  reraise [.pyJwtError] (fun exc => jwtError exc.msg) (G.decodeUnverified token)

/-- `sign_jwt`, with the extras that override or extend the default header. -/
def signJwt (G : Runtime) (claims : List (Text × Value)) (key : KeyPair)
    (headerExtras : List (Text × Value)) : Py Text :=
  let headers := headerExtras.foldl (fun h m => Dict.setMembers h m.1 m.2)
    [(text "alg", .str (text "EdDSA")), (text "typ", .str (text "JWT"))]
  match key.seed with
  | none => throw (cryptoSignatureError (text "private key not available on this keypair"))
  | some seed => G.jwtEncode claims seed headers

/-- A character as the message of an encoding error names it. -/
def escapeCode (c : CodePoint) : Text :=
  if c.val < 0x100 then text "\\x" ++ (hex4 97 c.val).drop 2
  else if c.val < 0x10000 then text "\\u" ++ hex4 97 c.val
  else text "\\U" ++ hex4 97 (c.val / 0x10000) ++ hex4 97 (c.val % 0x10000)

/-- The error of `s.encode("ascii")`: the first run of characters that are not ASCII. -/
def asciiExc (s : Text) : Exc :=
  let start := (s.takeWhile fun c => decide c.IsAscii).length
  let run := (s.drop start).takeWhile fun c => decide ¬ c.IsAscii
  let what := match run with
    | [c] => text " '" ++ escapeCode c ++ text "' in position " ++ decimal start
    | _ => text "s in position " ++ decimal start ++ text "-" ++
      decimal (start + run.length - 1)
  ⟨.unicodeEncodeError, text "'ascii' codec can't encode character" ++ what ++
    text ": ordinal not in range(128)"⟩

/-- `s.encode("ascii")`. -/
def encodeAscii (s : Text) : Py Bytes :=
  if s.all fun c => decide c.IsAscii then pure (s.map fun c => UInt8.ofNat c.val)
  else throw (asciiExc s)

theorem encodeAscii_of_ascii {s : Text} (h : ∀ c ∈ s, c.IsAscii) :
    encodeAscii s = .ok (utf8 s) := by
  have hall : (s.all fun c => decide c.IsAscii) = true :=
    List.all_eq_true.mpr fun c hc => decide_eq_true (h c hc)
  rw [encodeAscii, if_pos hall, utf8_ascii h]
  rfl

/-- `_verify_jws_signature`, the same function in `envelope.py` and `credential.py`. -/
def verifyJwsSignature (G : Runtime) (token : Text) (key : Bytes) : Py Unit :=
  match token.splitOn 46 with
  | [header, payload, signature] => do
    let signingInput ← encodeAscii (header ++ 46 :: payload)
    let sig ← urlsafeB64decode (signature ++ padding signature)
    verifySignature G key sig signingInput
  | _ => throw (jwtError (text "malformed JWS compact serialization"))

end Shadownet.Python
