import Mathlib.Data.Nat.Digits.Defs
import Shadownet.Foundation.Outcome
import Shadownet.Go.Basic

/-!
# Go strings

A Go `string` is a byte string; ranging over it decodes UTF-8 and replaces each byte that
starts no code point by `U+FFFD`.

What the programs take from outside this repository is collected in `Runtime`: the Unicode
tables beyond ASCII, the quoting of `fmt`, the texts of the errors of `encoding/json` and
`encoding/base64`, SHA-256, and the JWS library. Ed25519 verification is a parameter of its own
(`Verifier`), since results quantify over it.
-/

namespace Shadownet.Go

open Foundation

/-- A Go error, as its text. -/
abbrev GoM (α : Type) := Except Bytes α

/-- What `jose.ParseSigned` returns for a JWS with its signatures. `typ` is the header field
when it is a string. -/
structure ParsedJws where
  signatures : Nat
  alg : Bytes
  kid : Bytes
  typ : Option Bytes
  signingInput : Bytes
  signature : Bytes
  payload : Bytes
  deriving DecidableEq

/-- `ed25519.Verify`: key, message, signature. -/
abbrev Verifier := Bytes → Bytes → Bytes → Bool

/-- The code outside this repository, signature verification apart. -/
structure Runtime where
  /-- `%q` of a string and of a rune. -/
  quote : Bytes → Bytes
  quoteRune : CodePoint → Bytes
  /-- `unicode.IsLetter(r) || unicode.IsDigit(r)` beyond ASCII. -/
  isLetterOrDigit : CodePoint → Bool
  /-- `unicode.ToLower` beyond ASCII. -/
  toLower : CodePoint → CodePoint
  /-- The errors `json.Unmarshal` and `base64.RawURLEncoding` report for an input. -/
  jsonError : Bytes → Bytes
  base64Error : Bytes → Bytes
  sha256 : Bytes → Bytes
  /-- `jose.ParseSigned` with EdDSA as the only algorithm. -/
  parseSigned : Bytes → GoM ParsedJws
  /-- What `JSONWebSignature.Verify` checks before the signature (critical headers). -/
  preVerify : ParsedJws → GoM Unit
  /-- `jose.NewSigner`, `Sign` and `CompactSerialize` for a seed, `kid`, `typ`, payload. -/
  signCompact : Bytes → Bytes → Bytes → Bytes → GoM Bytes

/-- One step of ranging over a string: a code point and the bytes it took. -/
def nextRune (b : UInt8) (bs : Bytes) : CodePoint × Bytes :=
  match utf8Next (b :: bs) with
  | some r => r
  | none => (0xFFFD, bs)

/-- The code points of a string, each with its bytes. -/
def segmentsFuel : Nat → Bytes → List (CodePoint × Bytes)
  | 0, _ => []
  | _, [] => []
  | fuel + 1, b :: bs =>
    let (c, rest) := nextRune b bs
    (c, (b :: bs).take ((b :: bs).length - rest.length)) :: segmentsFuel fuel rest

def segments (s : Bytes) : List (CodePoint × Bytes) := segmentsFuel s.length s

/-- `[]rune(s)`. -/
def runes (s : Bytes) : Text := (segments s).map Prod.fst

/-- `unicode.IsSpace`. -/
def isSpace (c : CodePoint) : Bool :=
  (9 ≤ c.val && c.val ≤ 13) || c.val == 32 || c.val == 0x85 || c.val == 0xA0 ||
    c.val == 0x1680 || (0x2000 ≤ c.val && c.val ≤ 0x200A) || c.val == 0x2028 ||
    c.val == 0x2029 || c.val == 0x202F || c.val == 0x205F || c.val == 0x3000

/-- `strings.TrimSpace`. -/
def trimSpace (s : Bytes) : Bytes :=
  let inner := (segments s).dropWhile fun p => isSpace p.1
  ((inner.reverse.dropWhile fun p => isSpace p.1).reverse).flatMap Prod.snd

/-- `strings.Split(s, ".")`. -/
def splitDots (s : Bytes) : List Bytes := s.splitOn 0x2E

/-- `strings.TrimSuffix(s, ".")`. -/
def trimDot (s : Bytes) : Bytes := if s.getLast? = some 0x2E then s.dropLast else s

def Runtime.lowerRune (G : Runtime) (c : CodePoint) : CodePoint :=
  if 65 ≤ c.val ∧ c.val ≤ 90 then Fin.ofNat _ (c.val + 32)
  else if c.IsAscii then c
  else G.toLower c

/-- `strings.ToLower`. -/
def Runtime.lower (G : Runtime) (s : Bytes) : Bytes := utf8 ((runes s).map G.lowerRune)

/-- `crypto.PeekHeader`, which both JWS functions start with. -/
def Runtime.parseOne (G : Runtime) (compact : Bytes) : GoM ParsedJws := do
  let obj ← (G.parseSigned compact).mapError (bytes "crypto: parse jws: " ++ ·)
  if obj.signatures ≠ 1 then
    throw (bytes "crypto: jws has " ++ bytes (toString obj.signatures) ++
      bytes " signatures, want 1")
  else pure obj

/-- `crypto.VerifyJWS`, for a key of the right length. -/
def Runtime.verifyJWS (G : Runtime) (V : Verifier) (pub compact : Bytes) : GoM ParsedJws :=
  if pub.length ≠ 32 then
    throw (bytes "crypto: public key length = " ++ bytes (toString pub.length) ++
      bytes ", want 32")
  else do
    let obj ← G.parseOne compact
    if obj.alg ≠ bytes "EdDSA" then
      throw (bytes "crypto: unsupported algorithm; only EdDSA is permitted: got " ++
        G.quote obj.alg)
    else do
      (G.preVerify obj).mapError (bytes "crypto: verify: " ++ ·)
      if V pub obj.signingInput obj.signature then pure obj
      else throw (bytes "crypto: verify: go-jose/go-jose: error in cryptographic primitive")

end Shadownet.Go
