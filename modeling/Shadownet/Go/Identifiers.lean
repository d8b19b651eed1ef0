import Shadownet.Go.Text

/-!
# Identifiers in the Go code

`core/internal/identifiers`: the three identifier forms and the base58 codec of public keys.
The two base58 loops are modelled as they run, one character at a time over a byte buffer.
-/

namespace Shadownet.Go

open Foundation

inductive Class where
  | unknown
  | domain
  | shadowname
  | pubKey
  deriving DecidableEq, Repr

/-- `Class.String`. -/
def Class.string : Class → String
  | .unknown => "unknown"
  | .domain => "domain"
  | .shadowname => "shadowname"
  | .pubKey => "pubkey"

/-- `ErrInvalid` with the detail after it. -/
def invalid (detail : Bytes) : Bytes := bytes "identifiers: invalid: " ++ detail

/-! ## Base58 -/

def b58Alphabet : Bytes := bytes "123456789ABCDEFGHJKLMNPQRSTUVWXYZabcdefghijkmnopqrstuvwxyz"

/-- The index of a character in the alphabet. -/
def b58Index (b : UInt8) : Option Nat :=
  let i := b58Alphabet.idxOf b
  if i < 58 then some i else none

/-- The inner loops of `b58decode`: the buffer, least significant byte first, times 58 plus
the carry. -/
def b58MulAdd : Nat → Bytes → Bytes
  | carry, [] => (Nat.digits 256 carry).map UInt8.ofNat
  | carry, b :: bs =>
    UInt8.ofNat ((carry + b.toNat * 58) % 256) :: b58MulAdd ((carry + b.toNat * 58) / 256) bs

/-- The outer loop of `b58decode` from offset `i`. -/
def b58DecodeLoop (G : Runtime) (i : Nat) (out : Bytes) : Bytes → GoM Bytes
  | [] => pure out
  | b :: bs =>
    match b58Index b with
    | none =>
      throw (bytes "invalid base58 character " ++ G.quoteRune (Fin.ofNat _ b.toNat) ++
        bytes " at offset " ++ bytes (toString i))
    | some v => b58DecodeLoop G (i + 1) (b58MulAdd v out) bs

def b58decode (G : Runtime) (s : Bytes) : GoM Bytes := do
  let leading := (s.takeWhile (· == 0x31)).length
  let out ← b58DecodeLoop G leading [] (s.drop leading)
  pure (List.replicate leading 0 ++ out.reverse)

/-- The inner loop of `b58encode`: long division of the buffer by 58. -/
def b58DivMod : Nat → Bytes → Bytes × Nat
  | rem, [] => ([], rem)
  | rem, b :: bs =>
    let r := b58DivMod ((rem * 256 + b.toNat) % 58) bs
    (UInt8.ofNat ((rem * 256 + b.toNat) / 58) :: r.1, r.2)

/-- The outer loop of `b58encode`, least significant digit first. A byte string of length
`n` has fewer than `2 * n` digits. -/
def b58EncodeLoop : Nat → Bytes → Bytes
  | 0, _ => []
  | _, [] => []
  | fuel + 1, b :: bs =>
    let (q, rem) := b58DivMod 0 (b :: bs)
    b58Alphabet.getD rem 0 :: b58EncodeLoop fuel (q.dropWhile (· == 0))

def b58encode (data : Bytes) : Bytes :=
  let leading := (data.takeWhile (· == 0)).length
  List.replicate leading 0x31 ++ (b58EncodeLoop (2 * data.length) (data.drop leading)).reverse

/-- `EncodePubKey`. -/
def encodePubKey (pub : Bytes) : GoM Bytes :=
  if pub.length ≠ 32 then
    throw (invalid (bytes "ed25519 pubkey must be 32 bytes, got " ++
      bytes (toString pub.length)))
  else pure (0x7A :: b58encode (0xED :: 0x01 :: pub))

/-- `DecodePubKey`. -/
def decodePubKey (G : Runtime) (s : Bytes) : GoM Bytes :=
  if ¬ (bytes "z6Mk").isPrefixOf s then
    throw (invalid (bytes "pubkey must start with z6Mk: " ++ G.quote s))
  else do
    let raw ← (b58decode G (s.drop 1)).mapError fun e =>
      invalid (bytes "base58 decode: " ++ e)
    if raw.length < 34 then throw (invalid (bytes "pubkey payload too short"))
    else if raw.take 2 ≠ [0xED, 0x01] then
      throw (invalid (bytes "missing 0xed01 multicodec prefix"))
    else if (raw.drop 2).length ≠ 32 then
      throw (invalid (bytes "pubkey payload length " ++
        bytes (toString (raw.drop 2).length) ++ bytes ", want 32"))
    else pure (raw.drop 2)

/-! ## The three forms -/

/-- ASCII letters and digits. -/
def isAlnum (c : Nat) : Bool :=
  (48 ≤ c && c ≤ 57) || (65 ≤ c && c ≤ 90) || (97 ≤ c && c ≤ 122)

def validateShadownameLocal (G : Runtime) (s : Bytes) : GoM Unit :=
  if s.length < 1 ∨ 63 < s.length then
    throw (invalid (bytes "shadowname local length " ++ bytes (toString s.length) ++
      bytes " not in [1,63]"))
  else
    match (runes s).find?
        fun r => !(isAlnum r.val || r.val == 95 || r.val == 45 || r.val == 46) with
    | some r => throw (invalid (bytes "shadowname local has invalid rune " ++ G.quoteRune r))
    | none => pure ()

/-- The loop of `validateDomainLabel`, from byte offset `i` of a label of `n` bytes. -/
def labelLoop (G : Runtime) (label : Bytes) (n i : Nat) : List (CodePoint × Bytes) → GoM Unit
  | [] => pure ()
  | (r, bs) :: rest =>
    if isAlnum r.val then labelLoop G label n (i + bs.length) rest
    else if r.val = 45 then
      if i = 0 ∨ i + 1 = n then
        throw (invalid (bytes "domain label " ++ G.quote label ++
          bytes " starts or ends with '-'"))
      else labelLoop G label n (i + bs.length) rest
    else if ¬ r.IsAscii ∧ G.isLetterOrDigit r then labelLoop G label n (i + bs.length) rest
    else
      throw (invalid (bytes "domain label " ++ G.quote label ++ bytes " has invalid rune " ++
        G.quoteRune r))

def validateDomainLabel (G : Runtime) (label : Bytes) : GoM Unit :=
  if label.length < 1 ∨ 63 < label.length then
    throw (invalid (bytes "domain label length " ++ bytes (toString label.length) ++
      bytes " not in [1,63]"))
  else labelLoop G label label.length 0 (segments label)

def validateDomain (G : Runtime) (s : Bytes) : GoM Unit :=
  if (trimDot s).length < 1 ∨ 253 < (trimDot s).length then
    throw (invalid (bytes "domain length " ++ bytes (toString (trimDot s).length) ++
      bytes " not in [1,253]"))
  else (splitDots (trimDot s)).forM (validateDomainLabel G)

def canonicalDomain (G : Runtime) (s : Bytes) : GoM Bytes := do
  validateDomain G s
  pure (G.lower (trimDot s))

/-- The parts of a string around its first `@`. -/
def splitAt (s : Bytes) : Option (Bytes × Bytes) :=
  if s.contains 0x40 then some (s.takeWhile (· != 0x40), (s.dropWhile (· != 0x40)).drop 1)
  else none

/-- `SplitShadowname`, which `ValidateShadowname` and `CanonicalShadowname` repeat. -/
def splitShadowname (G : Runtime) (s : Bytes) : GoM (Bytes × Bytes) :=
  match splitAt s with
  | none => throw (invalid (bytes "shadowname missing '@': " ++ G.quote s))
  | some (localPart, provider) => do
    validateShadownameLocal G localPart
    validateDomain G provider
    pure (localPart, provider)

def canonicalShadowname (G : Runtime) (s : Bytes) : GoM Bytes := do
  let (localPart, provider) ← splitShadowname G s
  pure (G.lower localPart ++ 0x40 :: G.lower provider)

/-- `IsSubdomainOf`. -/
def isSubdomainOf (G : Runtime) (candidate parent : Bytes) : Bool :=
  match canonicalDomain G candidate, canonicalDomain G parent with
  | .ok c, .ok p => c == p || (0x2E :: p).isSuffixOf c
  | _, _ => false

/-- `Classify`. -/
def classify (G : Runtime) (s : Bytes) : Class :=
  if s.contains 0x40 then
    if (splitShadowname G s).isOk then .shadowname else .unknown
  else if (bytes "z6Mk").isPrefixOf s then
    if (decodePubKey G s).isOk then .pubKey else .unknown
  else if (validateDomain G s).isOk then .domain
  else .unknown

end Shadownet.Go
