import Shadownet.Python.Crypto

/-!
# Identifiers in the Python SDK

`shadownet/identifiers.py`: Shadownames, domains and bare public keys, each parsed to its
canonical form.
-/

namespace Shadownet.Python

open Foundation

def invalidIdentifierError (msg : Text) : Exc := ⟨.invalidIdentifierError, msg⟩

/-- `[A-Za-z0-9]`. -/
def isAlnum (c : CodePoint) : Bool :=
  (48 ≤ c.val && c.val ≤ 57) || (65 ≤ c.val && c.val ≤ 90) || (97 ≤ c.val && c.val ≤ 122)

/-- A match of `re` up to `$`, which also stands before a newline at the very end. -/
def matchesBeforeEnd (p : Text → Bool) (s : Text) : Bool :=
  p s || (s.getLast? == some 10 && p s.dropLast)

/-- `_SHADOWNAME_LOCAL_RE.match`. -/
def localRe (s : Text) : Bool :=
  matchesBeforeEnd (fun s => 1 ≤ s.length && s.length ≤ 63 &&
    s.all fun c => isAlnum c || c == 95 || c == 46 || c == 45) s

/-- `_DOMAIN_LABEL_RE.match`. -/
def labelRe (s : Text) : Bool :=
  matchesBeforeEnd (fun s => 1 ≤ s.length && s.length ≤ 63 &&
    s.all (fun c => isAlnum c || c == 45) && (s.head?.all isAlnum && s.getLast?.all isAlnum)) s

/-- `s.rstrip(".")`. -/
def rstripDot (s : Text) : Text := (s.reverse.dropWhile (· == 46)).reverse

def validateDomain (G : Runtime) (value : Text) : Py Text :=
  let s := G.lower (rstripDot (strip value))
  if s = [] ∨ 253 < s.length then
    throw (invalidIdentifierError (text "domain length out of range: " ++ G.reprStr value))
  else
    match (s.splitOn 46).find? fun label => !labelRe label with
    | some label =>
      throw (invalidIdentifierError (text "invalid domain label " ++ G.reprStr label ++
        text " in " ++ G.reprStr value))
    | none => pure s

/-- `value.partition("@")` of a text with an `@`: the parts before and after the first. -/
def partitionAt (value : Text) : Text × Text :=
  (value.takeWhile (· != 64), (value.dropWhile (· != 64)).drop 1)

def isShadowname (value : Text) : Bool := value.contains 64

def validateShadowname (G : Runtime) (value : Text) : Py Text :=
  if ¬ isShadowname value then
    throw (invalidIdentifierError (text "shadowname missing '@': " ++ G.reprStr value))
  else
    let (loc, provider) := partitionAt value
    if ¬ localRe loc then
      throw (invalidIdentifierError (text "invalid shadowname local part: " ++ G.reprStr value))
    else do
      let domain ← validateDomain G provider
      pure (G.lower loc ++ 64 :: domain)

def splitShadowname (G : Runtime) (value : Text) : Py (Text × Text) := do
  let canonical ← validateShadowname G value
  pure (partitionAt canonical)

def validateMultibasePk (G : Runtime) (value : Text) : Py Text :=
  if ¬ (text "z6Mk").isPrefixOf value then
    throw (invalidIdentifierError (text "public key must start with 'z6Mk': " ++
      G.reprStr value))
  else do
    let raw ← reraise [.multibaseDecodeError] (fun exc => invalidIdentifierError exc.msg) do
      let decoded ← decodeMultibaseZ G value
      stripMulticodec decoded
    if raw.length ≠ 32 then
      throw (invalidIdentifierError (text "Ed25519 public key must be 32 bytes, got " ++
        decimal raw.length))
    else pure value

def parsePublicKey (G : Runtime) (value : Text) : Py Bytes := do
  let _ ← validateMultibasePk G value
  let decoded ← decodeMultibaseZ G value
  stripMulticodec decoded

/-- `c == p or c.endswith("." + p)` for the canonical forms of the two domains. -/
def isSubdomainOf (G : Runtime) (candidate parent : Text) : Py Bool := do
  let c ← validateDomain G candidate
  let p ← validateDomain G parent
  pure (c == p || (46 :: p).isSuffixOf c)

def isPublicKeyIdentifier (value : Text) : Bool :=
  (text "z6Mk").isPrefixOf value && !isShadowname value

def canonicalizeIdentifier (G : Runtime) (value : Text) : Py Text :=
  if isShadowname value then validateShadowname G value
  else if isPublicKeyIdentifier value then validateMultibasePk G value
  else
    throw (invalidIdentifierError (
      text "identifier must be a Shadowname or a multibase Ed25519 public key: " ++
        G.reprStr value))

def canonicalizeIssuerOrOrgIdentifier (G : Runtime) (value : Text) : Py Text :=
  if isPublicKeyIdentifier value then validateMultibasePk G value else validateDomain G value

/-- A canonical identifier is a Shadowname or a public key. -/
theorem canonicalizeIdentifier_form {G : Runtime} {value s : Text}
    (h : canonicalizeIdentifier G value = .ok s) :
    isShadowname s = true ∨ isPublicKeyIdentifier s = true := by
  unfold canonicalizeIdentifier at h
  split_ifs at h with hname hkey
  · left
    simp only [validateShadowname, guard_eq_ok, bind_eq_ok, pure_eq_ok] at h
    obtain ⟨-, -, domain, -, rfl⟩ := h
    simp [isShadowname]
  · right
    simp only [validateMultibasePk, guard_eq_ok, bind_eq_ok, pure_eq_ok] at h
    obtain ⟨-, raw, -, -, rfl⟩ := h
    exact hkey

/-! ## What the parsers raise -/

theorem raises_decodeMultibaseZ {G : Runtime} (v : Text) :
    Raises .multibaseDecodeError (decodeMultibaseZ G v) := by
  have hnumber : ∀ n t, Raises .valueError (b58Number G n t) := by
    intro n t
    induction t generalizing n with
    | nil => exact .pure n
    | cons ch t ih =>
      rw [b58Number]
      cases base58Index ch with
      | none => exact .throw _
      | some i => exact ih _
  have hdecode : ∀ t, Raises .valueError (b58decode G t) := fun t =>
    .bind (hnumber 0 t) fun _ => .pure _
  exact .ite (.throw _) (.reraise (hdecode _) (by decide) fun _ => rfl)

theorem raises_validateMultibasePk {G : Runtime} (v : Text) :
    Raises .invalidIdentifierError (validateMultibasePk G v) := by
  have hinner : Raises .multibaseDecodeError (do
      let decoded ← decodeMultibaseZ G v
      stripMulticodec decoded) :=
    .bind (raises_decodeMultibaseZ v) fun _ => .ite (.throw _) (.pure _)
  exact .ite (.throw _) (.bind (.reraise hinner (by decide) fun _ => rfl) fun _ =>
    .ite (.throw _) (.pure _))

theorem raises_parsePublicKey {G : Runtime} (v : Text) :
    Raises .invalidIdentifierError (parsePublicKey G v) := by
  intro e h
  rw [parsePublicKey] at h
  cases hv : validateMultibasePk G v with
  | error e' =>
    rw [hv, error_bind] at h
    rw [← Except.error.inj h]
    exact raises_validateMultibasePk v e' hv
  | ok w =>
    -- The two steps that follow succeeded in the validation already.
    rw [hv, ok_bind] at h
    simp only [validateMultibasePk, guard_eq_ok, bind_eq_ok, reraise_eq_ok] at hv
    obtain ⟨-, raw, ⟨decoded, hdec, hstrip⟩, -⟩ := hv
    rw [hdec, ok_bind, hstrip] at h
    cases h

theorem raises_validateDomain {G : Runtime} (v : Text) :
    Raises .invalidIdentifierError (validateDomain G v) := by
  rw [validateDomain]
  refine .ite (.throw _) ?_
  split
  · exact .throw _
  · exact .pure _

theorem raises_validateShadowname {G : Runtime} (v : Text) :
    Raises .invalidIdentifierError (validateShadowname G v) :=
  .ite (.throw _) (.ite (.throw _) (.bind (raises_validateDomain _) fun _ => .pure _))

theorem raises_canonicalizeIdentifier {G : Runtime} (v : Text) :
    Raises .invalidIdentifierError (canonicalizeIdentifier G v) :=
  .ite (raises_validateShadowname v)
    (.ite (raises_validateMultibasePk v) (.throw _))

theorem raises_canonicalizeIssuerOrOrgIdentifier {G : Runtime} (v : Text) :
    Raises .invalidIdentifierError (canonicalizeIssuerOrOrgIdentifier G v) :=
  .ite (raises_validateMultibasePk v) (raises_validateDomain v)

end Shadownet.Python
