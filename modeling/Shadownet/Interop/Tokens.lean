import Shadownet.Interop.Issued

/-!
# Tokens of the SDK

`sign_jwt` hands the claims to PyJWT, and `decode_header`, `decode_unverified_claims` and
`_verify_jws_signature` read what comes out. `signJwt_read` says what is read of a token that was
written: the same claims, the header that was asked for, and a signature that verifies.
-/

namespace Shadownet.Interop

open Foundation
open Python (Clean Value Dict)

/-! ## The library -/

/-- Integers that are converted to text, and floats that are numbers. -/
def KeptNumber : Python.Number → Prop
  | .int n => n.natAbs < Python.intLimit
  | .float bits => bits.toNat % 2 ^ 63 ≤ 0x7FF0000000000000

/-- The values that `json.loads` gives back after `json.dumps`. -/
def Kept (v : Value) : Prop := v.Forall KeptNumber Clean (fun _ => True)

/-- PyJWT's `encode` with a private key: a token in the compact form, with the headers and the
claims as its first two parts and a signature that Ed25519 accepts under the public key. -/
def WritesTokens (J : Python.JsonRuntime) (G : Python.Runtime) (key : Python.KeyPair) : Prop :=
  ∀ seed (claims : Dict) headers token, key.seed = some seed → Kept (.obj claims.members) →
    (headers.lookup (text "alg")).isSome → (headers.lookup (text "typ")).isSome →
    G.jwtEncode claims.members seed headers = .ok token →
    ∃ (h : Dict) (header payload signature : Bytes), token = compact header payload signature ∧
      Python.jsonLoads J header = .ok (.obj h.members) ∧ (∀ k, h.get? k = headers.lookup k) ∧
      Python.jsonLoads J payload = .ok (.obj claims.members) ∧
      G.ed25519Verify key.publicBytes signature (signingInput header payload) = true

/-! ## A token that was signed -/

/-- The extra headers of the SDK. -/
def headerExtras (typ : Text) (kid : Option Text) : List (Text × Value) :=
  (text "typ", .str typ) :: kid.toList.map fun k => (text "kid", .str k)

/-- What the SDK reads of a token. -/
structure ReadAs (G : Python.Runtime) (token typ : Text) (kid : Option Text) (claims : Dict)
    (key : Bytes) : Prop where
  header : ∃ h, Python.decodeHeader G token = .ok h ∧ h.get? (text "typ") = some (.str typ) ∧
    h.get? (text "alg") = some (.str (text "EdDSA")) ∧ h.get? (text "kid") = kid.map .str
  claims : Python.decodeUnverifiedClaims G token = .ok claims
  signature : Python.verifyJwsSignature G token key = .ok ()
  dots : token.count 46 = 2

theorem count_compact (header payload signature : Bytes) :
    (compact header payload signature).count 46 = 2 := by
  have hzero : ∀ b, (base64Url b).count 46 = 0 := fun b =>
    List.count_eq_zero_of_not_mem (dot_not_mem_base64Url b)
  simp only [compact, List.count_append, List.count_cons_self, hzero]

/-- The header that `sign_jwt` makes of its defaults and the extras. -/
theorem lookup_headers (typ : Text) (kid : Option Text) (k : Text) :
    ((headerExtras typ kid).foldl (fun h m => Dict.setMembers h m.1 m.2)
      [(text "alg", .str (text "EdDSA")), (text "typ", .str (text "JWT"))]).lookup k =
      if k = text "kid" then kid.map .str
      else if k = text "typ" then some (.str typ)
      else if k = text "alg" then some (.str (text "EdDSA")) else none := by
  have hnames : text "kid" ≠ text "typ" ∧ text "kid" ≠ text "alg" ∧ text "typ" ≠ text "alg" := by
    decide
  obtain ⟨hkt, hka, hta⟩ := hnames
  have hdefault : ∀ k', List.lookup k' [(text "alg", (Json.str (text "EdDSA") : Value)),
      (text "typ", .str (text "JWT"))] = if k' = text "alg" then some (.str (text "EdDSA"))
      else if k' = text "typ" then some (.str (text "JWT")) else none := by
    intro k'
    rw [lookup_cons_ite, lookup_cons_ite, List.lookup_nil]
  cases kid with
  | none =>
    rw [headerExtras, Option.toList_none, List.map_nil, List.foldl_cons, List.foldl_nil,
      Dict.lookup_setMembers, hdefault, Option.map_none]
    by_cases hk : k = text "kid"
    · rw [if_pos hk, hk, if_neg hkt, if_neg hka, if_neg hkt]
    · rw [if_neg hk]
      by_cases ht : k = text "typ"
      · rw [if_pos ht, if_pos ht]
      · rw [if_neg ht, if_neg ht, if_neg ht]
  | some kid =>
    rw [headerExtras, Option.toList_some, List.map_singleton, List.foldl_cons, List.foldl_cons,
      List.foldl_nil, Dict.lookup_setMembers, Dict.lookup_setMembers, hdefault, Option.map_some]
    by_cases hk : k = text "kid"
    · rw [if_pos hk, if_pos hk]
    · rw [if_neg hk, if_neg hk]
      by_cases ht : k = text "typ"
      · rw [if_pos ht, if_pos ht]
      · rw [if_neg ht, if_neg ht, if_neg ht]

/-- What is written is read back. -/
theorem signJwt_read {J : Python.JsonRuntime} {G : Python.Runtime} {key : Python.KeyPair}
    (hread : ReadsTokens J G) (hwrite : WritesTokens J G key) {claims : Dict}
    (hkept : Kept (.obj claims.members)) {typ token : Text} {kid : Option Text}
    (hsign : Python.signJwt G claims.members key (headerExtras typ kid) = .ok token) :
    ReadAs G token typ kid claims key.publicBytes := by
  have hnames : text "alg" ≠ text "kid" ∧ text "typ" ≠ text "kid" ∧ text "alg" ≠ text "typ" ∧
      text "crit" ≠ text "kid" ∧ text "crit" ≠ text "typ" ∧ text "crit" ≠ text "alg" ∧
      text "b64" ≠ text "kid" ∧ text "b64" ≠ text "typ" ∧ text "b64" ≠ text "alg" := by
    decide
  obtain ⟨hak, htk, hat, hck, hct, hca, hbk, hbt, hba⟩ := hnames
  rw [Python.signJwt] at hsign
  cases hseed : key.seed with
  | none =>
    rw [hseed] at hsign
    cases hsign
  | some seed =>
    rw [hseed] at hsign
    have halg : _ = some (Json.str (text "EdDSA")) := (lookup_headers typ kid (text "alg")).trans
      (by rw [if_neg hak, if_neg hat, if_pos rfl])
    have htyp : _ = some (Json.str typ) := (lookup_headers typ kid (text "typ")).trans
      (by rw [if_neg htk, if_pos rfl])
    obtain ⟨h, header, payload, signature, rfl, hheader, hget, hpayload, hverify⟩ :=
      hwrite seed claims _ token hseed hkept (by rw [halg]; rfl) (by rw [htyp]; rfl) hsign
    have hkid : h.get? (text "kid") = kid.map .str := by
      rw [hget, lookup_headers, if_pos rfl]
    have hplain : PlainHeader h := by
      refine ⟨?_, ?_, fun v hv => ?_⟩
      · rw [hget, lookup_headers, if_neg hck, if_neg hct, if_neg hca]
      · rw [hget, lookup_headers, if_neg hbk, if_neg hbt, if_neg hba]
      · rw [hkid] at hv
        obtain ⟨s, -, rfl⟩ := Option.map_eq_some_iff.mp hv
        exact ⟨s, rfl⟩
    refine ⟨⟨h, ?_, (hget _).trans htyp, (hget _).trans halg, hkid⟩, ?_, ?_, count_compact _ _ _⟩
    · rw [Python.decodeHeader, hread.header _ _ _ _ hheader hplain]
      rfl
    · rw [Python.decodeUnverifiedClaims, hread.claims _ _ _ _ _ hheader hplain hpayload]
      rfl
    · rw [verifyJwsSignature_compact, Python.verifySignature, if_pos hverify]
      rfl

end Shadownet.Interop
