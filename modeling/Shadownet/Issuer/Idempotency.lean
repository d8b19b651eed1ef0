import Mathlib.Data.List.Permutation
import Shadownet.Go.Ascii
import Shadownet.Interop.Decoded
import Shadownet.Interop.Faithful
import Shadownet.Issuer.Possession

/-!
# Idempotency keys

`core/internal/issuer/idempotency.go`: the digest of the subject, the issuer and the canonical
request, with a separator that no identifier contains (`separator_not_mem`). The key depends on
the members of the request only, and tells any two requests apart (`idempotencyKey_separates`).
-/

namespace Shadownet.Issuer

open Foundation Go
open Interop (Valid decoded decoded_of_valid)

/-- `IdempotencyKey`, with the members of the map `req` in some order. -/
def idempotencyKeyOf (G : Runtime) (iss aud : Bytes) (req : List (Bytes × JsonDoc)) : GoM Bytes :=
  if iss = [] ∨ aud = [] then
    throw (bytes "issuer: invalid: iss and aud both required for idempotency")
  else if req = [] then
    throw (bytes "issuer: invalid: req object required for idempotency")
  else do
    let reqCanon ← (canonicalize G (.obj req)).mapError (bytes "issuer: canonicalize req: " ++ ·)
    pure (hexEncode (G.sha256 (iss ++ 0x1F :: (aud ++ 0x1F :: reqCanon))))

/-- The map both callers pass. -/
def requestMap (kind org : Bytes) : List (Bytes × JsonDoc) :=
  [(bytes "kind", .str kind), (bytes "org", .str org)]

/-! ## The separator -/

theorem local_of_mem {G : Runtime} {s : Bytes} (h : validateShadownameLocal G s = .ok ())
    {b : UInt8} (hb : b.toNat < 0x80) (hin : b ∈ s) :
    isAlnum b.toNat = true ∨ b.toNat = 95 ∨ b.toNat = 45 ∨ b.toNat = 46 := by
  rw [validateShadownameLocal, guard_eq_ok] at h
  obtain ⟨p, hp, hval⟩ := mem_segments_of_ascii hb hin
  have h := h.2
  split at h
  · exact (throw_eq_ok.mp h).elim
  · next hfind =>
    have hp := List.find?_eq_none.mp hfind p.1 (List.mem_map_of_mem hp)
    simp only [hval, Bool.not_eq_true', Bool.not_eq_false, Bool.or_eq_true, beq_iff_eq] at hp
    rcases hp with ((h | h) | h) | h
    · exact .inl h
    · exact .inr (.inl h)
    · exact .inr (.inr (.inl h))
    · exact .inr (.inr (.inr h))

theorem mem_splitAt {s localPart provider : Bytes} (h : splitAt s = some (localPart, provider))
    {b : UInt8} (hb : b ≠ 0x40) (hin : b ∈ s) : b ∈ localPart ∨ b ∈ provider := by
  rw [splitAt] at h
  split_ifs at h
  obtain ⟨rfl, rfl⟩ := Prod.mk.inj (Option.some.inj h)
  rw [← List.takeWhile_append_dropWhile (p := (· != 0x40)) (l := s)] at hin
  rcases List.mem_append.mp hin with hin | hin
  · exact .inl hin
  · right
    cases hdrop : s.dropWhile (· != 0x40) with
    | nil =>
      rw [hdrop] at hin
      cases hin
    | cons a rest =>
      have ha : a = 0x40 := by
        have := List.head_dropWhile_not (p := (· != 0x40)) (l := s) (by rw [hdrop]; simp)
        simpa [hdrop] using this
      rw [hdrop] at hin
      rcases List.mem_cons.mp hin with rfl | hin
      · exact absurd ha hb
      · exact hin

/-- No identifier contains the separator. -/
theorem separator_not_mem {G : Runtime} {s : Bytes} (h : classify G s ≠ .unknown) :
    (0x1F : UInt8) ∉ s := by
  intro hin
  have hdomain : ∀ {t : Bytes}, validateDomain G t = .ok () → (0x1F : UInt8) ∉ t := by
    intro t ht hmem
    rcases ascii_of_mem_domain ht (by decide) hmem with h | h | h <;> exact absurd h (by decide)
  cases hc : classify G s with
  | unknown => exact h hc
  | domain => exact hdomain (validateDomain_of_classify hc) hin
  | shadowname =>
    rw [classify] at hc
    split_ifs at hc with h1 h2
    obtain ⟨parts, hok⟩ := isOk_iff.mp h2
    unfold splitShadowname at hok
    split at hok
    · cases hok
    · next hsplit =>
      simp only [bind_eq_ok] at hok
      obtain ⟨⟨⟩, hlocal, ⟨⟩, hprovider, -⟩ := hok
      rcases mem_splitAt hsplit (by decide) hin with hmem | hmem
      · rcases local_of_mem hlocal (by decide) hmem with h | h | h | h <;>
          exact absurd h (by decide)
      · exact hdomain hprovider hmem
  | pubKey =>
    rw [classify] at hc
    split_ifs at hc with h1 h2 h3 h4
    obtain ⟨key, hkey⟩ := isOk_iff.mp h4
    have hout : (0x1F : UInt8) ∉ b58Alphabet := by decide
    exact hout (alphabet_of_decodePubKey hkey _ hin)

theorem identifier_ne_nil {G : Runtime} {s : Bytes} (h : classify G s ≠ .unknown) : s ≠ [] := by
  rintro rfl
  exact h rfl

/-! ## The request -/

theorem append_cons_inj {α : Type} {x : α} {s s' t t' : List α} (hs : x ∉ s) (hs' : x ∉ s')
    (h : s ++ x :: t = s' ++ x :: t') : s = s' ∧ t = t' := by
  induction s generalizing s' with
  | nil =>
    cases s' with
    | nil => exact ⟨rfl, (List.cons.inj h).2⟩
    | cons b s' =>
      obtain ⟨rfl, -⟩ := List.cons.inj h
      exact absurd List.mem_cons_self hs'
  | cons a s ih =>
    cases s' with
    | nil =>
      obtain ⟨rfl, -⟩ := List.cons.inj h
      exact absurd List.mem_cons_self hs
    | cons b s' =>
      obtain ⟨rfl, htail⟩ := List.cons.inj h
      obtain ⟨rfl, rfl⟩ := ih (fun hm => hs (List.mem_cons_of_mem _ hm))
        (fun hm => hs' (List.mem_cons_of_mem _ hm)) htail
      exact ⟨rfl, rfl⟩

/-- The request as a value over texts. -/
def requestValue (kind org : Text) : Json Text IntLit :=
  .obj [(text "kind", .str kind), (text "org", .str org)]

theorem goJson_requestValue (kind org : Text) :
    Interop.goJson (requestValue kind org) = .obj (requestMap (utf8 kind) (utf8 org)) := by
  rw [Interop.goJson, requestValue, Json.map_obj]
  rfl

theorem clean_requestValue {kind org : Text} (hk : Python.Clean kind) (ho : Python.Clean org) :
    Interop.CleanStrings (requestValue kind org) := by
  rw [Interop.CleanStrings, requestValue, Json.forall_obj]
  refine ⟨trivial, ?_⟩
  simp only [List.forall_mem_cons, List.not_mem_nil, false_imp_iff, implies_true, and_true]
  exact ⟨⟨Interop.clean_text _, hk⟩, Interop.clean_text _, ho⟩

/-- The canonical request does not depend on the order of the members. -/
theorem canonicalize_perm (G : Runtime) {kind org : Bytes} {req : List (Bytes × JsonDoc)}
    (h : req.Perm (requestMap kind org)) :
    canonicalize G (.obj req) = canonicalize G (.obj (requestMap kind org)) := by
  rcases List.perm_pair.mp h with rfl | rfl
  · rfl
  · rw [canonicalize, canonicalize, jcsEncode, jcsEncode]
    rfl

theorem canonicalize_request (G : Runtime) {kind org : Bytes} (hk : Valid kind) (ho : Valid org) :
    canonicalize G (.obj (requestMap kind org)) =
      .ok (utf8 (Interop.literalText (requestValue (decoded kind) (decoded org)))) := by
  obtain ⟨hkind, hkclean⟩ := decoded_of_valid hk
  obtain ⟨horg, hoclean⟩ := decoded_of_valid ho
  have henc := Interop.jcsEncode_eq G (clean_requestValue hkclean hoclean)
  rw [goJson_requestValue, hkind, horg] at henc
  exact henc

/-- The canonical request tells requests apart. -/
theorem canonicalize_inj {G : Runtime} {kind org kind' org' b : Bytes} (hk : Valid kind)
    (ho : Valid org) (hk' : Valid kind') (ho' : Valid org')
    (h : canonicalize G (.obj (requestMap kind org)) = .ok b)
    (h' : canonicalize G (.obj (requestMap kind' org')) = .ok b) : kind = kind' ∧ org = org' := by
  have hclean := clean_requestValue (decoded_of_valid hk).2 (decoded_of_valid ho).2
  have hclean' := clean_requestValue (decoded_of_valid hk').2 (decoded_of_valid ho').2
  rw [canonicalize_request G hk ho] at h
  rw [canonicalize_request G hk' ho', ← Except.ok.inj h] at h'
  have htext := utf8_injective (Interop.clean_literalText hclean')
    (Interop.clean_literalText hclean) (Except.ok.inj h')
  have hsorted : ∀ k o : Text, (requestValue k o).sorted Python.nameLe = requestValue k o :=
    fun _ _ => rfl
  have hvalue : requestValue (decoded kind') (decoded org') =
      requestValue (decoded kind) (decoded org) := by
    rw [← hsorted (decoded kind') (decoded org'), ← hsorted (decoded kind) (decoded org)]
    exact Json.text_injective Interop.literalLexemes_readable (Json.forall_sorted.mpr hclean')
      (Json.forall_sorted.mpr hclean) htext
  simp only [requestValue, Json.obj.injEq, List.cons.injEq, Prod.mk.injEq, Json.str.injEq, true_and,
    and_true] at hvalue
  rw [← (decoded_of_valid hk).1, ← (decoded_of_valid ho).1, ← (decoded_of_valid hk').1,
    ← (decoded_of_valid ho').1, hvalue.1, hvalue.2]
  exact ⟨rfl, rfl⟩

/-! ## The key -/

theorem hexEncode_cons (b : UInt8) (bs : Bytes) :
    hexEncode (b :: bs) = hexEncode [b] ++ hexEncode bs := by
  simp [hexEncode]

theorem hexDigit_inj : ∀ m n : Fin 16,
    UInt8.ofNat (if m.val < 10 then 48 + m.val else 87 + m.val) =
      UInt8.ofNat (if n.val < 10 then 48 + n.val else 87 + n.val) → m = n := by
  decide

theorem hexEncode_byte_inj {a b : UInt8} (h : hexEncode [a] = hexEncode [b]) : a = b := by
  have ha := a.toNat_lt
  have hb := b.toNat_lt
  obtain ⟨hhigh, hlow⟩ := List.cons.inj h
  have hhigh := hexDigit_inj ⟨a.toNat / 16, by omega⟩ ⟨b.toNat / 16, by omega⟩ hhigh
  have hlow := hexDigit_inj ⟨a.toNat % 16, by omega⟩ ⟨b.toNat % 16, by omega⟩
    (List.cons.inj hlow).1
  apply UInt8.toNat_inj.mp
  have hhigh := Fin.mk.inj hhigh
  have hlow := Fin.mk.inj hlow
  omega

theorem hexEncode_injective : Function.Injective hexEncode := by
  intro s
  induction s with
  | nil =>
    intro t h
    cases t with
    | nil => rfl
    | cons b t => cases h
  | cons a s ih =>
    intro t h
    cases t with
    | nil => cases h
    | cons b t =>
      rw [hexEncode_cons, hexEncode_cons b] at h
      obtain ⟨hbyte, hrest⟩ := List.append_inj h rfl
      rw [hexEncode_byte_inj hbyte, ih hrest]

/-- The arguments `IdempotencyKey` is specified for: two identifiers and two texts. -/
structure KeyInput (G : Runtime) (iss aud kind org : Bytes) : Prop where
  iss : classify G iss ≠ .unknown
  aud : classify G aud ≠ .unknown
  kind : Valid kind
  org : Valid org

theorem KeyInput.key {G : Runtime} {iss aud kind org : Bytes} (h : KeyInput G iss aud kind org)
    {req : List (Bytes × JsonDoc)} (hreq : req.Perm (requestMap kind org)) :
    ∃ b, canonicalize G (.obj (requestMap kind org)) = .ok b ∧
      idempotencyKeyOf G iss aud req =
        .ok (hexEncode (G.sha256 (iss ++ 0x1F :: (aud ++ 0x1F :: b)))) := by
  have hne : ¬ (iss = [] ∨ aud = []) := not_or.mpr
    ⟨identifier_ne_nil h.iss, identifier_ne_nil h.aud⟩
  have hreq' : req ≠ [] := by
    rintro rfl
    cases hreq.length_eq
  refine ⟨_, canonicalize_request G h.kind h.org, ?_⟩
  rw [idempotencyKeyOf, if_neg hne, if_neg hreq', canonicalize_perm G hreq,
    canonicalize_request G h.kind h.org]
  rfl

/-- `IdempotencyKey` returns a key for every request, whatever the order of its members, and
another one for every other request. -/
theorem idempotencyKey_separates (G : Runtime) (hsha : Function.Injective G.sha256) :
    (∀ iss aud kind org, KeyInput G iss aud kind org →
      ∃ key, ∀ req, req.Perm (requestMap kind org) → idempotencyKeyOf G iss aud req = .ok key) ∧
    ∀ iss aud kind org iss' aud' kind' org' req req' key,
      KeyInput G iss aud kind org → KeyInput G iss' aud' kind' org' →
      req.Perm (requestMap kind org) → req'.Perm (requestMap kind' org') →
      idempotencyKeyOf G iss aud req = .ok key → idempotencyKeyOf G iss' aud' req' = .ok key →
      iss = iss' ∧ aud = aud' ∧ kind = kind' ∧ org = org' := by
  constructor
  · intro iss aud kind org h
    obtain ⟨b, hb, -⟩ := h.key (List.Perm.refl _)
    refine ⟨hexEncode (G.sha256 (iss ++ 0x1F :: (aud ++ 0x1F :: b))), fun req hreq => ?_⟩
    obtain ⟨b', hb', hkey⟩ := h.key hreq
    rw [hkey, ← Except.ok.inj (hb.symm.trans hb')]
  · intro iss aud kind org iss' aud' kind' org' req req' key h h' hreq hreq' hkey hkey'
    obtain ⟨b, hb, heq⟩ := h.key hreq
    obtain ⟨b', hb', heq'⟩ := h'.key hreq'
    have hdigest : G.sha256 (iss ++ 0x1F :: (aud ++ 0x1F :: b)) =
        G.sha256 (iss' ++ 0x1F :: (aud' ++ 0x1F :: b')) := by
      have hok : (Except.ok (hexEncode (G.sha256 (iss ++ 0x1F :: (aud ++ 0x1F :: b)))) :
          GoM Bytes) = .ok (hexEncode (G.sha256 (iss' ++ 0x1F :: (aud' ++ 0x1F :: b')))) := by
        rw [← heq, ← heq', hkey, hkey']
      exact hexEncode_injective (Except.ok.inj hok)
    obtain ⟨rfl, hrest⟩ := append_cons_inj (separator_not_mem h.iss) (separator_not_mem h'.iss)
      (hsha hdigest)
    obtain ⟨rfl, rfl⟩ := append_cons_inj (separator_not_mem h.aud) (separator_not_mem h'.aud) hrest
    obtain ⟨rfl, rfl⟩ := canonicalize_inj h.kind h.org h'.kind h'.org hb hb'
    exact ⟨rfl, rfl, rfl, rfl⟩

/-- The text that is hashed for a request of `b@a.co` to `a.co`. -/
def hashedRequest (kind : String) : Bytes :=
  bytes "b@a.co" ++ 0x1F :: (bytes "a.co" ++ 0x1F ::
    bytes ("\x7b\"kind\":\"" ++ kind ++ "\",\"org\":\"a.co\"\x7d"))

def affiliationDigest : Bytes :=
  [66, 189, 11, 72, 44, 0, 105, 223, 70, 192, 233, 169, 108, 151, 154, 56, 10, 183, 218, 83,
    22, 169, 144, 28, 128, 110, 227, 94, 242, 20, 89, 113]

def membershipDigest : Bytes :=
  [231, 200, 48, 44, 185, 69, 121, 210, 234, 94, 197, 205, 40, 206, 57, 24, 82, 254, 100, 46,
    104, 86, 160, 68, 167, 237, 59, 69, 144, 178, 104, 122]

/-- A function without collisions that has the digests `dx` at `x` and `dy` at `y`. -/
def hashOn (x dx y dy b : Bytes) : Bytes :=
  if b = x then dx else if b = y then dy else List.replicate 33 0 ++ b

theorem hashOn_injective {x dx y dy : Bytes} (hne : dx ≠ dy) (hx : dx.length = 32)
    (hy : dy.length = 32) : Function.Injective (hashOn x dx y dy) := by
  have hlong : ∀ b d : Bytes, d.length = 32 → List.replicate 33 0 ++ b ≠ d := by
    rintro b d hd rfl
    simp at hd
  intro b b' h
  rw [hashOn, hashOn] at h
  split_ifs at h with h1 h2 h3 h4 h5 h6
  · rw [h1, h2]
  · exact absurd h hne
  · exact absurd h.symm (hlong b' dx hx)
  · exact absurd h.symm hne
  · rw [h4, h6]
  · exact absurd h.symm (hlong b' dy hy)
  · exact absurd h (hlong b dx hx)
  · exact absurd h (hlong b dy hy)
  · exact List.append_cancel_left h

/-- A function without collisions that is SHA-256 on the requests for two kinds. -/
def hashSample (b : Bytes) : Bytes :=
  if b = hashedRequest "org_affiliation" then affiliationDigest
  else if b = hashedRequest "membership" then membershipDigest
  else List.replicate 33 0 ++ b

theorem hashSample_injective : Function.Injective hashSample :=
  @hashOn_injective (hashedRequest "org_affiliation") affiliationDigest
    (hashedRequest "membership") membershipDigest (by decide) rfl rfl

def hashRuntime : Runtime := sampleRuntime hashSample fun _ _ _ _ => throw []

theorem keyInput_hash {kind : Bytes} (h : Valid kind) :
    KeyInput hashRuntime (bytes "b@a.co") (bytes "a.co") kind (bytes "a.co") :=
  ⟨by decide, by decide, h, by decide⟩

theorem idempotencyKey_separates_kinds :
    idempotencyKey hashRuntime (bytes "b@a.co") (bytes "a.co")
      ⟨bytes "org_affiliation", bytes "a.co"⟩ = .ok (hexEncode affiliationDigest) ∧
    ∀ key, idempotencyKey hashRuntime (bytes "b@a.co") (bytes "a.co")
      ⟨bytes "membership", bytes "a.co"⟩ = .ok key → key ≠ hexEncode affiliationDigest := by
  have hkey : idempotencyKey hashRuntime (bytes "b@a.co") (bytes "a.co")
      ⟨bytes "org_affiliation", bytes "a.co"⟩ = .ok (hexEncode affiliationDigest) := by
    decide
  refine ⟨hkey, ?_⟩
  rintro key hkey' rfl
  have hkinds :=
    ((idempotencyKey_separates hashRuntime hashSample_injective).2 _ _ _ _ _ _ _ _ _ _ _
    (keyInput_hash (by decide)) (keyInput_hash (by decide))
    (List.Perm.refl _) (List.Perm.refl _) hkey hkey').2.2.1
  exact absurd hkinds (by decide)

end Shadownet.Issuer
