import Shadownet.Receiver.Async
import Shadownet.Receiver.Holder

/-!
# Issuer keys in a rotation

A provider that rotates its key publishes several, and a verifier must accept any of them.
The resolvers of issuer keys return the first one only. `rotation_accepts` says when a
credential that is signed under one of the keys is accepted all the same, and
`rotation_rejects` is a record whose second key signed.
-/

namespace Shadownet.Receiver

open Foundation Python

/-! ## The verifiers -/

/-- `default_issuer_key_resolver`, with `lookup_provider_record` as the lookup. -/
def defaultIssuerKeyResolver (G : Runtime) : Text → Rx Text := resolveIssuerKey G

/-- `default_async_issuer_key_resolver`. -/
def defaultAsyncIssuerKeyResolver (G : Runtime) : Text → Rx Text := asyncResolveIssuerKey G

/-- `default_issuer_authorization_check`. -/
def defaultIssuerAuthorizationCheck (G : Runtime) : Text → Text → Rx Unit :=
  checkIssuerAuthorizedForOrg G

/-- `default_async_issuer_authorization_check`. -/
def defaultAsyncIssuerAuthorizationCheck (G : Runtime) : Text → Text → Rx Unit :=
  asyncCheckIssuerAuthorizedForOrg G

/-- The four ways to verify a credential. -/
inductive Verifier where
  | pipeline
  | asyncPipeline
  | default
  | asyncDefault

def Verifier.verify (G : Runtime) (token : Text) (now leeway : Int) :
    Verifier → Rx VerifiedCredential
  | .pipeline => verifyCredential G token now leeway (resolveIssuerKey G)
      (checkIssuerAuthorizedForOrg G)
  | .asyncPipeline => averifyCredential G token now leeway (asyncResolveIssuerKey G)
      (asyncCheckIssuerAuthorizedForOrg G)
  | .default => verifyCredential G token now leeway (defaultIssuerKeyResolver G)
      (defaultIssuerAuthorizationCheck G)
  | .asyncDefault => averifyCredential G token now leeway (defaultAsyncIssuerKeyResolver G)
      (defaultAsyncIssuerAuthorizationCheck G)

/-- The check of the issuer's authority that each of them makes. -/
def Verifier.authorize (G : Runtime) : Verifier → Text → Text → Rx Unit
  | .pipeline => checkIssuerAuthorizedForOrg G
  | .asyncPipeline => asyncCheckIssuerAuthorizedForOrg G
  | .default => defaultIssuerAuthorizationCheck G
  | .asyncDefault => defaultAsyncIssuerAuthorizationCheck G

theorem Verifier.authorize_eq (v : Verifier) (G : Runtime) (issuer org : Text) :
    v.authorize G issuer org = checkIssuerAuthorizedForOrg G issuer org := by
  cases v with
  | pipeline => rfl
  | asyncPipeline => exact asyncCheckIssuerAuthorizedForOrg_eq G issuer org
  | default => rfl
  | asyncDefault => exact asyncCheckIssuerAuthorizedForOrg_eq G issuer org

/-- They are one. -/
theorem Verifier.verify_eq (v : Verifier) (G : Runtime) (token : Text) (now leeway : Int) :
    v.verify G token now leeway = verifyCredential G token now leeway (resolveIssuerKey G)
      (checkIssuerAuthorizedForOrg G) := by
  have hkey : asyncResolveIssuerKey G = resolveIssuerKey G := funext (asyncResolveIssuerKey_eq G)
  have horg : asyncCheckIssuerAuthorizedForOrg G = checkIssuerAuthorizedForOrg G :=
    funext fun issuer => funext (asyncCheckIssuerAuthorizedForOrg_eq G issuer)
  cases v with
  | pipeline => rfl
  | asyncPipeline => rw [verify, averifyCredential_eq, hkey, horg]
  | default => rfl
  | asyncDefault =>
    rw [verify, averifyCredential_eq, defaultAsyncIssuerKeyResolver,
      defaultAsyncIssuerAuthorizationCheck, hkey, horg]

/-! ## A published record -/

/-- The network, where `issuer` publishes `record`. -/
def Plugs.publish (P : Plugs) (issuer : Text) (record : ProviderRecord) : Plugs :=
  { P with providerLookup := fun n => Function.update (P.providerLookup n) issuer (.ok record) }

/-- The token is accepted. -/
def Verifier.Accepts (v : Verifier) (G : Runtime) (P : Plugs) (w : World) (token : Text)
    (now leeway : Int) : Prop :=
  ∃ c, (Fallible.execute P.answer (v.verify G token now leeway) w).1 = .ok c

/-- The signature of the token verifies under the key. -/
def SignedUnder (G : Runtime) (token key : Text) : Prop :=
  checkIssuerSignature G token key = .ok ()

/-- A credential of a domain that passes every check but that of its signature, when the
domain's record is looked up in `w`. -/
structure OtherwiseValid (G : Runtime) (P : Plugs) (w : World) (token : Text)
    (now leeway : Int) (issuer : Text) : Prop where
  domain : isPublicKeyIdentifier issuer = false
  claims : ∃ p, checkClaims G token now leeway = .ok p ∧ p.iss = issuer ∧
    (Fallible.execute P.answer (checkIssuerAuthorizedForOrg G issuer p.org)
      ⟨w.stores, w.turn + 1⟩).1 = .ok ()

section
variable {G : Runtime} {P : Plugs} {w : World} {token issuer : Text} {now leeway : Int}
  {record : ProviderRecord}

theorem execute_askPy {α : Type} (o : Op) (raised : Ans o → Py α) :
    Fallible.execute P.answer (askPy o raised) w = (raised (P.answer w o).1, (P.answer w o).2) :=
  rfl

/-- What the lookup of a published record gives. -/
theorem resolve_published {key : Text} {keys : List Text}
    (hdomain : isPublicKeyIdentifier issuer = false) (hkeys : record.providerKeys = key :: keys) :
    Fallible.execute (P.publish issuer record).answer (resolveIssuerKey G issuer) w =
      (.ok key, ⟨w.stores, w.turn + 1⟩) := by
  have hlookup : (P.publish issuer record).providerLookup w.turn issuer = .ok record :=
    Function.update_self ..
  rw [resolveIssuerKey, hdomain, if_neg Bool.false_ne_true]
  have hask : ∀ classes convert, Fallible.execute (P.publish issuer record).answer
      (Fallible.mapOutcome (reraise classes convert) (askPy (.providerLookup issuer) id)) w =
        (.ok record, ⟨w.stores, w.turn + 1⟩) := by
    intro classes convert
    rw [Fallible.execute_mapOutcome, execute_askPy]
    simp only [Plugs.answer, id, hlookup, reraise]
  rw [Fallible.execute_bind_ok (hask _ _), hkeys]
  rfl

/-- The check for the organisation never looks up the issuer itself. -/
theorem authorized_published (org : Text) :
    Fallible.execute (P.publish issuer record).answer (checkIssuerAuthorizedForOrg G issuer org) w =
      Fallible.execute P.answer (checkIssuerAuthorizedForOrg G issuer org) w := by
  unfold checkIssuerAuthorizedForOrg
  split_ifs with heq hkeyed
  · rfl
  · rfl
  refine Fallible.execute_bind_congr rfl fun sub w₁ => ?_
  cases sub with
  | true => rfl
  | false =>
    have hlookup : (P.publish issuer record).answer w₁ (.providerLookup org) =
        P.answer w₁ (.providerLookup org) := by
      simp only [Plugs.answer, Plugs.publish, Function.update_of_ne (Ne.symm heq)]
    refine Fallible.execute_bind_congr ?_ fun r w₂ => ?_
    · rw [Fallible.execute_mapOutcome, Fallible.execute_mapOutcome, execute_askPy, execute_askPy,
        hlookup]
    · split_ifs <;> rfl

/-- The signature is checked under the first key of the record. -/
theorem Verifier.accepts_iff {key : Text} {keys : List Text} (v : Verifier)
    (hv : OtherwiseValid G P w token now leeway issuer)
    (hkeys : record.providerKeys = key :: keys) :
    v.Accepts G (P.publish issuer record) w token now leeway ↔ SignedUnder G token key := by
  obtain ⟨p, hclaims, rfl, horg⟩ := hv.claims
  have hkey := resolve_published (G := G) (P := P) (w := w) hv.domain hkeys
  rw [← @authorized_published G P _ p.iss record] at horg
  rw [Accepts, verify_eq, verifyCredential, hclaims]
  rw [Fallible.execute_bind_ok (Fallible.execute_ofExcept _ _), Fallible.execute_bind_ok hkey]
  unfold SignedUnder
  cases hsig : checkIssuerSignature G token key with
  | error e =>
    rw [Fallible.execute_bind_error (Fallible.execute_ofExcept _ _)]
    simp
  | ok u =>
    rw [Fallible.execute_bind_ok (Fallible.execute_ofExcept _ _),
      Fallible.execute_bind_ok (Prod.ext horg rfl), Fallible.execute_pure]
    simp

/-- A credential signed under one of the published keys is accepted exactly when the first of
them is such a key, and accepted in every order of the keys exactly when all of them are. -/
theorem rotation_accepts (v : Verifier) (hv : OtherwiseValid G P w token now leeway issuer)
    (hsigned : ∃ key ∈ record.providerKeys, SignedUnder G token key) :
    (v.Accepts G (P.publish issuer record) w token now leeway ↔
      ∃ key, record.providerKeys.head? = some key ∧ SignedUnder G token key) ∧
    ((∀ keys, keys.Perm record.providerKeys →
        v.Accepts G (P.publish issuer { record with providerKeys := keys }) w token now leeway) ↔
      ∀ key ∈ record.providerKeys, SignedUnder G token key) := by
  obtain ⟨some, hmem, -⟩ := hsigned
  constructor
  · obtain ⟨key, keys, hkeys⟩ := List.exists_cons_of_ne_nil (List.ne_nil_of_mem hmem)
    rw [v.accepts_iff hv hkeys, hkeys]
    simp
  · constructor
    · intro h key hkey
      have hperm := List.perm_cons_erase hkey
      exact (v.accepts_iff hv rfl).mp (h _ hperm.symm)
    · intro h keys hperm
      obtain ⟨key, rest, rfl⟩ :=
        List.exists_cons_of_ne_nil (List.ne_nil_of_mem (hperm.mem_iff.mpr hmem))
      exact (v.accepts_iff hv rfl).mpr (h key (hperm.mem_iff.mp (by simp)))

end

/-! ## The credential of a member, signed with the second key -/

/-- Two keys, of which the second signed the credential. -/
def rotatedRecord : ProviderRecord :=
  ⟨text "b.co", text "0.2", text "https://b.co",
    [text "z6Mkon3Necd6NkkyfoGoHxid2znGc59LU3K7mubaRcFbLfLX", issuerKeyText], true, []⟩

/-- A network with nothing published. -/
def deadNetwork : Plugs where
  clock _ := 200
  providerLookup _ _ := .error ⟨.providerResolutionError, []⟩
  fetchAgentCard _ _ _ := .error ⟨.agentCardError, []⟩
  revocationCheck _ _ := .error ⟨.statusListError, []⟩

/-- The two keys in the other order. -/
def swappedRecord : ProviderRecord :=
  { rotatedRecord with providerKeys := rotatedRecord.providerKeys.reverse }

theorem member_valid : OtherwiseValid (strangerRuntime false) deadNetwork ⟨Stores.empty 200, 0⟩
    (credToken false) 200 60 (text "b.co") := by
  obtain ⟨-, -, -, hclaims, -, -⟩ := stranger_checks false
  refine ⟨by decide, _, hclaims, rfl, ?_⟩
  have horg : (strangerCredential false).payload.org = text "b.co" := rfl
  rw [horg, checkIssuerAuthorizedForOrg, if_pos rfl]
  rfl

theorem member_signed : SignedUnder (strangerRuntime false) (credToken false) issuerKeyText := by
  obtain ⟨-, -, -, -, hsig, -⟩ := stranger_checks false
  exact hsig

/-- With the key of the signature published first the credential is accepted. -/
theorem rotation_accepts_member :
    Verifier.Accepts .pipeline (strangerRuntime false)
      (deadNetwork.publish (text "b.co") swappedRecord) ⟨Stores.empty 200, 0⟩ (credToken false)
      200 60 := by
  have hmem : issuerKeyText ∈ swappedRecord.providerKeys := by
    simp [swappedRecord, rotatedRecord]
  have haccepts := rotation_accepts .pipeline member_valid ⟨issuerKeyText, hmem, member_signed⟩
  exact haccepts.1.mpr ⟨issuerKeyText, rfl, member_signed⟩

/-- With the same key published as the second one it is rejected. -/
theorem rotation_rejects :
    OtherwiseValid (strangerRuntime false) deadNetwork ⟨Stores.empty 200, 0⟩ (credToken false)
      200 60 (text "b.co") ∧
    (∃ key ∈ rotatedRecord.providerKeys,
      SignedUnder (strangerRuntime false) (credToken false) key) ∧
    ∀ v : Verifier, ¬ v.Accepts (strangerRuntime false)
      (deadNetwork.publish (text "b.co") rotatedRecord) ⟨Stores.empty 200, 0⟩ (credToken false)
      200 60 := by
  refine ⟨member_valid, ⟨issuerKeyText, by simp [rotatedRecord], member_signed⟩, fun v h => ?_⟩
  have hsig := (v.accepts_iff member_valid rfl).mp h
  revert hsig
  unfold SignedUnder
  decide +kernel

end Shadownet.Receiver
