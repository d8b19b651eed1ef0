import Shadownet.Cards.Hub
import Shadownet.Interop.Authorization
import Shadownet.Interop.Decoded
import Shadownet.Issuer.Routes
import Shadownet.Python.StatusFetch

/-!
# Where a verifier looks for a revocation list

`build_status_list_url` makes the URL from the issuer of the credential alone. The Go server
registers that path in domain mode; in keyed mode it registers the path of the configured
`StatusListBase`, which its AgentCard publishes and `status.py` does not read.

* `IssuedBy.domain`: the domain in the URL is the configured one, in canonical form.
* `statusLookup_iff`: the deployments whose list is found.
-/

namespace Shadownet.Interop

open Foundation Issuer
open Python (VerifiedCredential StatusClient StatusResponse StatusList checkRevocation
  acheckRevocation)

/-! ## The URL and the server behind it -/

/-- A credential of the issuer with an index in the epoch, as the verifier sees it. -/
structure IssuedBy (G : Python.Runtime) (h : Handler) (epoch : Nat) (cred : VerifiedCredential) :
    Prop where
  iss : Python.canonicalizeIssuerOrOrgIdentifier G (decoded h.cfg.issuerIdentifier) =
    .ok cred.payload.iss
  epoch : cred.payload.rev.epoch = natText epoch

/-- The base under which the issuer publishes its lists: its domain, or what its card says. -/
def publishedBase (h : Handler) (iss : Text) : Bytes :=
  if h.cfg.mode = .keyed then h.cfg.keyedAgentCardSubject.statusListBase
  else bytes "https://" ++ utf8 iss ++ bytes "/.well-known/shadownet/status"

/-- The path value with which the server behind the published base answers a `GET` of the URL
through `serveStatus`. -/
def answers (h : Handler) (iss : Text) (url : Bytes) : Option Bytes :=
  let origin := bytes "https://" ++
    (if h.cfg.mode = .keyed then authorityOf h.cfg.keyedAgentCardSubject.statusListBase
    else utf8 iss)
  if origin.isPrefixOf url then
    match h.dispatch (bytes "GET") (url.drop origin.length) with
    | some (.serveStatus, epoch) => some epoch
    | _ => none
  else none

/-- A network with this server: other URLs cannot be fetched. -/
def network (h : Handler) (iss : Text) (serve : Bytes → StatusResponse)
    (decompress : Bytes → Python.Py Bytes) (int : Text → Option Int) : StatusClient where
  get url :=
    match answers h iss (utf8 url) with
    | some epoch => pure (serve epoch)
    | none => throw ⟨.httpError, text "no such host"⟩
  decompress := decompress
  int := int

/-- The verifier's request reaches the list, and a credential whose bit is clear passes. -/
structure LooksUp (G : Python.Runtime) (h : Handler) (epoch : Nat) (cred : VerifiedCredential) :
    Prop where
  requested : ∃ url, Python.buildStatusListUrl cred.payload.iss cred.payload.rev.epoch = .ok url ∧
    utf8 url = publishedBase h cred.payload.iss ++ 0x2F :: utf8 (natText epoch) ∧
    answers h cred.payload.iss (utf8 url) = some (utf8 (natText epoch))
  passes : ∀ {serve decompress int l maxAge url},
    Python.interpretStatusResponse G (network h cred.payload.iss serve decompress int)
      (serve (utf8 (natText epoch))) url = .ok (l, maxAge) →
    StatusList.isRevoked l cred.payload.rev.idx = .ok false →
    checkRevocation G (network h cred.payload.iss serve decompress int) cred = .ok () ∧
      acheckRevocation G (network h cred.payload.iss serve decompress int) cred = .ok ()

section
variable {G : Go.Runtime} {G' : Python.Runtime} {cfg : HandlerInput} {h : Handler} {epoch : Nat}
  {cred : VerifiedCredential}

theorem isSegment_epoch (n : Nat) : IsSegment (utf8 (natText n)) := by
  have hascii : ∀ c ∈ natText n, CodePoint.IsAscii c := fun c hc => by
    have hdigit := isDigit_of_mem_natText hc
    rw [IsDigit] at hdigit
    show c.val < 0x80
    omega
  have hbytes : ∀ b ∈ utf8 (natText n), 48 ≤ b.toNat := by
    intro b hb
    rw [utf8_ascii hascii] at hb
    obtain ⟨c, hc, rfl⟩ := List.mem_map.mp hb
    have hdigit := isDigit_of_mem_natText hc
    rw [IsDigit] at hdigit
    rw [toNat_ofNat_of_lt (by omega)]
    exact hdigit.1
  have hne : utf8 (natText n) ≠ [] := by
    rw [utf8_ascii hascii]
    simpa using natText_ne_nil n
  have hdot : ∀ s : Bytes, (46 : UInt8) ∈ s → utf8 (natText n) ≠ s := by
    rintro _ hs rfl
    have := hbytes 46 hs
    simp at this
  refine ⟨hne, fun hslash => ?_, hdot _ (by decide), hdot _ (by decide)⟩
  have := hbytes _ hslash
  simp at this

/-- A response that is interpreted and a clear bit are all that the check needs. -/
theorem checkRevocation_passes {C : StatusClient} {url url' : Text} {response : StatusResponse}
    {l : StatusList} {maxAge : Option Int}
    (hurl : Python.buildStatusListUrl cred.payload.iss cred.payload.rev.epoch = .ok url)
    (hget : C.get url = .ok response)
    (hread : Python.interpretStatusResponse G' C response url' = .ok (l, maxAge))
    (hbit : StatusList.isRevoked l cred.payload.rev.idx = .ok false) :
    checkRevocation G' C cred = .ok () := by
  have hread' : Python.interpretStatusResponse G' C response url = .ok (l, maxAge) :=
    Python.interpretStatusResponse_eq_ok.mpr (Python.interpretStatusResponse_eq_ok.mp hread)
  rw [checkRevocation, Python.fetchStatusList, hurl, ok_bind, hget]
  change (Python.interpretStatusResponse G' C response url >>= _) = _
  rw [hread', ok_bind]
  change (StatusList.isRevoked l cred.payload.rev.idx >>= _) = _
  rw [hbit]
  rfl

theorem IssuedBy.iss_ne_nil (hissued : IssuedBy G' h epoch cred) : cred.payload.iss ≠ [] := by
  have hiss := hissued.iss
  rw [Python.canonicalizeIssuerOrOrgIdentifier] at hiss
  split_ifs at hiss with hkey
  · simp only [Python.validateMultibasePk, guard_eq_ok, bind_eq_ok, pure_eq_ok] at hiss
    obtain ⟨hstart, _, -, -, hiss⟩ := hiss
    intro hnil
    rw [hiss, hnil] at hstart
    revert hstart
    decide
  · simp only [Python.validateDomain, guard_eq_ok] at hiss
    obtain ⟨hlen, hiss⟩ := hiss
    split at hiss
    · cases hiss
    · rw [pure_eq_ok] at hiss
      rw [← hiss]
      exact fun hnil => hlen (.inl hnil)

/-- The URL a verifier requests. -/
theorem IssuedBy.requested (hissued : IssuedBy G' h epoch cred) :
    ∃ url, Python.buildStatusListUrl cred.payload.iss cred.payload.rev.epoch = .ok url ∧
      utf8 url = bytes "https://" ++ utf8 cred.payload.iss ++
        (statusPathPrefix ++ utf8 (natText epoch)) := by
  have hne : ¬ (cred.payload.iss = [] ∨ cred.payload.rev.epoch = []) := by
    rw [hissued.epoch]
    exact not_or.mpr ⟨hissued.iss_ne_nil, natText_ne_nil _⟩
  refine ⟨_, if_neg hne, ?_⟩
  rw [hissued.epoch]
  simp only [utf8_append, utf8_text, List.append_assoc]
  rfl

theorem IssuedBy.recognised (hissued : IssuedBy G' h epoch cred)
    (hascii : ∀ b ∈ h.cfg.issuerIdentifier, b.toNat < 0x80)
    (hgo : Go.classify G h.cfg.issuerIdentifier = .domain ∨
      Go.classify G h.cfg.issuerIdentifier = .pubKey) :
    utf8 (decoded h.cfg.issuerIdentifier) = h.cfg.issuerIdentifier ∧
      Recognised G G' (decoded h.cfg.issuerIdentifier) cred.payload.iss := by
  have hutf8 : utf8 (decoded h.cfg.issuerIdentifier) = h.cfg.issuerIdentifier := by
    rw [decoded_ascii hascii, utf8_latin hascii]
  refine ⟨hutf8, fun c hc => ?_, by rwa [hutf8], hissued.iss⟩
  rw [decoded_ascii hascii] at hc
  obtain ⟨b, hb, rfl⟩ := List.mem_map.mp hc
  rw [CodePoint.IsAscii, latin_val]
  exact hascii b hb

/-- The domain in the URL is the canonical form that Go gives to the configured one. -/
theorem IssuedBy.domain (hissued : IssuedBy G' h epoch cred)
    (hascii : ∀ b ∈ h.cfg.issuerIdentifier, b.toNat < 0x80)
    (hdomain : Go.classify G h.cfg.issuerIdentifier = .domain) :
    Go.canonicalDomain G h.cfg.issuerIdentifier = .ok (utf8 cred.payload.iss) := by
  obtain ⟨hutf8, hrec⟩ := hissued.recognised hascii (.inl hdomain)
  have hcanonical := (hrec.domain (by rwa [hutf8])).2.2
  rwa [hutf8] at hcanonical

/-- The issuer of a keyed Hub is its key. -/
theorem IssuedBy.key (hissued : IssuedBy G' h epoch cred)
    (hkey : Go.classify G h.cfg.issuerIdentifier = .pubKey) :
    utf8 cred.payload.iss = h.cfg.issuerIdentifier ∧ 0x2F ∉ h.cfg.issuerIdentifier := by
  obtain ⟨raw, hraw⟩ : ∃ raw, Go.decodePubKey G h.cfg.issuerIdentifier = .ok raw := by
    rw [Go.classify] at hkey
    split_ifs at hkey with hat hat' hp hok
    exact isOk_iff.mp hok
  have halphabet := Go.alphabet_of_decodePubKey hraw
  obtain ⟨hutf8, hrec⟩ := hissued.recognised (fun b hb => Go.alphabet_ascii (halphabet b hb))
    (.inr hkey)
  refine ⟨?_, fun hslash => ?_⟩
  · rw [(hrec.key (by rwa [hutf8])).1, hutf8]
  · have hmem := halphabet _ hslash
    revert hmem
    decide

/-- The server behind the published base passes the requested path on. -/
theorem answers_of_published (hnew : newHandler G cfg = .ok h) (hmode : cfg.mode ≠ .other)
    (hissued : IssuedBy G' h epoch cred)
    (hbase : cfg.mode = .keyed → cfg.keyedAgentCardSubject.statusListBase =
      bytes "https://" ++ utf8 cred.payload.iss ++ bytes "/.well-known/shadownet/status") :
    answers h cred.payload.iss (bytes "https://" ++ utf8 cred.payload.iss ++
      (statusPathPrefix ++ utf8 (natText epoch))) = some (utf8 (natText epoch)) := by
  obtain ⟨-, hcheck, rfl, -⟩ := newHandler_eq_ok hnew
  have horigin : (if h.cfg.mode = .keyed then
      authorityOf h.cfg.keyedAgentCardSubject.statusListBase else utf8 cred.payload.iss) =
        utf8 cred.payload.iss ∧ (h.cfg.mode = .domain ∨ h.cfg.mode = .keyed ∧
          stripScheme h.cfg.keyedAgentCardSubject.statusListBase ++ [0x2F] = statusPathPrefix) := by
    by_cases hkeyed : h.cfg.mode = .keyed
    · obtain ⟨hiss, hslash⟩ := hissued.key (checkMode_keyed hkeyed hcheck).2.2.2
      obtain ⟨hpath, hauthority⟩ := @stripScheme_https (utf8 cred.payload.iss)
        (bytes ".well-known/shadownet/status") (by rw [hiss]; exact hslash)
      rw [if_pos hkeyed, hbase hkeyed]
      exact ⟨hauthority, .inr ⟨hkeyed, congrArg (· ++ [0x2F]) hpath⟩⟩
    · rw [if_neg hkeyed]
      refine ⟨rfl, .inl ?_⟩
      cases hm : h.cfg.mode with
      | domain => rfl
      | keyed => exact absurd hm hkeyed
      | other => exact absurd hm hmode
  rw [answers, horigin.1, if_pos (List.isPrefixOf_iff_prefix.mpr (List.prefix_append _ _)),
    List.drop_left, dispatch_status (isSegment_epoch epoch) horigin.2]

/-- A URL that cannot be fetched fails the check. -/
theorem checkRevocation_unreachable {C : StatusClient} {url msg : Text}
    (hurl : Python.buildStatusListUrl cred.payload.iss cred.payload.rev.epoch = .ok url)
    (hget : C.get url = .error ⟨.httpError, msg⟩) :
    ∃ e, checkRevocation G' C cred = .error e ∧ e.cls = .statusListError := by
  rw [checkRevocation, Python.fetchStatusList, hurl, ok_bind, hget]
  exact ⟨_, rfl, rfl⟩

/-- A list is found in domain mode, and in keyed mode when the published base is the one that a
domain with the name of the key would have. -/
theorem statusLookup_iff (hnew : newHandler G cfg = .ok h) (hmode : cfg.mode ≠ .other)
    (hissued : IssuedBy G' h epoch cred) :
    LooksUp G' h epoch cred ↔ cfg.mode = .domain ∨
      cfg.keyedAgentCardSubject.statusListBase =
        bytes "https://" ++ utf8 cred.payload.iss ++ bytes "/.well-known/shadownet/status" := by
  obtain ⟨url, hurl, hutf8⟩ := hissued.requested
  have hcfg := (newHandler_eq_ok hnew).2.2.1
  have hsplit : utf8 url = bytes "https://" ++ utf8 cred.payload.iss ++
      bytes "/.well-known/shadownet/status" ++ 0x2F :: utf8 (natText epoch) := by
    have hstatus : statusPathPrefix = bytes "/.well-known/shadownet/status" ++ [0x2F] := rfl
    rw [hutf8, hstatus]
    simp only [List.append_assoc, List.singleton_append]
  constructor
  · rintro ⟨⟨url', hurl', hbase, -⟩, -⟩
    cases hurl.symm.trans hurl'
    cases hm : cfg.mode with
    | domain => exact .inl rfl
    | other => exact absurd hm hmode
    | keyed =>
      right
      rw [hsplit, publishedBase, hcfg, if_pos hm] at hbase
      exact (List.append_cancel_right hbase).symm
  · intro hcond
    have hanswers := answers_of_published hnew hmode hissued fun hkeyed =>
      hcond.resolve_left (by rw [hkeyed]; decide)
    rw [← hutf8] at hanswers
    refine ⟨⟨url, hurl, ?_, hanswers⟩, fun {serve decompress int l maxAge url'} hread hbit => ?_⟩
    · rw [hsplit, publishedBase, hcfg]
      by_cases hkeyed : cfg.mode = .keyed
      · rw [if_pos hkeyed, hcond.resolve_left (by rw [hkeyed]; decide)]
      · rw [if_neg hkeyed]
    · have hget : (network h cred.payload.iss serve decompress int).get url =
          .ok (serve (utf8 (natText epoch))) := by
        rw [network]
        dsimp only
        rw [hanswers]
        rfl
      have hpass := checkRevocation_passes hurl hget hread hbit
      exact ⟨hpass, Python.acheckRevocation_eq ▸ hpass⟩

end

/-! ### An issuer at `a.co` and a Hub at `h.co` -/

def sampleDomain : HandlerInput :=
  { Cards.sampleHub with mode := .domain, issuerIdentifier := bytes "a.co" }

def sampleDomainHandler : Handler :=
  { Cards.sampleHandler with cfg := sampleDomain }

theorem newHandler_domain : newHandler plainGo sampleDomain = .ok sampleDomainHandler := by
  have hmode : Issuer.checkMode plainGo sampleDomain = .ok () := by decide
  have hlen : sampleDomain.signer.length = 64 := by decide
  rw [newHandler, if_neg (by decide), if_neg (by decide), if_neg (by decide),
    if_neg (by rw [hlen]; decide), if_neg (by decide), if_neg (by decide), hmode, ok_bind,
    show Go.encodePubKey (Go.publicKey sampleDomain.signer) = _ from Cards.encodePubKey_sample]
  rfl

/-- The credential with the index 0 of the epoch 1. -/
def firstOf (iss : Text) : VerifiedCredential where
  payload := ⟨iss, text "b@a.co", Python.orgAffiliation, iss, 0, 604800, ⟨text "1", 0⟩, []⟩
  issuerKey := []
  rawJws := []

theorem statusLookup_domain : LooksUp Python.bareRuntime sampleDomainHandler 1
    (firstOf (text "a.co")) :=
  (statusLookup_iff newHandler_domain (by decide) ⟨by decide, by decide⟩).mpr
    (.inl rfl)

/-- The Hub at `h.co` publishes `https://h.co/s`, and the verifier asks a host with the name of its
key. -/
theorem statusLookup_keyed :
    newHandler plainGo Cards.sampleHub = .ok Cards.sampleHandler ∧
      IssuedBy Python.bareRuntime Cards.sampleHandler 1
        (firstOf (decoded Cards.sampleHub.issuerIdentifier)) ∧
      ¬ LooksUp Python.bareRuntime Cards.sampleHandler 1
        (firstOf (decoded Cards.sampleHub.issuerIdentifier)) ∧
      ∀ serve decompress int, ∃ e, checkRevocation Python.bareRuntime
        (network Cards.sampleHandler (decoded Cards.sampleHub.issuerIdentifier) serve decompress
          int)
        (firstOf (decoded Cards.sampleHub.issuerIdentifier)) = .error e ∧
          e.cls = .statusListError := by
  have hissued : IssuedBy Python.bareRuntime Cards.sampleHandler 1
      (firstOf (decoded Cards.sampleHub.issuerIdentifier)) :=
    ⟨by decide, by decide⟩
  obtain ⟨url, hurl, hutf8⟩ := hissued.requested
  have hnone : answers Cards.sampleHandler (decoded Cards.sampleHub.issuerIdentifier) (utf8 url) =
      none := by
    rw [hutf8]
    decide
  refine ⟨Cards.newHandler_sample, hissued, fun h => ?_, fun serve decompress int => ?_⟩
  · obtain ⟨url', hurl', -, hanswers⟩ := h.requested
    cases hurl.symm.trans hurl'
    cases hnone.symm.trans hanswers
  · refine @checkRevocation_unreachable _ _ _ _ (text "no such host") hurl ?_
    rw [network]
    dsimp only
    rw [hnone]
    rfl

end Shadownet.Interop
