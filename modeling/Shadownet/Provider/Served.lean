import Shadownet.Cards.Hub
import Shadownet.Provider.Identity

/-!
# What the identity server answers over a run

Any sequence of `admin add`, `admin remove` and requests, over any implementation of the store.

* `identity_after_run`: a request is answered with the signed card of the newest command that went
  through for the name in any letter case, and with 404 without one; a card never fails to be
  signed.
* `revalidation_exact`: a client that sends the tag of a card it was served is told that nothing
  changed when no command went through for the name since, and is never told so of another card.
-/

namespace Shadownet.Provider

open Foundation Go
open Interop (Valid)

/-- A configuration a provider can be deployed with. -/
structure Deployed (G : Runtime) (h : Handler) : Prop where
  domain : classify G h.providerDomain = .domain
  valid : Valid h.providerDomain
  signer : h.signer.length = 64

section
variable {σ : Type} {G : Runtime} {S : Signer} {h : Handler} {I : StoreImpl σ}
  {Takes : Bytes → Prop} [DecidablePred Takes] {cardOf : σ → Directory}

/-! ## Cards are signed -/

theorem cardKid_of_deployed (hd : Deployed G h) (pk : Bytes) :
    ∃ kid, cardKid G .shadowname h.providerDomain pk = .ok kid := by
  have hne : h.providerDomain ≠ [] := by
    intro hnil
    have := hd.domain
    rw [hnil] at this
    cases this
  exact ⟨_, (if_neg hne).trans (if_neg (not_not.mpr hd.domain))⟩

/-- A card with a key, a URL and valid texts is signed. -/
theorem signCard_of_valid (hd : Deployed G h) (S : Signer) {c : ProviderCard}
    (hkey : classify G c.shadowPublicKey = .pubKey) (hurl : c.a2aURL ≠ [])
    (hvalid : ∀ t ∈ columns c, Valid t) :
    ∃ body, c.signCard G S h.providerDomain h.signer = .ok body := by
  have hne : c.shadowPublicKey ≠ [] := by
    intro hnil
    rw [hnil] at hkey
    cases hkey
  simp only [columns, List.forall_mem_cons, List.not_mem_nil, false_imp_iff, implies_true,
    and_true] at hvalid
  obtain ⟨hlocal, hpk, ha2a, hname, hdescription, hversion⟩ := hvalid
  have hcardName : Valid c.cardName := by
    rw [ProviderCard.cardName]
    split_ifs
    · exact hname
    · exact hlocal
  have hcardDescription : Valid (c.cardDescription h.providerDomain) := by
    rw [ProviderCard.cardDescription]
    split_ifs
    · exact hdescription
    · obtain ⟨hutf8, hclean⟩ := Interop.decoded_of_valid hlocal
      obtain ⟨hutf8', hclean'⟩ := Interop.decoded_of_valid hd.valid
      have happend : c.localPart ++ 0x40 :: h.providerDomain =
          utf8 (Interop.decoded c.localPart ++ (text "@" ++ Interop.decoded h.providerDomain)) := by
        rw [utf8_append, utf8_append, hutf8, hutf8', utf8_text]
        rfl
      rw [happend]
      refine Interop.valid_utf8 ?_
      exact List.forall_mem_append.mpr
        ⟨hclean, List.forall_mem_append.mpr ⟨Interop.clean_text "@", hclean'⟩⟩
  have hcardVersion : Valid (ProviderCard.versionOr c.version) := by
    rw [ProviderCard.versionOr, orDefault]
    split_ifs
    · exact Interop.valid_bytes _
    · exact hversion
  have hempty : Valid [] := by decide
  obtain ⟨kid, hkid⟩ := cardKid_of_deployed hd c.shadowPublicKey
  have hbuild : buildCard G (c.body h.providerDomain) =
      .ok ((c.body h.providerDomain).required ++ (c.body h.providerDomain).optional) :=
    Cards.buildCard_eq_ok.mpr ⟨hne, hkey, hurl, rfl⟩
  obtain ⟨signed, hsigned⟩ := Cards.signBody_of_readable G S rfl
    (Cards.readable_body (b := c.body h.providerDomain) rfl hcardName hcardDescription hcardVersion
      ha2a rfl rfl hpk hempty hempty)
    hd.signer hkid
  exact ⟨_, Cards.signCard_eq_ok.mpr ⟨_, signed, hbuild, hsigned, rfl⟩⟩

theorem check_eq_ok {a : AddArgs} (hcheck : a.check G = .ok ()) :
    a.a2aURL ≠ [] ∧ classify G a.pk = .pubKey := by
  rw [AddArgs.check, guard_eq_ok, guard_eq_ok, not_or, not_or, not_not] at hcheck
  exact ⟨hcheck.1.2.2, hcheck.2.1⟩

/-- What goes through of a command that adds a card. -/
theorem card_of_write {e : Event} {k : Bytes} {c : ProviderCard}
    (hw : writeOf G Takes e = some (k, some c)) :
    c.localPart = k ∧ (∀ t ∈ columns c, Takes t) ∧ classify G c.shadowPublicKey = .pubKey ∧
      c.a2aURL ≠ [] := by
  obtain ⟨command, fault⟩ := e
  cases command with
  | add now a =>
    rw [writeOf_add] at hw
    split_ifs at hw with hgo
    cases hw
    obtain ⟨hurl, hkey⟩ := check_eq_ok hgo.2.1
    exact ⟨rfl, hgo.2.2, hkey, hurl⟩
  | remove loc =>
    rw [writeOf_remove] at hw
    split_ifs at hw
    cases hw
  | get pathValue ifNoneMatch => cases hw

theorem card_of_newest {es : List Event} {k : Bytes} {c : ProviderCard}
    (hc : Newest (writes G Takes es) k (some c)) : (k, some c) ∈ writes G Takes es ∧
      c.localPart = k ∧ (∀ t ∈ columns c, Takes t) ∧ classify G c.shadowPublicKey = .pubKey ∧
      c.a2aURL ≠ [] := by
  obtain ⟨before, after, heq, -⟩ := hc
  have hmem : (k, some c) ∈ writes G Takes es := by
    rw [heq]
    exact List.mem_append_right _ List.mem_cons_self
  obtain ⟨e, -, hw⟩ := List.mem_filterMap.mp hmem
  exact ⟨hmem, card_of_write hw⟩

/-- The texts of the cards that were added are valid UTF-8. -/
def ValidTexts (G : Runtime) (Takes : Bytes → Prop) [DecidablePred Takes] (es : List Event) :
    Prop :=
  ∀ k c, (k, some c) ∈ writes G Takes es → ∀ t ∈ columns c, Valid t

/-! ## The answers -/

/-- The state after a run from the empty store. -/
def stateAfter (G : Runtime) (S : Signer) (h : Handler) (I : StoreImpl σ) (es : List Event) : σ :=
  final (step G S h I) I.empty es

/-- The answer to `GET /identity/{local}` after a run, when the store does not fail. -/
def answer (G : Runtime) (S : Signer) (h : Handler) (I : StoreImpl σ) (es : List Event)
    (pathValue ifNoneMatch : Bytes) : Response :=
  serveIdentity G S h pathValue ifNoneMatch (I.getRecord (stateAfter G S h I es))

theorem answer_of_newest (hI : Implements I Takes cardOf) {es : List Event}
    {pathValue : Bytes} {c : ProviderCard} (hname : G.lower pathValue ≠ [])
    (htakes : Takes (G.lower pathValue))
    (hc : Newest (writes G Takes es) (G.lower pathValue) (some c)) (ifNoneMatch : Bytes) :
    answer G S h I es pathValue ifNoneMatch = respond G S h c ifNoneMatch := by
  have hcard : cardOf (stateAfter G S h I es) (G.lower pathValue) = some c := by
    rw [stateAfter, cards_of_run hI]
    exact replay_eq_some_iff.mpr hc
  obtain ⟨r, hr, hrc⟩ := @Implements.get_some _ _ _ _ hI _ _ _ htakes hcard
  rw [answer, serveIdentity]
  simp only [if_neg hname, hr, hrc]

theorem answer_of_unregistered (hI : Implements I Takes cardOf) {es : List Event}
    {pathValue : Bytes} (hname : G.lower pathValue ≠ []) (htakes : Takes (G.lower pathValue))
    (hno : ∀ c, ¬ Newest (writes G Takes es) (G.lower pathValue) (some c)) (ifNoneMatch : Bytes) :
    answer G S h I es pathValue ifNoneMatch = httpError "unknown shadowname" 404 := by
  have hcard : cardOf (stateAfter G S h I es) (G.lower pathValue) = none := by
    rw [stateAfter, cards_of_run hI]
    refine Option.eq_none_iff_forall_ne_some.mpr fun c hc => ?_
    exact hno c (replay_eq_some_iff.mp hc)
  have hr := @Implements.get_none _ _ _ _ hI _ _ htakes hcard
  rw [answer, serveIdentity]
  simp only [if_neg hname, hr]

theorem etag_ne_nil (body : Bytes) : etag G body ≠ [] := by
  rw [etag]
  exact List.cons_ne_nil _ _

theorem respond_of_signed {c : ProviderCard} {body : Bytes}
    (hsign : c.signCard G S h.providerDomain h.signer = .ok body) (ifNoneMatch : Bytes) :
    respond G S h c ifNoneMatch =
      if ifNoneMatch = etag G body then notModified G body else cardResponse G h body := by
  rw [respond, hsign]
  refine if_congr ⟨And.right, fun heq => ⟨?_, heq⟩⟩ rfl rfl
  rw [heq]
  exact etag_ne_nil body

/-- A registered name is answered with its signed card, or told that it is not modified. -/
theorem answer_signed (hI : Implements I Takes cardOf) (hd : Deployed G h) {es : List Event}
    (hvalid : ValidTexts G Takes es) {pathValue : Bytes} {c : ProviderCard}
    (hname : G.lower pathValue ≠ []) (htakes : Takes (G.lower pathValue))
    (hc : Newest (writes G Takes es) (G.lower pathValue) (some c)) :
    ∃ body, c.signCard G S h.providerDomain h.signer = .ok body ∧ ∀ ifNoneMatch,
      answer G S h I es pathValue ifNoneMatch =
        if ifNoneMatch = etag G body then notModified G body else cardResponse G h body := by
  obtain ⟨hmem, -, -, hkey, hurl⟩ := card_of_newest hc
  obtain ⟨body, hbody⟩ := signCard_of_valid hd S hkey hurl (hvalid _ _ hmem)
  refine ⟨body, hbody, fun ifNoneMatch => ?_⟩
  rw [answer_of_newest hI hname htakes hc, respond_of_signed hbody]

/-- A request that is answered with a card, or told that it is not modified, is for a registered
name, whose card is signed. -/
theorem signed_of_answer (hI : Implements I Takes cardOf) {es : List Event}
    {pathValue ifNoneMatch : Bytes}
    (hanswer : (answer G S h I es pathValue ifNoneMatch).status = 200 ∨
      (answer G S h I es pathValue ifNoneMatch).status = 304) :
    G.lower pathValue ≠ [] ∧ Takes (G.lower pathValue) ∧ ∃ c body,
      Newest (writes G Takes es) (G.lower pathValue) (some c) ∧
      c.signCard G S h.providerDomain h.signer = .ok body ∧
      ∀ tag, answer G S h I es pathValue tag =
        if tag = etag G body then notModified G body else cardResponse G h body := by
  have hname : G.lower pathValue ≠ [] := by
    intro hnil
    have hmissing : answer G S h I es pathValue ifNoneMatch = httpError "missing local" 400 :=
      if_pos hnil
    rw [hmissing] at hanswer
    revert hanswer
    exact (by decide : ¬ ((400 : Nat) = 200 ∨ (400 : Nat) = 304))
  have hfailed : answer G S h I es pathValue ifNoneMatch ≠ httpError "internal error" 500 := by
    intro hfailed
    rw [hfailed] at hanswer
    revert hanswer
    exact (by decide : ¬ ((500 : Nat) = 200 ∨ (500 : Nat) = 304))
  have htakes : Takes (G.lower pathValue) := by
    by_contra hrefused
    obtain ⟨d, hd⟩ := @Implements.get_refused _ _ _ _ hI (stateAfter G S h I es) _ hrefused
    refine hfailed ?_
    rw [answer, serveIdentity]
    simp only [if_neg hname, hd]
  have hreg : ∃ c, Newest (writes G Takes es) (G.lower pathValue) (some c) := by
    by_contra hno
    rw [answer_of_unregistered hI hname htakes (not_exists.mp hno)] at hanswer
    revert hanswer
    exact (by decide : ¬ ((404 : Nat) = 200 ∨ (404 : Nat) = 304))
  obtain ⟨c, hc⟩ := hreg
  have hrespond := answer_of_newest (S := S) (h := h) hI hname htakes hc
  cases hsign : c.signCard G S h.providerDomain h.signer with
  | error e =>
    refine absurd (hrespond ifNoneMatch) ?_
    rw [respond, hsign]
    exact hfailed
  | ok body =>
    refine ⟨hname, htakes, c, body, hc, hsign, fun tag => ?_⟩
    rw [hrespond, respond_of_signed hsign]

/-- After any run, a request for a name is answered with the signed card of the newest `add` or
`remove` that went through for it, whatever the letter case, and with 404 when that was a `remove`
or there was none. -/
theorem identity_after_run (hI : Implements I Takes cardOf) (hd : Deployed G h)
    (es : List Event) (hvalid : ValidTexts G Takes es) (pathValue ifNoneMatch : Bytes)
    (hname : G.lower pathValue ≠ []) (htakes : Takes (G.lower pathValue)) :
    (∃ c body, Newest (writes G Takes es) (G.lower pathValue) (some c) ∧
      c.localPart = G.lower pathValue ∧
      c.signCard G S h.providerDomain h.signer = .ok body ∧
      answer G S h I es pathValue ifNoneMatch =
        if ifNoneMatch = etag G body then notModified G body else cardResponse G h body) ∨
    (∀ c, ¬ Newest (writes G Takes es) (G.lower pathValue) (some c)) ∧
      answer G S h I es pathValue ifNoneMatch = httpError "unknown shadowname" 404 := by
  by_cases hreg : ∃ c, Newest (writes G Takes es) (G.lower pathValue) (some c)
  · obtain ⟨c, hc⟩ := hreg
    obtain ⟨body, hbody, hanswer⟩ :=
      @answer_signed _ _ S _ _ _ _ _ hI hd _ hvalid _ _ hname htakes hc
    exact .inl ⟨c, body, hc, (card_of_newest hc).2.1, hbody, hanswer ifNoneMatch⟩
  · have hno := not_exists.mp hreg
    exact .inr ⟨hno, answer_of_unregistered hI hname htakes hno _⟩

/-! ## Conditional requests -/

/-- A client was served a card and sends its tag later in the run. It is told that the card is not
modified if no command went through for the name in between; and if it is told so, under whatever
name, then the card is what a plain request is answered with. -/
theorem revalidation_exact (hI : Implements I Takes cardOf) (es more : List Event)
    (pathValue ifNoneMatch body : Bytes)
    (hserved : answer G S h I es pathValue ifNoneMatch = cardResponse G h body) :
    (G.lower pathValue ∉ (writes G Takes more).map Prod.fst →
      answer G S h I (es ++ more) pathValue (etag G body) = notModified G body) ∧
    ((∀ b, G.sha256 b = G.sha256 body → b = body) → ∀ other,
      (answer G S h I (es ++ more) other (etag G body)).status = 304 →
      answer G S h I (es ++ more) other [] = cardResponse G h body) := by
  constructor
  · intro hquiet
    obtain ⟨hname, htakes, c, b, hc, hsign, hanswer⟩ := signed_of_answer hI (.inl (by
      rw [hserved]
      rfl))
    rw [hanswer] at hserved
    have hb : b = body := by
      split_ifs at hserved
      · have hstatus : (304 : Nat) = 200 := congrArg Response.status hserved
        cases hstatus
      · exact congrArg Response.body hserved
    subst hb
    have hlater : Newest (writes G Takes (es ++ more)) (G.lower pathValue) (some c) := by
      rw [show writes G Takes (es ++ more) = writes G Takes es ++ writes G Takes more from
        List.filterMap_append]
      exact (newest_append hquiet).mpr hc
    rw [answer_of_newest hI hname htakes hlater, respond_of_signed hsign, if_pos rfl]
  · intro hsha other hstatus
    obtain ⟨-, -, c, b, -, -, hanswer⟩ := signed_of_answer hI (.inr hstatus)
    rw [hanswer] at hstatus
    split_ifs at hstatus with htag
    · have hb : b = body := by
        refine hsha b ?_
        rw [etag, etag, List.append_cancel_right_eq, List.cons_inj_right] at htag
        exact (Issuer.hexEncode_injective htag).symm
      subst hb
      rw [hanswer, if_neg (etag_ne_nil b).symm]
    · cases hstatus

end

/-! ### A run with one name -/

def sampleHandler : Handler := ⟨bytes "a.co", Cards.sampleSigner, 0⟩

def sampleArgs : AddArgs where
  localPart := bytes "B"
  pk := Cards.sampleRecord.shadowPublicKey
  a2aURL := Cards.sampleRecord.a2aURL
  display := []
  description := []

def sampleRun : List Event := [⟨.add (Time.ofUnix 100) sampleArgs, none⟩]

theorem deployed_sample : Deployed Interop.plainGo sampleHandler where
  domain := by decide +kernel
  valid := Interop.valid_bytes _
  signer := by decide

theorem writes_sample : writes Interop.plainGo (fun _ => True) sampleRun =
    [(bytes "b", some (sampleArgs.record Interop.plainGo).versioned)] := by
  have hcheck : sampleArgs.check Interop.plainGo = .ok () := by decide +kernel
  have hlower : Interop.plainGo.lower sampleArgs.localPart = bytes "b" := by decide +kernel
  rw [writes, sampleRun, List.filterMap_cons, writeOf_add,
    if_pos ⟨rfl, hcheck, fun _ _ => trivial⟩, hlower]
  rfl

theorem validTexts_sample : ValidTexts Interop.plainGo (fun _ => True) sampleRun := by
  intro k c hmem
  rw [writes_sample, List.mem_singleton] at hmem
  cases hmem
  have hall : (columns (sampleArgs.record Interop.plainGo).versioned).all
      (fun t => decide (Valid t)) = true := by
    decide +kernel
  exact fun t ht => of_decide_eq_true (List.all_eq_true.mp hall t ht)

theorem lower_sample : Interop.plainGo.lower (bytes "B") = bytes "b" := by decide +kernel

theorem lower_sample_ne_nil : Interop.plainGo.lower (bytes "B") ≠ [] := by
  rw [lower_sample]
  decide

theorem newest_sample : Newest (writes Interop.plainGo (fun _ => True) sampleRun)
    (Interop.plainGo.lower (bytes "B")) (some (sampleArgs.record Interop.plainGo).versioned) := by
  rw [writes_sample, lower_sample]
  exact ⟨[], [], rfl, List.not_mem_nil⟩

theorem identity_after_run_sample : ∃ body,
    answer Interop.plainGo Cards.sampleSign sampleHandler sqlite sampleRun (bytes "B") [] =
      cardResponse Interop.plainGo sampleHandler body := by
  rcases identity_after_run (S := Cards.sampleSign) sqlite_implements deployed_sample sampleRun
    validTexts_sample (bytes "B") [] lower_sample_ne_nil trivial with ⟨c, body, -, -, -, h⟩ | ⟨h, -⟩
  · exact ⟨body, h.trans (if_neg (etag_ne_nil body).symm)⟩
  · exact absurd newest_sample (h _)

/-- The card is served, another name is removed, and the card is not modified. -/
theorem revalidation_exact_sample : ∃ body,
    answer Interop.plainGo Cards.sampleSign sampleHandler sqlite sampleRun (bytes "B") [] =
      cardResponse Interop.plainGo sampleHandler body ∧
    answer Interop.plainGo Cards.sampleSign sampleHandler sqlite
      (sampleRun ++ [⟨.remove (bytes "c"), none⟩]) (bytes "B") (etag Interop.plainGo body) =
      notModified Interop.plainGo body := by
  have hc : writes Interop.plainGo (fun _ => True) [⟨.remove (bytes "c"), none⟩] =
      [(bytes "c", none)] := by
    have hlower : Interop.plainGo.lower (bytes "c") = bytes "c" := by decide +kernel
    rw [writes, List.filterMap_cons, writeOf_remove, if_pos ⟨rfl, by decide, trivial⟩, hlower]
    rfl
  obtain ⟨body, -, hserved⟩ := answer_signed (S := Cards.sampleSign) sqlite_implements
    deployed_sample validTexts_sample lower_sample_ne_nil trivial newest_sample
  have hplain := (hserved []).trans (if_neg (etag_ne_nil body).symm)
  refine ⟨body, hplain, (revalidation_exact sqlite_implements sampleRun _ (bytes "B") [] body
    hplain).1 ?_⟩
  rw [hc, lower_sample]
  decide

end Shadownet.Provider
