import Shadownet.Receiver.Holder

/-!
# What a decision rests on

`classification_sound` is about every run of the synchronous receiver and the next request.
An `inbox` decision has one of three reasons, and `auto_added_contact` is set exactly when
the third is the only one. A `stranger_review` decision rests on a credential that the
sender presented in this request or an earlier one.
-/

namespace Shadownet.Receiver

open Foundation Python

/-! ## The parts of an accepted request -/

/-- The operations up to step 8. -/
def Op.Opens : Op → Prop
  | .now => True
  | .providerLookup _ => True
  | .fetchAgentCard _ _ => True
  | .seen _ _ => True
  | .remember _ _ _ => True
  | _ => False

section
variable {G : Runtime} {cfg : ReceiverConfig} {body : Dict} {calls : List Call}
  {d : AcceptedDecision} {tick : Int → Int → Prop} {s s' : Stores}

/-- The calls up to step 8. -/
def Accepted.opening (A : Accepted G cfg body calls d) : List Call :=
  A.resolving ++ [⟨.now, A.time⟩, ⟨.seen d.sender A.messageId, false⟩,
    ⟨.remember d.sender A.messageId 600, ()⟩]

theorem Accepted.opening_opens (A : Accepted G cfg body calls d) :
    ∀ c ∈ A.opening, c.1.Opens := by
  have hres : ∀ c ∈ A.resolving, c.1.Opens := by
    have hkey := A.senderKey_ok
    generalize A.resolving = r, A.record = q, A.senderKey = k at hkey
    cases hkey with
    | direct => simp
    | provider => simp [Op.Opens]
  simp only [opening, List.forall_mem_append, List.forall_mem_cons]
  exact ⟨hres, trivial, trivial, trivial, by simp⟩

/-- The stores before step 9 and before step 10. -/
theorem Accepted.stages (A : Accepted G cfg body calls d)
    (he : Evolves (handle tick) s calls s') :
    ∃ s₁ s₂, Evolves (handle tick) s A.opening s₁ ∧
      Evolves (handle tick) s₁ A.validating s₂ ∧ Evolves (handle tick) s₂ A.classifying s' := by
  have hcalls : calls = A.opening ++ (A.validating ++ A.classifying) :=
    A.calls_eq.trans (by simp [opening])
  have he' : Evolves (handle tick) s (A.opening ++ (A.validating ++ A.classifying)) s' :=
    hcalls ▸ he
  obtain ⟨s₁, h₁, h₂₃⟩ := evolves_append.mp he'
  obtain ⟨s₂, h₂, h₃⟩ := evolves_append.mp h₂₃
  exact ⟨s₁, s₂, h₁, h₂, h₃⟩

/-- No contact is added before step 10. -/
theorem Accepted.contacts_before_classify (A : Accepted G cfg body calls d) {s₁ s₂ : Stores}
    (h₁ : Evolves (handle tick) s A.opening s₁)
    (h₂ : Evolves (handle tick) s₁ A.validating s₂) : s₂.contacts = s.contacts := by
  have hopen : s₁.contacts = s.contacts :=
    evolves_contacts h₁ fun name hmem => A.opening_opens _ hmem
  have hval : s₂.contacts = s₁.contacts := by
    refine evolves_contacts h₂ fun name hmem => ?_
    rcases validateCreds_path A.credentials_ok with ⟨hv, -⟩ | ⟨creds, heq, -⟩
    · exact hv.ops _ hmem
    · rw [heq] at hmem
      simp at hmem
  exact hval.trans hopen

/-! ## The reasons for a decision -/

/-- The record the receiver looked up for the sender: the answer of the first call. -/
def senderRecord : List Call → Option ProviderRecord
  | ⟨.providerLookup _, a⟩ :: _ => match a with
    | .ok record => some record
    | .error _ => none
  | _ => none

theorem Accepted.senderRecord_eq (A : Accepted G cfg body calls d) :
    senderRecord calls = A.record := by
  refine (congrArg senderRecord A.calls_eq).trans ?_
  have hkey := A.senderKey_ok
  generalize A.resolving = r, A.record = q, A.senderKey = k at hkey
  cases hkey with
  | direct => rfl
  | provider => rfl

/-- The same-provider shortcut applies: the record looked up for the sender is of the
domain of the subject's provider. -/
def FromSameProvider (G : Runtime) (cfg : ReceiverConfig) (calls : List Call)
    (sender : Text) : Prop :=
  cfg.sameProviderOrg = true ∧ isShadowname sender = true ∧ isShadowname cfg.subject = true ∧
    ∃ record loc, senderRecord calls = some record ∧
      splitShadowname G cfg.subject = .ok (loc, record.domain)

/-- The sender was recorded as the peer of an outbound message in the context of this
request, not longer ago than the lookback. -/
def AnswersOutbound (G : Runtime) (cfg : ReceiverConfig) (h : List Happened) (body : Dict)
    (sender : Text) (now : Int) : Prop :=
  ∃ jws message ctx t, extractEnvelopeJws G body = .ok (jws, message) ∧
    message.get? (text "contextId") = some (.str ctx) ∧
    .outboundRecorded ctx sender t ∈ h ∧ now - cfg.autoAddLookbackSeconds ≤ t

theorem sameProvider_iff {record : ProviderRecord} :
    sameProvider G cfg (some record) = .ok true ↔ cfg.sameProviderOrg = true ∧
      isShadowname cfg.subject = true ∧
        ∃ loc, splitShadowname G cfg.subject = .ok (loc, record.domain) := by
  simp only [sameProvider]
  split_ifs with hc
  · rw [Bool.and_eq_true] at hc
    simp only [bind_eq_ok, Prod.exists, pure_eq_ok, beq_iff_eq]
    constructor
    · rintro ⟨loc, domain, hd, rfl⟩
      exact ⟨hc.1, hc.2, loc, hd⟩
    · rintro ⟨-, -, loc, hd⟩
      exact ⟨loc, _, hd, rfl⟩
  · rw [Bool.and_eq_true] at hc
    simp only [pure_eq_ok, Bool.false_eq_true, false_iff]
    exact fun h => hc ⟨h.1, h.2.1⟩

theorem Accepted.fromSameProvider_iff (A : Accepted G cfg body calls d) :
    FromSameProvider G cfg calls d.sender ↔ sameProvider G cfg A.record = .ok true := by
  rw [FromSameProvider, A.senderRecord_eq]
  have hkey := A.senderKey_ok
  obtain ⟨-, claims, raw, -, -, hcanon⟩ := preparse_parts A.preparse_ok
  have hform := canonicalizeIdentifier_form hcanon
  rw [A.sender_eq]
  generalize A.resolving = r, A.record = q, A.senderKey = k at hkey
  cases hkey with
  | direct => simp [sameProvider]
  | @provider loc domain card record key hs hd hk =>
    have hname : isShadowname A.preparsed.sender = true := by
      rcases hform with hform | hform
      · exact hform
      · rw [hs] at hform
        cases hform
    rw [sameProvider_iff]
    constructor
    · rintro ⟨h1, -, h3, rec, l, hrec, hl⟩
      cases hrec
      exact ⟨h1, h3, l, hl⟩
    · rintro ⟨h1, h3, l, hl⟩
      exact ⟨h1, hname, h3, record, l, rfl, hl⟩

/-- The four ways to a decision, by what the stores held before the request. -/
theorem Accepted.decided (A : Accepted G cfg body calls d)
    (he : Evolves (handle tick) s calls s') :
    (FromSameProvider G cfg calls d.sender ∧ d.route = .inbox ∧ d.autoAddedContact = false) ∨
    (¬ FromSameProvider G cfg calls d.sender ∧
      ((d.sender ∈ s.contacts ∧ d.route = .inbox ∧ d.autoAddedContact = false) ∨
      (d.sender ∉ s.contacts ∧ d.route = .inbox ∧ d.autoAddedContact = true ∧
        d.sender ∈ s'.contacts ∧ ∃ ctx t, A.contextId = some ctx ∧
          s.outbound (ctx, d.sender) = some t ∧ s'.clock - cfg.autoAddLookbackSeconds ≤ t) ∨
      (d.route = .strangerReview ∧ d.autoAddedContact = false ∧
        ∃ c ∈ A.credentials, Counts G cfg.trustStore cfg.policy.fromStranger c))) := by
  obtain ⟨s₁, s₂, h₁, h₂, h₃⟩ := A.stages he
  have hcontacts : s₂.contacts = s.contacts := A.contacts_before_classify h₁ h₂
  have houtbound : s₂.outbound = s.outbound := (evolves_outbound h₂).trans (evolves_outbound h₁)
  have hasked : ∀ {b : Bool} {u : Stores}, handle tick s₂ (.isContact d.sender) b u →
      (b = true ↔ d.sender ∈ s.contacts) ∧ u = s₂ := by
    rintro b u ⟨rfl, rfl⟩
    simp [hcontacts]
  rw [A.fromSameProvider_iff]
  rcases classify_ways A.classify_ok with ⟨hsame, hroute, hauto, -⟩ | ⟨hsame, hways⟩
  · exact .inl ⟨hsame, hroute, hauto⟩
  refine .inr ⟨by simp [hsame], ?_⟩
  rcases hways with ⟨hroute, hauto, hcalls⟩ | ⟨ctx, hctx, hroute, hauto, hcalls⟩ |
    ⟨hroute, hauto, hcount⟩
  · rw [hcalls, evolves_cons] at h₃
    obtain ⟨u, hu, -⟩ := h₃
    exact .inl ⟨(hasked hu).1.mp rfl, hroute, hauto⟩
  · simp only [hcalls, evolves_cons, evolves_nil] at h₃
    obtain ⟨u, hu, v, hv, w, rfl, rfl⟩ := h₃
    obtain ⟨hno, rfl⟩ := hasked hu
    simp only [handle] at hv
    split at hv
    · cases hv.1
    · next t ht =>
      obtain ⟨now, -, hrecent, rfl⟩ := hv
      refine .inr (.inl ⟨by simpa using hno, hroute, hauto, by simp, ctx, t, hctx, ?_, ?_⟩)
      · rw [← houtbound, ht]
      · simpa using hrecent.symm
  · exact .inr (.inr ⟨hroute, hauto, hcount⟩)

/-! ## Classification over runs -/

/-- The sender presented the credential in this request, or in an earlier one whose cache
entry had not expired when this request read the clock. -/
def Vouched (G : Runtime) (cfg : ReceiverConfig) (h : List Happened) (body : Dict)
    (calls : List Call) (sender : Text) (c : VerifiedCredential) (start finish : Int) : Prop :=
  (∃ e, Presented G cfg body calls sender c e) ∨
    ∃ b cs r e t, .received b cs r ∈ h ∧ Presented G cfg b cs sender c e ∧
      start ≤ t ∧ t ≤ finish ∧ t < e

theorem answersOutbound_of_recorded {h : List Happened} {t₀ : Int}
    (hr : Runs G cfg tick t₀ h s) (A : Accepted G cfg body calls d) {ctx : Text} {t now : Int}
    (hctx : A.contextId = some ctx) (ht : s.outbound (ctx, d.sender) = some t)
    (hnow : now - cfg.autoAddLookbackSeconds ≤ t) :
    AnswersOutbound G cfg h body d.sender now := by
  have hctx' := A.contextId_ok
  rw [hctx] at hctx'
  refine ⟨_, _, ctx, t, (preparse_parts A.preparse_ok).1, ?_, hr.outbound ht, hnow⟩
  unfold contextIdOf at hctx'
  split at hctx'
  · cases hctx'
  · cases hctx'
  · next hm =>
    cases hctx'
    exact hm
  · cases hctx'

theorem vouched_of_counted {h : List Happened} {t₀ : Int}
    (hr : Runs G cfg (· ≤ ·) t₀ h s) (hp : Fallible.Path (receive G cfg body) calls (.ok d))
    (he : Evolves (handle (· ≤ ·)) s calls s') (A : Accepted G cfg body calls d)
    {c : VerifiedCredential} (hc : c ∈ A.credentials) :
    Vouched G cfg h body calls d.sender c s.clock s'.clock := by
  have hnow : ∀ e, ⟨.cache d.sender c e, ()⟩ ∈ calls →
      Vouched G cfg h body calls d.sender c s.clock s'.clock :=
    fun e hcall => .inl ⟨e, presented_of_cache hp hcall⟩
  rcases A.weighed hc with ⟨e, hcall⟩ | ⟨creds, hcall, hmem⟩
  · exact hnow e hcall
  · obtain ⟨e, t, c₁, c₂, s₁, h₁, ht, h₂, hlt, hold | hnew⟩ := evolves_forSender he hcall hmem
    · obtain ⟨b, cs, r, hpast, hcache⟩ := hr.cached hold
      exact .inr ⟨b, cs, r, e, t, hpast, presented_of_cache (hr.path hpast) hcache,
        (evolves_clock_le h₁).trans ht, evolves_clock_le h₂, hlt⟩
    · exact hnow e hnew

/-- After any run `h`, the decision on the next request has its reasons. -/
theorem classification_sound {h : List Happened} {t₀ : Int}
    (hr : Runs G cfg (· ≤ ·) t₀ h s) (hp : Fallible.Path (receive G cfg body) calls (.ok d))
    (he : Evolves (handle (· ≤ ·)) s calls s') :
    (d.route = .inbox →
      (FromSameProvider G cfg calls d.sender ∨ d.sender ∈ s.contacts ∨
        AnswersOutbound G cfg h body d.sender s'.clock) ∧
      (d.autoAddedContact = true ↔ ¬ FromSameProvider G cfg calls d.sender ∧
        d.sender ∉ s.contacts ∧ AnswersOutbound G cfg h body d.sender s'.clock) ∧
      (d.autoAddedContact = true → d.sender ∈ s'.contacts)) ∧
    (d.route = .strangerReview → d.autoAddedContact = false ∧
      ∃ c, Counts G cfg.trustStore cfg.policy.fromStranger c ∧
        Vouched G cfg h body calls d.sender c s.clock s'.clock) := by
  obtain ⟨A⟩ := receive_ok hp
  rcases A.decided he with ⟨hsame, hroute, hauto⟩ | ⟨hother, ⟨hcontact, hroute, hauto⟩ |
    ⟨hno, hroute, hauto, hadded, ctx, t, hctx, ht, hnow⟩ | ⟨hroute, hauto, c, hc, hcount⟩⟩
  · simp [hsame, hroute, hauto]
  · simp [hcontact, hroute, hauto]
  · have hreason := answersOutbound_of_recorded hr A hctx ht hnow
    simp [hother, hno, hroute, hauto, hadded, hreason]
  · simp only [hroute, reduceCtorEq, false_implies, true_and, true_implies]
    exact ⟨hauto, c, hcount, vouched_of_counted hr hp he A hc⟩

end

/-- A message of a contact, and one of a stranger with a credential. -/
theorem classification_sound_routes :
    (Runs contactRuntime contactConfig (· ≤ ·) 200 [.contactAdded (text "a@b.co")] helloStores ∧
      (FromSameProvider contactRuntime contactConfig helloCalls (text "a@b.co") ∨
        text "a@b.co" ∈ helloStores.contacts ∨
        AnswersOutbound contactRuntime contactConfig [.contactAdded (text "a@b.co")] helloBody
          (text "a@b.co") helloAfter.clock)) ∧
    ∃ s, Evolves (handle (· ≤ ·)) (Stores.empty 200) (strangerCalls false) s ∧
      ∃ c, Counts (strangerRuntime false) strangerConfig.trustStore [orgAffiliation] c ∧
        Vouched (strangerRuntime false) strangerConfig [] (requestWith (envToken false))
          (strangerCalls false) (text "a@b.co") c 200 s.clock := by
  have hrun : Runs contactRuntime contactConfig (· ≤ ·) 200 [.contactAdded (text "a@b.co")]
      helloStores := .addContact .start
  obtain ⟨hinbox, -⟩ := classification_sound hrun hello_path (hello_evolves le_refl)
  obtain ⟨s, he⟩ := stranger_evolves false
  obtain ⟨-, hreview⟩ := classification_sound .start (stranger_path false) he
  exact ⟨⟨hrun, (hinbox rfl).1⟩, s, he, (hreview rfl).2⟩

/-! ## The policy for contacts -/

section
variable {G : Runtime} {cfg : ReceiverConfig} {body : Dict} {calls : List Call}
  {d : AcceptedDecision}

/-- An accepted request of a contact that does not come through the same-provider shortcut. -/
def FromContact (G : Runtime) (cfg : ReceiverConfig) (calls : List Call) (d : AcceptedDecision) :
    Prop :=
  d.route = .inbox ∧ ⟨.isContact d.sender, true⟩ ∈ calls ∧
    ¬ FromSameProvider G cfg calls d.sender

/-- Every contact that reaches the inbox has a credential the policy for contacts asks for. -/
def ContactPolicyEnforced (G : Runtime) (cfg : ReceiverConfig) : Prop :=
  ∀ body calls d (A : Accepted G cfg body calls d), FromContact G cfg calls d →
    satisfiesPolicy G A.credentials cfg.trustStore (cfg.policy.requiredKinds true) = true

/-- Some contact without a credential, in the envelope or in the cache, reaches the inbox. -/
def AdmitsBareContact (G : Runtime) (cfg : ReceiverConfig) : Prop :=
  ∃ body calls d, ∃ A : Accepted G cfg body calls d, FromContact G cfg calls d ∧ A.credentials = []

/-- The configuration with another list for contacts. -/
def ReceiverConfig.withFromContact (cfg : ReceiverConfig) (kinds : List Text) : ReceiverConfig :=
  { cfg with policy := { cfg.policy with fromContact := kinds } }

theorem validateAll_withFromContact (G : Runtime) (cfg : ReceiverConfig) (kinds : List Text)
    (sender : Text) (creds : List Text) :
    validateAll G (cfg.withFromContact kinds) sender creds = validateAll G cfg sender creds := by
  induction creds with
  | nil => rfl
  | cons jws rest ih =>
    rw [validateAll, validateAll, ih]
    rfl

theorem validateCreds_withFromContact (G : Runtime) (cfg : ReceiverConfig) (kinds : List Text)
    (envelope : EnvelopePayload) (sender : Text) :
    validateCreds G (cfg.withFromContact kinds) envelope sender =
      validateCreds G cfg envelope sender := by
  rw [validateCreds, validateCreds, validateAll_withFromContact]

theorem receive_withFromContact (G : Runtime) (cfg : ReceiverConfig) (kinds : List Text)
    (body : Dict) : receive G (cfg.withFromContact kinds) body = receive G cfg body := by
  have hdecide : decideRoute G (cfg.withFromContact kinds) = decideRoute G cfg := by
    funext a
    rw [decideRoute, decideRoute, validateCreds_withFromContact]
    rfl
  rw [receive, receive, hdecide]
  rfl

/-- The steps of an accepted request do not depend on it either. -/
def Accepted.withFromContact (A : Accepted G cfg body calls d) (kinds : List Text) :
    Accepted G (cfg.withFromContact kinds) body calls d where
  preparsed := A.preparsed
  senderKey := A.senderKey
  record := A.record
  messageId := A.messageId
  time := A.time
  credentials := A.credentials
  contextId := A.contextId
  resolving := A.resolving
  validating := A.validating
  classifying := A.classifying
  preparse_ok := A.preparse_ok
  senderKey_ok := A.senderKey_ok
  envelope_ok := A.envelope_ok
  message_ok := A.message_ok
  credentials_ok := by
    rw [validateCreds_withFromContact]
    exact A.credentials_ok
  contextId_ok := A.contextId_ok
  classify_ok := A.classify_ok
  sender_eq := A.sender_eq
  calls_eq := A.calls_eq

/-- The pipeline does the same whatever the list for contacts is, so the policy for contacts is
enforced when the list is empty, and only then if a contact without credentials can write. -/
theorem contact_policy_enforced (G : Runtime) (cfg : ReceiverConfig) :
    (∀ kinds body, receive G (cfg.withFromContact kinds) body = receive G cfg body) ∧
    (cfg.policy.fromContact = [] → ContactPolicyEnforced G cfg) ∧
    (AdmitsBareContact G cfg →
      (ContactPolicyEnforced G cfg ↔ cfg.policy.fromContact = [])) := by
  have hempty : cfg.policy.fromContact = [] → ContactPolicyEnforced G cfg := by
    intro h body calls d A _
    simp [satisfiesPolicy, AcceptancePolicy.requiredKinds, h]
  refine ⟨receive_withFromContact G cfg, hempty, fun hbare => ⟨fun henforced => ?_, hempty⟩⟩
  obtain ⟨body, calls, d, A, hcontact, hnone⟩ := hbare
  have hsat := henforced body calls d A hcontact
  rw [hnone] at hsat
  simpa [satisfiesPolicy, AcceptancePolicy.requiredKinds] using hsat

end

/-- The receiver of the example, asking an `org_affiliation` of its contacts. -/
def strictConfig : ReceiverConfig := contactConfig.withFromContact [text "org_affiliation"]

theorem strict_admits : AdmitsBareContact contactRuntime strictConfig := by
  have hother : ¬ FromSameProvider contactRuntime strictConfig helloCalls (text "a@b.co") :=
    fun h => Bool.false_ne_true h.1
  have hasked : ⟨.isContact (text "a@b.co"), true⟩ ∈ helloCalls :=
    List.mem_append_right _ (by simp [helloClassifying])
  exact ⟨helloBody, helloCalls, helloDecision, helloAccepted.withFromContact _,
    ⟨rfl, hasked, hother⟩, rfl⟩

/-- A contact without credentials reaches the inbox of a receiver that asks its contacts for an
`org_affiliation`. -/
theorem contact_policy_ignored : ∃ G cfg body calls d, ∃ A : Accepted G cfg body calls d,
    Fallible.Path (receive G cfg body) calls (.ok d) ∧ FromContact G cfg calls d ∧
    satisfiesPolicy G A.credentials cfg.trustStore (cfg.policy.requiredKinds true) = false := by
  obtain ⟨body, calls, d, A, hcontact, hnone⟩ := strict_admits
  refine ⟨_, _, body, calls, d, A, A.path, hcontact, ?_⟩
  rw [hnone]
  rfl

theorem contact_policy_enforced_strict :
    ¬ ContactPolicyEnforced contactRuntime strictConfig ∧
    ContactPolicyEnforced contactRuntime (strictConfig.withFromContact []) := by
  obtain ⟨-, -, hiff⟩ := contact_policy_enforced contactRuntime strictConfig
  obtain ⟨-, hempty, -⟩ := contact_policy_enforced contactRuntime (strictConfig.withFromContact [])
  refine ⟨fun h => ?_, hempty rfl⟩
  exact absurd ((hiff strict_admits).mp h) (List.cons_ne_nil _ _)

end Shadownet.Receiver
