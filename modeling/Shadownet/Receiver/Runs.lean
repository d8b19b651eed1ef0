import Shadownet.Python.Binding
import Shadownet.Receiver.Paths

/-!
# Runs of the synchronous receiver

A run is a sequence of `receive` calls mixed with the owner's changes of the contact graph.
Time passes between the calls and, as far as `tick` lets it, within them. The history keeps
each request with the calls it made and its result, so that what the stores hold can be
traced back to it (`Runs.cached`, `Runs.outbound`).
-/

namespace Shadownet.Receiver

open Foundation Python

inductive Happened where
  | received (body : Dict) (calls : List Call) (result : Py AcceptedDecision)
  | contactAdded (name : Text)
  | contactRemoved (name : Text)
  | outboundRecorded (contextId peer : Text) (time : Int)

/-- The runs from fresh stores at `t₀`. -/
inductive Runs (G : Runtime) (cfg : ReceiverConfig) (tick : Int → Int → Prop) (t₀ : Int) :
    List Happened → Stores → Prop
  | start : Runs G cfg tick t₀ [] (Stores.empty t₀)
  | pass {h : List Happened} {s : Stores} {t : Int} (hr : Runs G cfg tick t₀ h s)
      (ht : s.clock ≤ t) : Runs G cfg tick t₀ h { s with clock := t }
  | receive {h : List Happened} {s s' : Stores} {body : Dict} {calls : List Call}
      {result : Py AcceptedDecision} (hr : Runs G cfg tick t₀ h s)
      (hp : Fallible.Path (receive G cfg body) calls result)
      (he : Evolves (handle tick) s calls s') :
      Runs G cfg tick t₀ (h ++ [.received body calls result]) s'
  | addContact {h : List Happened} {s : Stores} {name : Text} (hr : Runs G cfg tick t₀ h s) :
      Runs G cfg tick t₀ (h ++ [.contactAdded name]) (s.addContact name)
  | removeContact {h : List Happened} {s : Stores} {name : Text} (hr : Runs G cfg tick t₀ h s) :
      Runs G cfg tick t₀ (h ++ [.contactRemoved name]) (s.removeContact name)
  | recordOutbound {h : List Happened} {s : Stores} {contextId peer : Text} {t : Int}
      (hr : Runs G cfg tick t₀ h s) (ht : tick s.clock t) :
      Runs G cfg tick t₀ (h ++ [.outboundRecorded contextId peer t])
        (s.recordOutbound t contextId peer)

/-! ## What one call does to the stores -/

section
variable {tick : Int → Int → Prop} {s s' : Stores} {o : Op} {a : Ans o} {calls : List Call}

/-- What a call may change in each store. -/
structure Effect (tick : Int → Int → Prop) (s : Stores) (o : Op) (s' : Stores) : Prop where
  clock : s'.clock = s.clock ∨ tick s.clock s'.clock
  outbound : s'.outbound = s.outbound
  contacts : s'.contacts = s.contacts ∨
    ∃ name, o = .addContact name ∧ s'.contacts = insert name s.contacts
  replay : s'.replay = s.replay ∨ s'.replay = s.replay.prune s'.clock ∨
    ∃ x m r, o = .remember x m r ∧ s'.replay = s.replay.remember s'.clock x m r
  credentials : ∀ x c e, (c, e) ∈ s'.credentials x →
    (c, e) ∈ s.credentials x ∨ o = .cache x c e

/-- A call that at most reads the clock. -/
theorem Effect.reads {t : Int} (ht : t = s.clock ∨ tick s.clock t) :
    Effect tick s o { s with clock := t } :=
  ⟨ht, rfl, .inl rfl, .inl rfl, fun _ _ _ => .inl⟩

theorem handle_effect (h : handle tick s o a s') : Effect tick s o s' := by
  have hquiet : Effect tick s o s := .reads (t := s.clock) (.inl rfl)
  cases o with
  | now =>
    obtain ⟨ht, rfl⟩ := h
    exact .reads (.inr ht)
  | providerLookup | fetchAgentCard | revocationCheck =>
    obtain rfl : s' = s := h
    exact hquiet
  | seen =>
    obtain ⟨t, ht, -, rfl⟩ := h
    exact { Effect.reads (.inr ht) with replay := .inr (.inl rfl) }
  | remember x m r =>
    obtain ⟨t, ht, rfl⟩ := h
    exact { Effect.reads (.inr ht) with replay := .inr (.inr ⟨x, m, r, rfl, rfl⟩) }
  | cache y d f =>
    obtain rfl : s' = s.cache y d f := h
    refine { hquiet with credentials := fun x c e hc => ?_ }
    by_cases hxy : x = y
    · subst hxy
      simp only [Stores.cache, Function.update_self, List.mem_append, List.mem_singleton,
        Prod.mk.injEq] at hc
      rcases hc with hc | ⟨rfl, rfl⟩
      · exact .inl hc
      · exact .inr rfl
    · simp only [Stores.cache, Function.update_of_ne hxy] at hc
      exact .inl hc
  | forSender y =>
    obtain ⟨t, ht, -, rfl⟩ := h
    refine { Effect.reads (.inr ht) with credentials := fun x c e hc => .inl ?_ }
    by_cases hxy : x = y
    · subst hxy
      simp only [Stores.keepLive, Function.update_self] at hc
      exact List.mem_of_mem_filter hc
    · simpa only [Stores.keepLive, Function.update_of_ne hxy] using hc
  | isContact =>
    obtain ⟨-, rfl⟩ := h
    exact hquiet
  | hasRecentOutbound ctx peer lookback =>
    simp only [handle] at h
    split at h
    · obtain ⟨-, rfl⟩ := h
      exact hquiet
    · obtain ⟨t, ht, -, rfl⟩ := h
      exact .reads (.inr ht)
  | addContact name =>
    obtain rfl : s' = { s with contacts := insert name s.contacts } := h
    exact { hquiet with contacts := .inr ⟨name, rfl, rfl⟩ }

theorem evolves_clock_le (h : Evolves (handle (· ≤ ·)) s calls s') : s.clock ≤ s'.clock := by
  induction h with
  | nil s => exact le_refl _
  | cons hs h ih => exact le_trans ((handle_effect hs).clock.elim ge_of_eq id) ih

theorem evolves_outbound (h : Evolves (handle tick) s calls s') : s'.outbound = s.outbound :=
  h.keeps (fun _ _ _ _ hs hh => (handle_effect hh).outbound.trans hs) rfl

theorem evolves_credentials (h : Evolves (handle tick) s calls s') {x : Text}
    {c : VerifiedCredential} {e : Int} (hc : (c, e) ∈ s'.credentials x) :
    (c, e) ∈ s.credentials x ∨ ⟨.cache x c e, ()⟩ ∈ calls := by
  induction h with
  | nil s => exact .inl hc
  | @cons s s₁ s' o a calls hs h ih =>
    rcases ih hc with hc | hc
    · rcases (handle_effect hs).credentials x c e hc with hc | rfl
      · exact .inl hc
      · exact .inr (by simp)
    · exact .inr (List.mem_cons_of_mem _ hc)

/-- What the cache answers it held, unexpired when the call read the clock. -/
theorem evolves_forSender (h : Evolves (handle tick) s calls s') {x : Text}
    {creds : List VerifiedCredential} {c : VerifiedCredential}
    (hcall : ⟨.forSender x, creds⟩ ∈ calls) (hc : c ∈ creds) :
    ∃ e t c₁ c₂ s₁, Evolves (handle tick) s c₁ s₁ ∧ tick s₁.clock t ∧
      Evolves (handle tick) (s₁.keepLive t x) c₂ s' ∧ t < e ∧
      ((c, e) ∈ s.credentials x ∨ ⟨.cache x c e, ()⟩ ∈ calls) := by
  obtain ⟨c₁, c₂, s₁, s₂, hcalls, h₁, ⟨t, ht, rfl, rfl⟩, h₂⟩ := h.mem hcall
  obtain ⟨⟨c', e⟩, hlive, rfl⟩ := List.mem_map.mp hc
  obtain ⟨hmem, hlt⟩ := List.mem_filter.mp hlive
  refine ⟨e, t, c₁, c₂, s₁, h₁, ht, h₂, by simpa using hlt, ?_⟩
  rcases evolves_credentials h₁ hmem with hold | hnew
  · exact .inl hold
  · exact .inr (by rw [hcalls]; exact List.mem_append_left _ hnew)

/-- Contacts stay while no call adds one. -/
theorem evolves_contacts (h : Evolves (handle tick) s calls s')
    (hadd : ∀ name, ⟨.addContact name, ()⟩ ∉ calls) : s'.contacts = s.contacts := by
  refine h.keeps (I := fun u => u.contacts = s.contacts) (fun c hc s₁ s₂ hs hh => ?_) rfl
  rcases (handle_effect hh).contacts with heq | ⟨name, ho, -⟩
  · exact heq.trans hs
  · obtain ⟨o, a⟩ := c
    obtain rfl : o = .addContact name := ho
    exact absurd hc (hadd name)

end

/-! ## Tracing the stores back -/

section
variable {G : Runtime} {cfg : ReceiverConfig} {tick : Int → Int → Prop} {t₀ : Int}
  {h : List Happened} {s : Stores}

/-- Every cached credential was cached by an earlier request. -/
theorem Runs.cached (hr : Runs G cfg tick t₀ h s) {x : Text} {c : VerifiedCredential} {e : Int}
    (hc : (c, e) ∈ s.credentials x) :
    ∃ body calls result, .received body calls result ∈ h ∧ ⟨.cache x c e, ()⟩ ∈ calls := by
  induction hr with
  | start => simp [Stores.empty] at hc
  | pass hr ht ih => exact ih hc
  | @receive h s s' body calls result hr hp he ih =>
    rcases evolves_credentials he hc with hc | hc
    · obtain ⟨b, cs, r, hmem, hcache⟩ := ih hc
      exact ⟨b, cs, r, List.mem_append_left _ hmem, hcache⟩
    · exact ⟨body, calls, result, by simp, hc⟩
  | addContact hr ih | removeContact hr ih | recordOutbound hr ht ih =>
    obtain ⟨b, cs, r, hmem, hcache⟩ := ih hc
    exact ⟨b, cs, r, List.mem_append_left _ hmem, hcache⟩

/-- Every time in the outbound log is the time of an entry in the history. -/
theorem Runs.outbound (hr : Runs G cfg tick t₀ h s) {contextId peer : Text} {t : Int}
    (ht : s.outbound (contextId, peer) = some t) :
    .outboundRecorded contextId peer t ∈ h := by
  induction hr with
  | start => simp [Stores.empty] at ht
  | pass hr _ ih => exact ih ht
  | receive hr hp he ih =>
    rw [evolves_outbound he] at ht
    exact List.mem_append_left _ (ih ht)
  | addContact hr ih | removeContact hr ih => exact List.mem_append_left _ (ih ht)
  | @recordOutbound h s ctx p t' hr _ ih =>
    by_cases hk : (contextId, peer) = (ctx, p)
    · cases hk
      simp only [Stores.recordOutbound, Function.update_self, Option.some.injEq] at ht
      simp [ht]
    · simp only [Stores.recordOutbound, Function.update_of_ne hk] at ht
      exact List.mem_append_left _ (ih ht)

/-- A request in the history, with the run up to it and what it did to the stores. -/
theorem Runs.split (hr : Runs G cfg tick t₀ h s) {body : Dict} {calls : List Call}
    {result : Py AcceptedDecision} (hm : .received body calls result ∈ h) :
    ∃ h₁ s₁ s₂, Runs G cfg tick t₀ h₁ s₁ ∧ h₁ <+: h ∧
      Fallible.Path (Receiver.receive G cfg body) calls result ∧
      Evolves (handle tick) s₁ calls s₂ := by
  have hgrow : ∀ {k : List Happened} {e : Happened}, (∃ h₁ s₁ s₂, Runs G cfg tick t₀ h₁ s₁ ∧
      h₁ <+: k ∧ Fallible.Path (Receiver.receive G cfg body) calls result ∧
      Evolves (handle tick) s₁ calls s₂) → ∃ h₁ s₁ s₂, Runs G cfg tick t₀ h₁ s₁ ∧
      h₁ <+: k ++ [e] ∧ Fallible.Path (Receiver.receive G cfg body) calls result ∧
      Evolves (handle tick) s₁ calls s₂ := by
    rintro k e ⟨h₁, s₁, s₂, h1, h2, h3, h4⟩
    exact ⟨h₁, s₁, s₂, h1, h2.trans (List.prefix_append _ _), h3, h4⟩
  induction hr with
  | start => cases hm
  | pass hr ht ih => exact ih hm
  | @receive h s s' b cs r hr hp he ih =>
    rcases List.mem_append.mp hm with hm | hm
    · exact hgrow (ih hm)
    · cases List.mem_singleton.mp hm
      exact ⟨h, s, s', hr, List.prefix_append _ _, hp, he⟩
  | addContact hr ih | removeContact hr ih | recordOutbound hr ht ih =>
    exact hgrow (ih (by simpa using hm))

/-- Every request in the history is a way through `receive`. -/
theorem Runs.path (hr : Runs G cfg tick t₀ h s) {body : Dict} {calls : List Call}
    {result : Py AcceptedDecision} (hm : .received body calls result ∈ h) :
    Fallible.Path (Receiver.receive G cfg body) calls result := by
  obtain ⟨-, -, -, -, -, hp, -⟩ := hr.split hm
  exact hp

end

/-! ## A request of a contact -/

def helloKey : Bytes :=
  [138, 136, 227, 221, 116, 9, 241, 149, 253, 82, 219, 45, 60, 186, 93, 114, 202, 103, 9, 191,
    29, 148, 18, 27, 243, 116, 136, 1, 180, 15, 111, 92]

def helloSignature : Bytes :=
  [33, 223, 193, 142, 236, 208, 17, 18, 9, 242, 59, 195, 132, 87, 244, 138, 194, 146, 42, 174,
    174, 34, 126, 144, 38, 241, 9, 148, 72, 118, 86, 95, 19, 91, 121, 160, 178, 159, 134, 70,
    157, 216, 111, 190, 248, 11, 38, 47, 107, 163, 221, 208, 113, 226, 26, 114, 118, 14, 29, 94,
    182, 16, 192, 3]

def helloHeader : Dict :=
  ((Dict.empty.set (text "alg") (.str (text "EdDSA")) trivial).set (text "kid")
    (.str (text "a@b.co")) trivial).set (text "typ") (.str envelopeTyp) trivial

/-- The signing input of a token, whose last part is a signature of 64 bytes. -/
def signedPart (token : Text) : Bytes :=
  (token.take (token.length - 87)).map fun c => UInt8.ofNat c.val

/-- PyJWT, SHA-256 and Ed25519 as they are on the token of `hello`. -/
def contactRuntime : Runtime := { helloRuntime with
  getUnverifiedHeader := fun token =>
    if token = helloToken then .ok helloHeader else .error ⟨.pyJwtError, []⟩
  ed25519Verify := fun key sig msg =>
    decide (key = helloKey ∧ sig = helloSignature ∧ msg = signedPart helloToken) }

/-- The message of `hello` with an envelope in it. -/
def helloMessage (envelopeJws : Text) : Dict :=
  let metadata := Dict.empty.set envelopeExtensionUri (.str envelopeJws) (Json.distinct_str _)
  hello.toWire.set (text "metadata") (.obj metadata.members) metadata.distinct

def requestWith (envelopeJws : Text) : Dict :=
  Dict.empty.set (text "message") (.obj (helloMessage envelopeJws).members)
    (helloMessage envelopeJws).distinct

def helloBody : Dict := requestWith helloToken

def contactConfig : ReceiverConfig where
  subject := text "c@b.co"
  trustStore := []
  policy := ⟨[], []⟩
  sameProviderOrg := false
  autoAddLookbackSeconds := 86400
  leewaySeconds := 60

def helloDecision : AcceptedDecision where
  route := .inbox
  sender := text "a@b.co"
  envelope := { helloTemplate with msgHash := helloHash }
  autoAddedContact := false

def helloRecord : ProviderRecord :=
  ⟨text "b.co", text "0.2", text "https://b.co", [], false, []⟩

/-- The calls up to the envelope's verification. -/
def helloResolving : List Call :=
  [⟨.providerLookup (text "b.co"), .ok helloRecord⟩,
    ⟨.fetchAgentCard (text "a@b.co") helloRecord,
      .ok (text "z6Mkon3Necd6NkkyfoGoHxid2znGc59LU3K7mubaRcFbLfLX")⟩]

def helloClassifying : List Call :=
  [⟨.forSender (text "a@b.co"), []⟩, ⟨.isContact (text "a@b.co"), true⟩]

def helloCalls : List Call :=
  helloResolving ++ ⟨.now, (200 : Int)⟩ :: ⟨.seen (text "a@b.co") (text "m1"), false⟩ ::
    ⟨.remember (text "a@b.co") (text "m1") 600, ()⟩ :: helloClassifying

theorem hello_preparse : preparse contactRuntime contactConfig helloBody =
    .ok ⟨helloToken, helloMessage helloToken, text "a@b.co"⟩ := by
  decide +kernel

theorem hello_senderKey :
    SenderKey contactRuntime (text "a@b.co") helloResolving helloKey (some helloRecord) :=
  @SenderKey.provider _ _ (text "a") _ _ _ _ (by decide) (by decide)
    (by decide)

theorem hello_envelope : openEnvelope contactRuntime contactConfig helloToken helloKey 200 =
    .ok helloDecision.envelope := by
  decide +kernel

theorem hello_checked :
    checkMessage contactRuntime helloDecision.envelope (helloMessage helloToken) =
      .ok (text "m1") := by
  decide

/-- The request passes steps 2 to 7. -/
theorem hello_authenticated : Fallible.Path (authenticate contactRuntime contactConfig helloBody)
    (helloResolving ++ [⟨.now, (200 : Int)⟩])
    (.ok ⟨helloMessage helloToken, text "a@b.co", some helloRecord, helloDecision.envelope,
      text "m1"⟩) :=
  authenticate_eq_ok.mpr ⟨_, helloKey, 200, helloResolving, hello_preparse, rfl, hello_senderKey,
    hello_envelope, hello_checked, rfl, rfl⟩

theorem hello_classified : Fallible.Path (classify contactRuntime contactConfig (text "a@b.co")
    (some helloRecord) [] none) [⟨.isContact (text "a@b.co"), true⟩] (.ok (.inbox, false)) := by
  have hsame : sameProvider contactRuntime contactConfig (some helloRecord) = .ok false := rfl
  exact Fallible.path_bind_ok.mpr ⟨[], _, false, rfl, path_py.mpr ⟨rfl, hsame.symm⟩,
    Fallible.path_bind_ok.mpr ⟨[_], [], true, rfl, path_ask.mpr ⟨true, rfl, rfl⟩,
      Fallible.path_pure.mpr ⟨rfl, rfl⟩⟩⟩

/-- A contact's request goes to the inbox. -/
def helloAccepted : Accepted contactRuntime contactConfig helloBody helloCalls helloDecision where
  preparsed := _
  senderKey := _
  record := _
  messageId := _
  time := _
  credentials := []
  contextId := none
  resolving := _
  validating := [⟨.forSender (text "a@b.co"), []⟩]
  classifying := _
  preparse_ok := hello_preparse
  senderKey_ok := hello_senderKey
  envelope_ok := hello_envelope
  message_ok := hello_checked
  credentials_ok := path_ask.mpr ⟨[], rfl, rfl⟩
  contextId_ok := by decide
  classify_ok := hello_classified
  sender_eq := rfl
  calls_eq := rfl

theorem hello_path :
    Fallible.Path (receive contactRuntime contactConfig helloBody) helloCalls
      (.ok helloDecision) :=
  helloAccepted.path

def helloStores : Stores := (Stores.empty 200).addContact (text "a@b.co")

def helloAfter : Stores :=
  { helloStores with
    replay := (helloStores.replay.prune 200).remember 200 (text "a@b.co") (text "m1") 600
    credentials := Function.update helloStores.credentials (text "a@b.co") [] }

theorem hello_evolves {tick : Int → Int → Prop} (htick : ∀ t, tick t t) :
    Evolves (handle tick) helloStores helloCalls helloAfter := by
  refine .cons rfl (.cons rfl (.cons ⟨htick 200, rfl⟩ (.cons ⟨200, htick 200, rfl, rfl⟩
    (.cons ⟨200, htick 200, rfl⟩ (.cons ⟨200, htick 200, rfl, rfl⟩ (.cons ⟨?_, rfl⟩ (.nil _)))))))
  decide

end Shadownet.Receiver
