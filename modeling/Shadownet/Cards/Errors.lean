import Shadownet.Cards.Signed

/-!
# Errors of the card verifiers

A caller expects `AgentCardError` from `verify_agent_card` and `verify_self_signed_agent_card`.
Three other exceptions come through: the one of a name that is none, the one of a card that has no
canonical form, and the `AttributeError` of a protected header that is JSON and no object, which
also ends the loop before the signatures behind it.

* `cardErrors_typed_iff`: the inputs on which every error is an `AgentCardError`, and the
  signatures that a valid one may stand behind.
-/

namespace Shadownet.Cards

open Foundation Python
open Receiver (ProviderRecord)

/-- Every exception is an `AgentCardError`. -/
def Typed {α : Type} (x : Py α) : Prop := ∀ e, x = .error e → e.cls.isA .agentCardError = true

namespace Typed

variable {α β : Type}

theorem pure (a : α) : Typed (Pure.pure a : Py α) := nofun

theorem throw {e : Exc} (h : e.cls.isA .agentCardError = true) :
    Typed (MonadExcept.throw e : Py α) := by
  intro e' h'
  rwa [← Except.error.inj h']

theorem of_raises {c : ExcClass} {x : Py α} (hx : Raises c x)
    (hc : c.isA .agentCardError = true) : Typed x := by
  intro e h
  rwa [hx e h]

theorem bind_iff {x : Py α} {f : α → Py β} (hx : Typed x) :
    Typed (x >>= f) ↔ ∀ a, x = .ok a → Typed (f a) := by
  cases x with
  | error e =>
    refine iff_of_true (fun e' h => hx e' ?_) nofun
    rw [error_bind] at h
    rw [Except.error.inj h]
  | ok a =>
    refine ⟨?_, fun h => h a rfl⟩
    rintro h b ⟨⟩
    exact h

theorem bind {x : Py α} {f : α → Py β} (hx : Typed x) (hf : ∀ a, Typed (f a)) :
    Typed (x >>= f) :=
  (bind_iff hx).mpr fun a _ => hf a

/-- A step that raises nothing of the kind. -/
theorem bind_iff_of_untyped {x : Py α} {f : α → Py β}
    (hx : ∀ e, x = .error e → e.cls.isA .agentCardError = false) :
    Typed (x >>= f) ↔ ∃ a, x = .ok a ∧ Typed (f a) := by
  cases x with
  | error e =>
    refine iff_of_false (fun h => ?_) ?_
    · have htrue := h e rfl
      rw [hx e rfl] at htrue
      cases htrue
    · rintro ⟨a, ⟨⟩, -⟩
  | ok a =>
    refine ⟨fun h => ⟨a, rfl, h⟩, ?_⟩
    rintro ⟨b, ⟨⟩, h⟩
    exact h

theorem guard_iff {c : Prop} [Decidable c] {e : Exc} {x : Py α}
    (he : e.cls.isA .agentCardError = true) :
    Typed (if c then MonadExcept.throw e else x) ↔ (¬ c → Typed x) := by
  by_cases h : c
  · rw [if_pos h]
    exact iff_of_true (throw he) fun hn => absurd h hn
  · rw [if_neg h]
    exact ⟨fun hx _ => hx, fun hx => hx h⟩

end Typed

/-! ## One signature -/

/-- The protected header is JSON, and no object. -/
def BreaksOff (J : JsonRuntime) (sig : List (Text × Value)) : Prop :=
  ∃ protectedB64 signatureB64 raw header,
    sig.lookup (text "protected") = some (.str protectedB64) ∧
    sig.lookup (text "signature") = some (.str signatureB64) ∧
    b64urlDecode protectedB64 = .ok raw ∧ jsonLoads J raw = .ok header ∧
    ∀ members, header ≠ .obj members

section
variable {G : Runtime} {J : JsonRuntime} {sig : List (Text × Value)} {payload : Bytes}
  {kid : Text} {signers : List Text}

theorem raises_trySigners {signature message : Bytes} {lastFailure : Text} :
    Raises .agentCardSignatureError (trySigners G signature message lastFailure signers) := by
  induction signers generalizing lastFailure with
  | nil => exact .throw _
  | cons pk rest ih =>
    rw [trySigners]
    cases verifyUnder G signature message pk with
    | ok u => exact .pure _
    | error exc => exact ih

theorem raises_requireHeader {members : List (Text × Value)} {k expected message : Text} :
    Raises .agentCardSignatureError (requireHeader G (.obj members) k expected message) :=
  .bind (.pure _) fun _ => .ite (.throw _) (.pure _)

/-- A text that decodes is ASCII. -/
theorem ascii_of_b64urlDecode {s : Text} {raw : Bytes} (h : b64urlDecode s = .ok raw) :
    ∀ c ∈ s, c.val < 0x80 := by
  rw [b64urlDecode, urlsafeB64decode] at h
  split_ifs at h with hascii
  intro c hc
  by_contra hn
  refine hascii (List.any_eq_true.mpr ⟨c, List.mem_append_left _ hc, decide_eq_true ?_⟩)
  exact hn

theorem encodeAscii_signed {protectedB64 : Text} {raw : Bytes}
    (h : b64urlDecode protectedB64 = .ok raw) :
    ∃ b, encodeAscii (protectedB64 ++ 46 :: base64Url payload) = .ok b := by
  refine ⟨_, encodeAscii_of_ascii fun c hc => ?_⟩
  rcases List.mem_append.mp hc with hc | hc
  · exact ascii_of_b64urlDecode h c hc
  · rcases List.mem_cons.mp hc with rfl | hc
    · exact (by decide : (46 : CodePoint).val < 0x80)
    · have := base64Url_mem hc
      exact (by omega : c.val < 0x80)

/-- `_verify_one` raises an `AttributeError` for a header that is no object, and otherwise only
what the loop catches. -/
theorem verifyOne_errors (hdecode : ∀ enc b, Raises .unicodeDecodeError (J.decode enc b)) :
    (BreaksOff J sig → ∃ e, verifyOne G J sig (base64Url payload) signers kid = .error e ∧
      e.cls = .attributeError) ∧
    (¬ BreaksOff J sig →
      Raises .agentCardSignatureError (verifyOne G J sig (base64Url payload) signers kid)) := by
  constructor
  · rintro ⟨protectedB64, signatureB64, raw, header, hp, hs, hraw, hload, hnone⟩
    rw [verifyOne, hp, hs]
    simp only [hraw, ok_bind, hload, reraise]
    cases header with
    | obj members => exact absurd rfl (hnone members)
    | _ => exact ⟨_, rfl, rfl⟩
  · intro hgood
    unfold verifyOne
    split
    · rename_i protectedB64 signatureB64 hp hs
      have hread : ∀ e, (do
          let headerBytes ← b64urlDecode protectedB64
          jsonLoads J headerBytes) = .error e →
          [ExcClass.valueError, .jsonDecodeError].any e.cls.isA = true := by
        intro e he
        rw [List.any_cons]
        cases hraw : b64urlDecode protectedB64 with
        | error e' =>
          rw [hraw, error_bind] at he
          rw [← Except.error.inj he, urlsafeB64decode_error hraw, Bool.true_or]
        | ok raw =>
          rw [hraw, ok_bind] at he
          rw [jsonLoads_error hdecode he, Bool.true_or]
      refine (raises_bind_iff (c := .agentCardSignatureError)
        (raises_reraise_all hread fun _ => rfl)).mpr fun header hheader => ?_
      rw [reraise_eq_ok, bind_eq_ok] at hheader
      obtain ⟨raw, hraw, hload⟩ := hheader
      have hobj : ∃ members, header = .obj members := by
        by_contra hno
        exact hgood ⟨protectedB64, signatureB64, raw, header, hp, hs, hraw, hload,
          fun members h => hno ⟨members, h⟩⟩
      obtain ⟨members, rfl⟩ := hobj
      have hsignature : ∀ e, b64urlDecode signatureB64 = .error e →
          [ExcClass.valueError].any e.cls.isA = true := by
        intro e he
        rw [List.any_cons, urlsafeB64decode_error he, Bool.true_or]
      refine .bind raises_requireHeader fun _ => .bind raises_requireHeader fun _ =>
        .bind raises_requireHeader fun _ =>
          .bind (raises_reraise_all hsignature fun _ => rfl) fun signature => ?_
      obtain ⟨b, hb⟩ := @encodeAscii_signed payload _ _ hraw
      rw [hb, ok_bind]
      exact raises_trySigners
    · exact .throw _

/-! ## The loop over the signatures -/

/-- An entry that is accepted. -/
def Accepted (G : Runtime) (J : JsonRuntime) (payload : Bytes) (signers : List Text) (kid : Text)
    (v : Value) : Prop :=
  ∃ sig, v = .obj sig ∧ verifyOne G J sig (base64Url payload) signers kid = .ok ()

/-- Each entry that breaks off stands behind an accepted one. -/
def Passable (G : Runtime) (J : JsonRuntime) (payload : Bytes) (signers : List Text) (kid : Text)
    (entries : List Value) : Prop :=
  ∀ before sig rest, entries = before ++ .obj sig :: rest → BreaksOff J sig →
    ∃ v ∈ before, Accepted G J payload signers kid v

theorem passable_cons {v : Value} {entries : List Value} :
    Passable G J payload signers kid (v :: entries) ↔
      (∀ sig, v = .obj sig → ¬ BreaksOff J sig) ∧
        (Accepted G J payload signers kid v ∨ Passable G J payload signers kid entries) := by
  constructor
  · intro h
    refine ⟨fun sig hv hbreaks => ?_, ?_⟩
    · obtain ⟨w, hw, -⟩ := h [] sig entries (by rw [hv]; rfl) hbreaks
      cases hw
    · by_cases hv : Accepted G J payload signers kid v
      · exact .inl hv
      · refine .inr fun before sig rest hentries hbreaks => ?_
        obtain ⟨w, hw, hacc⟩ := h (v :: before) sig rest (by rw [hentries]; rfl) hbreaks
        rcases List.mem_cons.mp hw with rfl | hw
        · exact absurd hacc hv
        · exact ⟨w, hw, hacc⟩
  · rintro ⟨hgood, hrest⟩ before sig rest hentries hbreaks
    cases before with
    | nil => exact absurd hbreaks (hgood sig (List.cons.inj hentries).1)
    | cons w before =>
      obtain ⟨rfl, htail⟩ := List.cons.inj hentries
      rcases hrest with hacc | hrest
      · exact ⟨v, List.mem_cons_self, hacc⟩
      · obtain ⟨u, hu, hacc⟩ := hrest before sig rest htail hbreaks
        exact ⟨u, List.mem_cons_of_mem _ hu, hacc⟩

/-- An entry ends the loop with an `AttributeError`, or is accepted, or is passed. -/
theorem verifySignatures_cons (hdecode : ∀ enc b, Raises .unicodeDecodeError (J.decode enc b))
    (v : Value) (entries : List Value) (lastError : Option Exc) :
    ((∃ sig, v = .obj sig ∧ BreaksOff J sig) ∧ ∃ e, e.cls = .attributeError ∧
      verifySignatures G J (base64Url payload) signers kid lastError (v :: entries) = .error e) ∨
    ((∀ sig, v = .obj sig → ¬ BreaksOff J sig) ∧
      (Accepted G J payload signers kid v ∧
        verifySignatures G J (base64Url payload) signers kid lastError (v :: entries) = .ok () ∨
      ¬ Accepted G J payload signers kid v ∧ ∃ lastError',
        verifySignatures G J (base64Url payload) signers kid lastError (v :: entries) =
          verifySignatures G J (base64Url payload) signers kid lastError' entries)) := by
  by_cases hobj : ∃ sig, v = .obj sig
  · obtain ⟨sig, rfl⟩ := hobj
    have hone := @verifyOne_errors G J sig payload kid signers hdecode
    rw [verifySignatures]
    by_cases hbreaks : BreaksOff J sig
    · obtain ⟨e, he, hcls⟩ := hone.1 hbreaks
      refine .inl ⟨⟨sig, rfl, hbreaks⟩, e, hcls, ?_⟩
      rw [he]
      exact if_neg (by rw [hcls]; decide)
    · refine .inr ⟨?_, ?_⟩
      · rintro sig' ⟨⟩
        exact hbreaks
      · cases he : verifyOne G J sig (base64Url payload) signers kid with
        | ok u => exact .inl ⟨⟨sig, rfl, he⟩, rfl⟩
        | error e =>
          refine .inr ⟨?_, some e, if_pos (by rw [hone.2 hbreaks e he]; decide)⟩
          rintro ⟨sig', ⟨⟩, hacc⟩
          rw [he] at hacc
          cases hacc
  · have hne : ∀ sig, v ≠ .obj sig := fun sig h => hobj ⟨sig, h⟩
    refine .inr ⟨fun sig hv => absurd hv (hne sig), .inr ⟨?_, lastError, ?_⟩⟩
    · rintro ⟨sig, hv, -⟩
      exact hne sig hv
    · cases v with
      | obj sig => exact absurd rfl (hne sig)
      | _ => rfl

/-- The loop raises only `AgentCardError`s when no entry breaks off before an accepted one. -/
theorem typed_verifySignatures_iff
    (hdecode : ∀ enc b, Raises .unicodeDecodeError (J.decode enc b)) {entries : List Value}
    {lastError : Option Exc} :
    Typed (verifySignatures G J (base64Url payload) signers kid lastError entries) ↔
      Passable G J payload signers kid entries := by
  induction entries generalizing lastError with
  | nil =>
    refine iff_of_true (.throw rfl) fun before sig rest h => ?_
    simp at h
  | cons v entries ih =>
    rw [passable_cons]
    rcases @verifySignatures_cons G J payload kid signers hdecode v entries lastError with
      ⟨⟨sig, hv, hbreaks⟩, e, hcls, he⟩ |
        ⟨hgood, ⟨hacc, hok⟩ | ⟨hnot, lastError', hnext⟩⟩
    · refine iff_of_false (fun h => ?_) fun h => h.1 sig hv hbreaks
      have htrue := h e he
      rw [hcls] at htrue
      cases htrue
    · rw [hok]
      exact iff_of_true (.pure _) ⟨hgood, .inl hacc⟩
    · rw [hnext, ih]
      exact ⟨fun h => ⟨hgood, .inr h⟩, fun h => h.2.resolve_left hnot⟩

/-- A valid entry is reached when no entry before it breaks off before an accepted one. -/
theorem verifySignatures_reaches_iff
    (hdecode : ∀ enc b, Raises .unicodeDecodeError (J.decode enc b)) {before rest : List Value}
    {lastError : Option Exc} (h : verifyOne G J sig (base64Url payload) signers kid = .ok ()) :
    verifySignatures G J (base64Url payload) signers kid lastError (before ++ .obj sig :: rest) =
      .ok () ↔ Passable G J payload signers kid before := by
  induction before generalizing lastError with
  | nil =>
    refine iff_of_true ?_ fun before sig rest h => ?_
    · rw [List.nil_append, verifySignatures, h]
      rfl
    · simp at h
  | cons v before ih =>
    rw [passable_cons, List.cons_append]
    rcases @verifySignatures_cons G J payload kid signers hdecode v (before ++ .obj sig :: rest)
      lastError with ⟨⟨sig', hv, hbreaks⟩, e, -, he⟩ |
        ⟨hgood, ⟨hacc, hok⟩ | ⟨hnot, lastError', hnext⟩⟩
    · rw [he]
      exact iff_of_false (fun h => by cases h) fun h => h.1 sig' hv hbreaks
    · rw [hok]
      exact iff_of_true rfl ⟨hgood, .inl hacc⟩
    · rw [hnext, ih]
      exact ⟨fun h => ⟨hgood, .inr h⟩, fun h => h.2.resolve_left hnot⟩

/-! ## The fields -/

variable {card : Dict}

theorem typed_requireStr (key : Text) : Typed (requireStr G card key) := by
  rw [requireStr]
  split
  · exact .pure _
  · exact .throw rfl

theorem typed_checkShadowKey (pk : Text) : Typed (checkShadowKey G pk) :=
  .bind (.of_raises (c := .agentCardError)
    (.reraise (raises_parsePublicKey pk) (by decide) fun _ => rfl) rfl) fun _ => .pure ()

theorem typed_checkVersion : Typed (checkVersion G card) :=
  .bind (typed_requireStr _) fun _ => (Typed.guard_iff rfl).mpr fun _ => .pure ()

theorem typed_validateExtensions : Typed (validateExtensions card) := by
  rw [validateExtensions]
  split
  · split
    · split_ifs
      · exact .pure ()
      · exact .throw rfl
    · exact .throw rfl
  · exact .throw rfl

theorem typed_supportedInterfaceUrl : Typed (supportedInterfaceUrl card) := by
  rw [supportedInterfaceUrl]
  split
  · split
    · split
      · exact .pure _
      · exact .throw rfl
    · exact .throw rfl
  · exact .throw rfl

theorem typed_validateDirectSecurityScheme : Typed (validateDirectSecurityScheme G card) := by
  unfold validateDirectSecurityScheme
  split
  · split_ifs
    · exact .pure ()
    · exact .throw rfl
  · exact .throw rfl

theorem typed_signaturesOf : Typed (signaturesOf card) := by
  rw [signaturesOf]
  split
  · exact .pure _
  · exact .throw rfl

/-! ## The verifiers -/

/-- What a card with signatures has to be: its signed part has a canonical form, and no entry
breaks off before an accepted one. -/
def Checkable (G : Runtime) (J : JsonRuntime) (card : Dict) (signers : List Text) (kid : Text) :
    Prop :=
  ∀ entries, card.get? (text "signatures") = some (.arr entries) → entries ≠ [] →
    ∀ signed, stripEmpty (.obj (unsigned card).members) = some signed →
      Encodable signed ∧ Passable G J (utf8 (canonicalText signed)) signers kid entries

theorem typed_signed_iff (hdecode : ∀ enc b, Raises .unicodeDecodeError (J.decode enc b))
    {β : Type} {f : Py β} (hf : Typed f) :
    Typed (signaturesOf card >>= fun signatures => canonicalCardPayload card >>= fun payload =>
      verifySignatures G J (base64Url payload) signers kid none signatures >>= fun _ => f) ↔
      Checkable G J card signers kid := by
  rw [Typed.bind_iff typed_signaturesOf, Checkable]
  simp only [signaturesOf_eq_ok, and_imp]
  refine forall₃_congr fun entries _ _ => ?_
  rw [canonicalCardPayload]
  cases hstrip : stripEmpty (.obj (unsigned card).members) with
  | none =>
    refine iff_of_true (.throw rfl) ?_
    rintro _ ⟨⟩
  | some signed =>
    have huntyped : ∀ e, canonicalize signed = .error e → e.cls.isA .agentCardError = false := by
      intro e he
      have hvalue := canonicalize_error he
      revert hvalue
      cases e.cls <;> decide
    dsimp only
    rw [Typed.bind_iff_of_untyped huntyped]
    simp only [canonicalize_eq_ok, Option.some.injEq, forall_eq', and_assoc, exists_and_left,
      exists_eq_left]
    refine and_congr_right fun _ => ?_
    constructor
    · intro h
      refine (@typed_verifySignatures_iff _ _ _ _ _ hdecode _ none).mp fun e he => h e ?_
      rw [he]
      rfl
    · exact fun h => .bind ((typed_verifySignatures_iff hdecode).mpr h) fun _ => hf

theorem typed_verifyAgentCard_iff
    (hdecode : ∀ enc b, Raises .unicodeDecodeError (J.decode enc b)) {record : ProviderRecord}
    {shadowname : Text} :
    Typed (verifyAgentCard G J card record shadowname) ↔
      ∃ canonicalName, validateShadowname G shadowname = .ok canonicalName ∧
        ((partitionAt canonicalName).2 = record.domain →
          Checkable G J card record.providerKeys (text "shadownet@" ++ record.domain)) := by
  have huntyped : ∀ e, validateShadowname G shadowname = .error e →
      e.cls.isA .agentCardError = false := by
    intro e he
    rw [raises_validateShadowname shadowname e he]
    rfl
  rw [verifyAgentCard, Typed.bind_iff_of_untyped huntyped]
  refine exists_congr fun canonicalName => and_congr_right fun _ => ?_
  rw [Typed.guard_iff rfl, not_not]
  refine imp_congr_right fun _ => ?_
  exact typed_signed_iff hdecode (.bind (typed_requireStr _) fun _ =>
    .bind (typed_checkShadowKey _) fun _ => .bind typed_checkVersion fun _ =>
      .bind typed_validateExtensions fun _ =>
        .bind typed_supportedInterfaceUrl fun _ => .pure _)

theorem typed_verifySelfSignedAgentCard_iff
    (hdecode : ∀ enc b, Raises .unicodeDecodeError (J.decode enc b)) {key : Text} :
    Typed (verifySelfSignedAgentCard G J card key) ↔ Checkable G J card [key] key :=
  typed_signed_iff hdecode (.bind (typed_requireStr _) fun _ =>
    (Typed.guard_iff rfl).mpr fun _ => .bind (typed_checkShadowKey _) fun _ =>
      .bind typed_checkVersion fun _ => .bind typed_validateExtensions fun _ =>
        .bind typed_validateDirectSecurityScheme fun _ =>
          .bind typed_supportedInterfaceUrl fun _ => .pure _)

end

/-- The inputs on which every error is an `AgentCardError`, and the entries that a valid one may
stand behind. -/
theorem cardErrors_typed_iff (G : Runtime) {J : JsonRuntime}
    (hdecode : ∀ enc b, Raises .unicodeDecodeError (J.decode enc b)) :
    (∀ card record shadowname, Typed (verifyAgentCard G J card record shadowname) ↔
      ∃ canonicalName, validateShadowname G shadowname = .ok canonicalName ∧
        ((partitionAt canonicalName).2 = record.domain →
          Checkable G J card record.providerKeys (text "shadownet@" ++ record.domain))) ∧
    (∀ card key, Typed (verifySelfSignedAgentCard G J card key) ↔
      Checkable G J card [key] key) ∧
    ∀ payload signers kid lastError before sig rest,
      verifyOne G J sig (base64Url payload) signers kid = .ok () →
      (verifySignatures G J (base64Url payload) signers kid lastError
          (before ++ .obj sig :: rest) = .ok () ↔
        Passable G J payload signers kid before) :=
  ⟨fun _ _ _ => typed_verifyAgentCard_iff hdecode,
    fun _ _ => typed_verifySelfSignedAgentCard_iff hdecode,
    fun _ _ _ _ _ _ _ h => verifySignatures_reaches_iff hdecode h⟩

theorem plainJson_decode (enc : Encoding) (b : Bytes) :
    Raises .unicodeDecodeError (Interop.plainJson.decode enc b) :=
  .throw []

theorem verifyOne_sampleSignature : verifyOne cardRuntime Interop.plainJson (sampleSignature true)
    (base64Url (utf8 cardPayload)) [cardKey] cardKey = .ok () := by
  obtain ⟨sigs, payload, hsigs, hpayload, hverify⟩ := signedBy_sampleCard true false true
  obtain rfl := Except.ok.inj ((payload_sampleCard true false true).symm.trans hpayload)
  obtain rfl : [.obj (sampleSignature true)] = sigs := Except.ok.inj hsigs
  rw [verifySignatures] at hverify
  have hkid : cardKid true = cardKey := rfl
  rw [hkid] at hverify
  cases hone : verifyOne cardRuntime Interop.plainJson (sampleSignature true)
      (base64Url (utf8 cardPayload)) [cardKey] cardKey with
  | ok u => rfl
  | error e =>
    rw [hone] at hverify
    dsimp only at hverify
    split_ifs at hverify
    cases hverify

/-- An entry that is `null` and one without members stand before a valid one. -/
theorem cardErrors_typed_sample :
    (∃ canonicalName, validateShadowname cardRuntime (text "x@a.co") = .ok canonicalName ∧
      ((partitionAt canonicalName).2 = cardRecord.domain →
        Checkable cardRuntime Interop.plainJson (sampleCard false false true)
          cardRecord.providerKeys
          (text "shadownet@" ++ cardRecord.domain))) ∧
    Checkable cardRuntime Interop.plainJson (sampleCard true false true) [cardKey] cardKey ∧
    verifySignatures cardRuntime Interop.plainJson (base64Url (utf8 cardPayload)) [cardKey] cardKey
      none [.null, .obj [], .obj (sampleSignature true)] = .ok () := by
  obtain ⟨hagent, hself, hreaches⟩ := cardErrors_typed_iff cardRuntime plainJson_decode
  have hname : validateShadowname cardRuntime (text "x@a.co") = .ok (text "x@a.co") := by
    decide
  have hok : verifyAgentCard cardRuntime Interop.plainJson (sampleCard false false true) cardRecord
      (text "x@a.co") = .ok ⟨text "x@a.co", cardKey, text "https://a.co/x",
        sampleCard false false true⟩ :=
    verifyAgentCard_eq_ok.mpr ⟨hname, by decide, signedBy_sampleCard false false true,
      fields_sampleCard false false true, rfl⟩
  have hok' : verifySelfSignedAgentCard cardRuntime Interop.plainJson (sampleCard true false true)
      cardKey = .ok ⟨cardKey, cardKey, text "https://a.co/x", sampleCard true false true⟩ :=
    verifySelfSignedAgentCard_eq_ok.mpr ⟨signedBy_sampleCard true false true,
      fields_sampleCard true false true, by decide, rfl⟩
  refine ⟨(hagent _ _ _).mp (by rw [hok]; exact .pure _),
    (hself _ _).mp (by rw [hok']; exact .pure _),
    (hreaches _ _ _ none [.null, .obj []] _ [] verifyOne_sampleSignature).mpr ?_⟩
  refine passable_cons.mpr ⟨nofun, .inr (passable_cons.mpr ⟨?_, .inr ?_⟩)⟩
  · rintro sig ⟨⟩ ⟨_, _, _, _, hp, -⟩
    cases hp
  · intro before sig rest h
    simp at h

/-- A signature whose protected header is `[]`. -/
def brokenEntry : List (Text × Value) :=
  [(text "protected", .str (text "W10")), (text "signature", .str [])]

/-- A card with a member that has no canonical form. -/
def floatCard : Dict where
  members := [(text "x", .num (.float 0)), (text "signatures", .arr [.null])]
  distinct := by decide

/-- A name that is none, a number that has no canonical form, and a header that is no object,
before a signature that is accepted alone. -/
theorem cardErrors_untyped :
    verifyAgentCard cardRuntime Interop.plainJson (sampleCard false false true) cardRecord
        (text "x") = .error (invalidIdentifierError (text "shadowname missing '@': " ++
          cardRuntime.reprStr (text "x"))) ∧
    verifySelfSignedAgentCard cardRuntime Interop.plainJson floatCard cardKey =
      .error (jcsError (text "float canonicalization is intentionally unsupported")) ∧
    verifySignatures cardRuntime Interop.plainJson (base64Url (utf8 cardPayload)) [cardKey] cardKey
      none [.obj (sampleSignature true)] = .ok () ∧
    verifySignatures cardRuntime Interop.plainJson (base64Url (utf8 cardPayload)) [cardKey] cardKey
      none [.obj brokenEntry, .obj (sampleSignature true)] =
        .error ⟨.attributeError, text "'list' object has no attribute 'get'"⟩ := by
  have hsigs : signaturesOf floatCard = .ok [.null] := rfl
  have hpayload : canonicalCardPayload floatCard =
      .error (jcsError (text "float canonicalization is intentionally unsupported")) := by
    decide
  refine ⟨rfl, ?_, ?_, by decide⟩
  · rw [verifySelfSignedAgentCard, hsigs, ok_bind, hpayload]
    rfl
  · rw [verifySignatures, verifyOne_sampleSignature]
    rfl

end Shadownet.Cards
