import Shadownet.Foundation.Fallible
import Shadownet.Issuer.Handler

/-!
# The ways through `serveIssue`

The calls a POST can make, in order, with the response it ends in. Whatever the store, the
authorizer and the hook answer, a POST takes one of these ways (`path_serveIssue_ways`).
-/

namespace Shadownet.Issuer

open Foundation Go

section
variable (G : Runtime) (V : Verifier) (cfg : HandlerConfig)

/-- At time `t` the body is a CSR the issuer accepts, with the idempotency key `idem`. -/
def Verified (body : Option Bytes) (t : Time) (parsed : CsrPayload) (idem : Bytes) : Prop :=
  ∃ data, body = some data ∧ requestToken cfg data ≠ [] ∧
    parseAndVerifyCSR G V cfg.issuerIdentifier t (requestToken cfg data) = .ok parsed ∧
    idempotencyKey G parsed.iss parsed.aud parsed.req = .ok idem

/-- The row `c` carries the credential that was minted for it at `t`. -/
structure MintedAt (parsed : CsrPayload) (idem : Bytes) (t : Time) (c : CredentialRow) :
    Prop where
  mint : mint G cfg.signerPrivate cfg.signerPublic
    (approvedPayload cfg parsed t c.epoch c.idx) = .ok c.jws
  row : c = approvedRow cfg parsed idem c.jws t c.epoch c.idx

/-- What is left to do after the hook's answer. -/
inductive DecisionPath (parsed : CsrPayload) (idem : Bytes) :
    GoM Decision → Calls IssueOp IssueAns → Response → Prop
  | failed (e : Bytes) :
      DecisionPath parsed idem (.error e) []
        (writeProblem 500 "parse_error" (bytes "hook failed"))
  | pending (d : Decision) (hd : d.outcome = .pending) :
      DecisionPath parsed idem (.ok d) [] (writeCeremonyPending d.nextURL)
  | rejected (d : Decision) (hd : d.outcome = .reject) :
      DecisionPath parsed idem (.ok d) [] (writeCeremonyFailed d.reason)
  | unknown (d : Decision) (n : Int) (hd : d.outcome = .other n) :
      DecisionPath parsed idem (.ok d) []
        (writeProblem 500 "parse_error" (bytes "unknown hook outcome"))
  | unallocated (d : Decision) (hd : d.outcome = .approve) (t : Time) (e : StoreError) :
      DecisionPath parsed idem (.ok d)
        [⟨.now, t⟩, ⟨.allocateIndex (t.addSeconds 604800), .error e⟩]
        (writeProblem 500 "parse_error" (bytes "alloc failed"))
  | unminted (d : Decision) (hd : d.outcome = .approve) (t : Time) (p : Nat × Nat) :
      DecisionPath parsed idem (.ok d)
        [⟨.now, t⟩, ⟨.allocateIndex (t.addSeconds 604800), .ok p⟩]
        (writeProblem 500 "parse_error" (bytes "mint failed"))
  | stored (d : Decision) (hd : d.outcome = .approve) (t : Time) (c : CredentialRow)
      (hc : MintedAt G cfg parsed idem t c) :
      DecisionPath parsed idem (.ok d)
        [⟨.now, t⟩, ⟨.allocateIndex (t.addSeconds 604800), .ok (c.epoch, c.idx)⟩,
          ⟨.putCredential c, .ok ()⟩]
        (writeCredential c.jws)
  | reread (d : Decision) (hd : d.outcome = .approve) (t : Time) (c c' : CredentialRow)
      (hc : MintedAt G cfg parsed idem t c) (e : StoreError) :
      DecisionPath parsed idem (.ok d)
        [⟨.now, t⟩, ⟨.allocateIndex (t.addSeconds 604800), .ok (c.epoch, c.idx)⟩,
          ⟨.putCredential c, .error e⟩, ⟨.getByIdempotencyKey idem, .ok c'⟩]
        (writeCredential c'.jws)
  | lost (d : Decision) (hd : d.outcome = .approve) (t : Time) (c : CredentialRow)
      (hc : MintedAt G cfg parsed idem t c) (e e' : StoreError) :
      DecisionPath parsed idem (.ok d)
        [⟨.now, t⟩, ⟨.allocateIndex (t.addSeconds 604800), .ok (c.epoch, c.idx)⟩,
          ⟨.putCredential c, .error e⟩, ⟨.getByIdempotencyKey idem, .error e'⟩]
        (writeProblem 500 "parse_error" (bytes "store failed"))

/-- The ways through a POST. -/
inductive IssuePath (body : Option Bytes) : Calls IssueOp IssueAns → Response → Prop
  | unread (r : Response) (hr : r.status = 400) : IssuePath body [] r
  | unverified (t : Time) (r : Response) (hr : r.status = 400)
      (hv : ∀ parsed idem, ¬ Verified G V cfg body t parsed idem) :
      IssuePath body [⟨.now, t⟩] r
  | served (t : Time) (parsed : CsrPayload) (idem : Bytes)
      (hv : Verified G V cfg body t parsed idem) (c : CredentialRow) :
      IssuePath body [⟨.now, t⟩, ⟨.getByIdempotencyKey idem, .ok c⟩] (writeCredential c.jws)
  | unavailable (t : Time) (parsed : CsrPayload) (idem : Bytes)
      (hv : Verified G V cfg body t parsed idem) (e : StoreError) (he : e ≠ .notFound) :
      IssuePath body [⟨.now, t⟩, ⟨.getByIdempotencyKey idem, .error e⟩]
        (writeProblem 500 "parse_error" (bytes "store error"))
  | unauthorized (t : Time) (parsed : CsrPayload) (idem : Bytes)
      (hv : Verified G V cfg body t parsed idem) (e : Bytes) :
      IssuePath body
        [⟨.now, t⟩, ⟨.getByIdempotencyKey idem, .error .notFound⟩,
          ⟨.authorize cfg.issuerIdentifier parsed.req.org, .error e⟩]
        (writeProblem 403 "policy" e)
  | subjectless (t : Time) (parsed : CsrPayload) (idem : Bytes)
      (hv : Verified G V cfg body t parsed idem) (e : Bytes)
      (hs : subjectPubFromCSR G parsed = .error e) :
      IssuePath body
        [⟨.now, t⟩, ⟨.getByIdempotencyKey idem, .error .notFound⟩,
          ⟨.authorize cfg.issuerIdentifier parsed.req.org, .ok ()⟩]
        (writeProblem 400 "parse_error" e)
  | decided (t : Time) (parsed : CsrPayload) (idem : Bytes)
      (hv : Verified G V cfg body t parsed idem) (pub : Bytes)
      (hs : subjectPubFromCSR G parsed = .ok pub) (a : GoM Decision)
      (rest : Calls IssueOp IssueAns) (r : Response)
      (hd : DecisionPath G cfg parsed idem a rest r) :
      IssuePath body
        (⟨.now, t⟩ :: ⟨.getByIdempotencyKey idem, .error .notFound⟩ ::
          ⟨.authorize cfg.issuerIdentifier parsed.req.org, .ok ()⟩ ::
          ⟨.evaluate (csrView parsed) pub, a⟩ :: rest) r

end

variable {G : Runtime} {V : Verifier} {cfg : HandlerConfig} {body : Option Bytes}
  {parsed : CsrPayload} {idem : Bytes} {calls : Calls IssueOp IssueAns} {r : Response}

/-- An accepted CSR is for this issuer. -/
theorem parseAndVerifyCSR_aud {aud token : Bytes} {t : Time} {p : CsrPayload}
    (h : parseAndVerifyCSR G V aud t token = .ok p) : p.aud = aud := by
  simp only [parseAndVerifyCSR, csrVerify, csrClaims, csrCheckClaims, bind_eq_ok, mapError_eq_ok,
    guard_eq_ok, pure_eq_ok] at h
  obtain ⟨_, -, _, ⟨_, -, -, -, p, -, _, ⟨-, haud, -⟩, rfl⟩, _, -, -, -, rfl⟩ := h
  exact not_not.mp haud

/-- A body that is a token without blanks around it. -/
theorem Verified.of_token {token : Bytes} {t : Time}
    (htoken : requestToken cfg token = token ∧ token ≠ [])
    (hp : parseAndVerifyCSR G V cfg.issuerIdentifier t token = .ok parsed)
    (hi : idempotencyKey G parsed.iss parsed.aud parsed.req = .ok idem) :
    Verified G V cfg (some token) t parsed idem := by
  refine ⟨token, rfl, ?_, ?_, hi⟩
  · rw [htoken.1]
    exact htoken.2
  · rw [htoken.1]
    exact hp

/-- The same CSR is accepted at most once in its own right: the key is a function of it. -/
theorem Verified.unique {t : Time} {parsed' : CsrPayload} {idem' : Bytes}
    (h : Verified G V cfg body t parsed idem) (h' : Verified G V cfg body t parsed' idem') :
    parsed = parsed' ∧ idem = idem' := by
  obtain ⟨data, hb, -, hp, hi⟩ := h
  obtain ⟨data', hb', -, hp', hi'⟩ := h'
  obtain rfl : data = data' := Option.some.inj (hb.symm.trans hb')
  obtain rfl : parsed = parsed' := Except.ok.inj (hp.symm.trans hp')
  exact ⟨rfl, Except.ok.inj (hi.symm.trans hi')⟩

theorem path_mintAndStore_ways {d : Decision} {t : Time} {a : Except StoreError (Nat × Nat)}
    (hd : d.outcome = .approve)
    (h : Prog.Path (mintAndStore G cfg parsed idem t a) calls r) :
    DecisionPath G cfg parsed idem (.ok d)
      (⟨.now, t⟩ :: ⟨.allocateIndex (t.addSeconds 604800), a⟩ :: calls) r := by
  unfold mintAndStore at h
  split at h
  · obtain ⟨rfl, rfl⟩ := Prog.path_ret.mp h
    exact .unallocated d hd t _
  · rename_i epoch idx
    split at h
    · obtain ⟨rfl, rfl⟩ := Prog.path_ret.mp h
      exact .unminted d hd t _
    · rename_i jws hm
      have hc : MintedAt G cfg parsed idem t (approvedRow cfg parsed idem jws t epoch idx) :=
        ⟨hm, rfl⟩
      obtain ⟨stored, rest, rfl, hput⟩ := Prog.path_call.mp h
      cases stored with
      | ok u =>
        obtain ⟨rfl, rfl⟩ := Prog.path_ret.mp hput
        exact .stored d hd t _ hc
      | error e =>
        obtain ⟨found, rest, rfl, hget⟩ := Prog.path_call.mp hput
        cases found with
        | ok c' =>
          obtain ⟨rfl, rfl⟩ := Prog.path_ret.mp hget
          exact .reread d hd t _ c' hc e
        | error e' =>
          obtain ⟨rfl, rfl⟩ := Prog.path_ret.mp hget
          exact .lost d hd t _ hc e e'

theorem path_actOnDecision_ways {a : GoM Decision}
    (h : Prog.Path (actOnDecision G cfg parsed idem a) calls r) :
    DecisionPath G cfg parsed idem a calls r := by
  unfold actOnDecision at h
  split at h
  · obtain ⟨rfl, rfl⟩ := Prog.path_ret.mp h
    exact .failed _
  · rename_i d
    split at h
    · rename_i hd
      obtain ⟨t, rest, rfl, hnow⟩ := Prog.path_call.mp h
      obtain ⟨a, rest, rfl, halloc⟩ := Prog.path_call.mp hnow
      exact path_mintAndStore_ways hd halloc
    · obtain ⟨rfl, rfl⟩ := Prog.path_ret.mp h
      exact .pending d ‹_›
    · obtain ⟨rfl, rfl⟩ := Prog.path_ret.mp h
      exact .rejected d ‹_›
    · obtain ⟨rfl, rfl⟩ := Prog.path_ret.mp h
      exact .unknown d _ ‹_›

theorem path_afterLookup_ways {t : Time} {a : Except StoreError CredentialRow}
    (hv : Verified G V cfg body t parsed idem)
    (h : Prog.Path (afterLookup G cfg parsed idem a) calls r) :
    IssuePath G V cfg body (⟨.now, t⟩ :: ⟨.getByIdempotencyKey idem, a⟩ :: calls) r := by
  have haud : parsed.aud = cfg.issuerIdentifier := by
    obtain ⟨data, -, -, hp, -⟩ := hv
    exact parseAndVerifyCSR_aud hp
  unfold afterLookup at h
  split at h
  · obtain ⟨rfl, rfl⟩ := Prog.path_ret.mp h
    exact .served t parsed idem hv _
  · rw [authorizeAndDecide, if_neg (not_not.mpr haud)] at h
    obtain ⟨b, rest, rfl, hauth⟩ := Prog.path_call.mp h
    change Prog.Path (afterAuthorize G cfg parsed idem b) rest r at hauth
    unfold afterAuthorize at hauth
    split at hauth
    · obtain ⟨rfl, rfl⟩ := Prog.path_ret.mp hauth
      exact .unauthorized t parsed idem hv _
    · split at hauth
      · obtain ⟨rfl, rfl⟩ := Prog.path_ret.mp hauth
        exact .subjectless t parsed idem hv _ ‹_›
      · obtain ⟨d, rest, rfl, hact⟩ := Prog.path_call.mp hauth
        exact .decided t parsed idem hv _ ‹_› d rest r (path_actOnDecision_ways hact)
  · rename_i e he
    obtain ⟨rfl, rfl⟩ := Prog.path_ret.mp h
    exact .unavailable t parsed idem hv e fun hnf => he (hnf ▸ rfl)

/-- A POST takes one of the ways. -/
theorem path_serveIssue_ways (h : Prog.Path (serveIssue G V cfg body) calls r) :
    IssuePath G V cfg body calls r := by
  unfold serveIssue at h
  split at h
  · obtain ⟨rfl, rfl⟩ := Prog.path_ret.mp h
    exact .unread _ rfl
  · rename_i data
    split at h
    · obtain ⟨rfl, rfl⟩ := Prog.path_ret.mp h
      exact .unread _ rfl
    · rename_i htok
      obtain ⟨t, rest, rfl, hnow⟩ := Prog.path_call.mp h
      change Prog.Path (issueToken G V cfg (requestToken cfg data) t) rest r at hnow
      unfold issueToken at hnow
      split at hnow
      · rename_i e hp
        obtain ⟨rfl, rfl⟩ := Prog.path_ret.mp hnow
        refine .unverified t _ rfl ?_
        rintro parsed idem ⟨data', hb, -, hp', -⟩
        cases hb
        rw [hp] at hp'
        cases hp'
      · rename_i parsed hp
        split at hnow
        · rename_i e hi
          obtain ⟨rfl, rfl⟩ := Prog.path_ret.mp hnow
          refine .unverified t _ rfl ?_
          rintro parsed' idem ⟨data', hb, -, hp', hi'⟩
          cases hb
          rw [hp] at hp'
          cases hp'
          rw [hi] at hi'
          cases hi'
        · rename_i idem hi
          obtain ⟨a, rest, rfl, hget⟩ := Prog.path_call.mp hnow
          exact path_afterLookup_ways ⟨data, rfl, htok, hp, hi⟩ hget

theorem issueAns_nonempty (o : IssueOp) : Nonempty (IssueAns o) := by
  cases o with
  | now => exact ⟨Time.zero⟩
  | authorize iss org => exact ⟨.error []⟩
  | evaluate view pub => exact ⟨.error []⟩
  | getByIdempotencyKey key => exact ⟨.error .notFound⟩
  | allocateIndex exp => exact ⟨.error .notFound⟩
  | putCredential c => exact ⟨.ok ()⟩

/-! The ways a fresh request and a repeated one go through. -/

/-- A verified request looks its key up. -/
theorem path_of_lookup {t : Time} {a : Except StoreError CredentialRow}
    (hv : Verified G V cfg body t parsed idem)
    (h : Prog.Path (afterLookup G cfg parsed idem a) calls r) :
    Prog.Path (serveIssue G V cfg body) (⟨.now, t⟩ :: ⟨.getByIdempotencyKey idem, a⟩ :: calls)
      r := by
  obtain ⟨data, rfl, htok, hp, hi⟩ := hv
  have hstart : serveIssue G V cfg (some data) =
      .call .now (issueToken G V cfg (requestToken cfg data)) := by
    simp only [serveIssue, if_neg htok]
    rfl
  have htoken : issueToken G V cfg (requestToken cfg data) t =
      .call (.getByIdempotencyKey idem) (afterLookup G cfg parsed idem) := by
    simp only [issueToken, hp, hi]
    rfl
  rw [hstart]
  refine .call _ _ _ _ _ ?_
  rw [htoken]
  exact .call _ _ _ _ _ h

/-- A verified and authorized request whose key is new reaches the hook. -/
theorem path_of_decision {t : Time} {pub : Bytes} {a : GoM Decision}
    (hv : Verified G V cfg body t parsed idem) (hs : subjectPubFromCSR G parsed = .ok pub)
    (h : Prog.Path (actOnDecision G cfg parsed idem a) calls r) :
    Prog.Path (serveIssue G V cfg body)
      (⟨.now, t⟩ :: ⟨.getByIdempotencyKey idem, .error .notFound⟩ ::
        ⟨.authorize cfg.issuerIdentifier parsed.req.org, .ok ()⟩ ::
        ⟨.evaluate (csrView parsed) pub, a⟩ :: calls) r := by
  have haud : parsed.aud = cfg.issuerIdentifier := by
    obtain ⟨data, -, -, hp, -⟩ := hv
    exact parseAndVerifyCSR_aud hp
  have hlookup : afterLookup G cfg parsed idem (.error .notFound) =
      .call (.authorize cfg.issuerIdentifier parsed.req.org)
        (afterAuthorize G cfg parsed idem) := by
    simp only [afterLookup, authorizeAndDecide, if_neg (not_not.mpr haud)]
    rfl
  have hauth : afterAuthorize G cfg parsed idem (.ok ()) =
      .call (.evaluate (csrView parsed) pub) (actOnDecision G cfg parsed idem) := by
    simp only [afterAuthorize, hs]
    rfl
  refine path_of_lookup hv ?_
  rw [hlookup]
  refine .call _ _ _ _ _ ?_
  rw [hauth]
  exact .call _ _ _ _ _ h

/-- An approved request stores its credential. -/
theorem path_of_approval {t : Time} {c : CredentialRow} (hc : MintedAt G cfg parsed idem t c)
    {d : Decision} (hd : d.outcome = .approve) :
    Prog.Path (actOnDecision G cfg parsed idem (.ok d))
      [⟨.now, t⟩, ⟨.allocateIndex (t.addSeconds 604800), .ok (c.epoch, c.idx)⟩,
        ⟨.putCredential c, .ok ()⟩] (writeCredential c.jws) := by
  have hact : actOnDecision G cfg parsed idem (.ok d) = handleApprove G cfg parsed idem := by
    simp only [actOnDecision, hd]
  have hstore : mintAndStore G cfg parsed idem t (.ok (c.epoch, c.idx)) =
      .call (.putCredential c) (afterPut idem c) := by
    simp only [mintAndStore, hc.mint]
    rw [← hc.row]
    rfl
  rw [hact]
  refine .call _ _ _ _ _ (.call _ _ _ _ _ ?_)
  change Prog.Path (mintAndStore G cfg parsed idem t (.ok (c.epoch, c.idx))) _ _
  rw [hstore]
  exact .call _ _ _ _ _ (.ret _)

end Shadownet.Issuer
