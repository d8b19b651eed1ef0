import Mathlib.Algebra.BigOperators.Fin
import Mathlib.Algebra.Order.BigOperators.Group.Finset
import Mathlib.Data.Fintype.BigOperators
import Shadownet.X402.Ledger

/-!
# The budget under concurrency

Requests that run at the same time, one call at a time, over one budget store. `reserve` checks
the recorded spend only, and `record` comes after the facilitator has answered, so what other
settlements of the identity have in flight is not counted. The cap holds in the runs where each
successful `reserve` leaves room for what is in flight (`Room`).
-/

namespace Shadownet.X402

open Foundation Python

variable {ι : Type} [DecidableEq ι] [Fintype ι] {G : Runtime} {tick : ℚ → ℚ → Prop}

/-- The operator, between the calls. -/
def operator (s s' : Stores) : Prop :=
  ∃ identityKey, s' = s.revoke identityKey ∨ s' = s.restore identityKey

/-- What a request that has ended settled for an identity. -/
def settledBy (sub : Text) (q : Request) : Prog Op Ans (Py PaywallResult) → Int
  | .ret (.ok (.settled identity _)) =>
    if identity.sub = sub then q.paywall.settings.priceMicro else 0
  | _ => 0

/-- What a call recorded for an identity. -/
def recordedIn (sub : Text) (c : (o : Op) × Ans o) : Int :=
  match c.1 with
  | .record key amount => if key = sub then amount else 0
  | _ => 0

/-- What a request holds for an identity after these calls: it reserved, and the facilitator
has not refused yet. -/
def held (sub : Text) (calls : Calls Op Ans) : Int :=
  match calls.reverse with
  | ⟨.reserve key amount, .ok ()⟩ :: _ => if key = sub then max 0 amount else 0
  | ⟨.settle _ _, .ok outcome⟩ :: ⟨.reserve key amount, .ok ()⟩ :: _ =>
    if outcome.success ∧ key = sub then max 0 amount else 0
  | _ => 0

/-- What is recorded for an identity in a trace. -/
def recorded (sub : Text) (tr : List (Event ι Op Ans)) : Int :=
  (tr.map fun e => recordedIn sub ⟨e.op, e.ans⟩).sum

/-- What all requests hold for an identity. -/
def inFlight (sub : Text) (tr : List (Event ι Op Ans)) : Int :=
  ∑ j, held sub (callsOf j tr)

/-- When the event is a successful `reserve`, the amount fits on top of what is recorded and
what is in flight. -/
def Room (cap : Int) (tr : List (Event ι Op Ans)) (e : Event ι Op Ans) : Prop :=
  ∀ key amount, (⟨e.op, e.ans⟩ : (o : Op) × Ans o) = ⟨.reserve key amount, .ok ()⟩ →
    recorded key tr + inFlight key tr + amount ≤ cap

/-! ## One call -/

theorem held_nonneg (sub : Text) (calls : Calls Op Ans) : 0 ≤ held sub calls := by
  unfold held
  split
  · split_ifs
    · exact le_max_left _ _
    · exact le_refl _
  · split_ifs
    · exact le_max_left _ _
    · exact le_refl _
  · exact le_refl _

/-- What a call does to what its request holds. -/
theorem held_concat (sub : Text) (calls : Calls Op Ans) (c : (o : Op) × Ans o) :
    held sub (calls ++ [c]) ≤ held sub calls ∨
      ∃ amount, c = ⟨.reserve sub amount, .ok ()⟩ ∧ held sub (calls ++ [c]) = max 0 amount := by
  have hpos := held_nonneg sub calls
  unfold held
  rw [List.reverse_append, List.reverse_singleton, List.singleton_append]
  split
  · next key amount rest heq =>
    obtain ⟨rfl, rfl⟩ := List.cons.inj heq
    split_ifs with hkey
    · subst hkey
      exact .inr ⟨amount, rfl, rfl⟩
    · exact .inl hpos
  · next x req outcome key amount rest heq =>
    obtain ⟨rfl, hrest⟩ := List.cons.inj heq
    rw [hrest]
    left
    by_cases hkey : key = sub
    · simp only [hkey, and_true, if_true]
      split_ifs
      · exact le_refl _
      · exact le_max_left _ _
    · simp [hkey]
  · exact .inl hpos

omit [DecidableEq ι] in
/-- A sum over all requests where one of them changed. -/
theorem sum_change {f g : ι → Int} {i : ι} (h : ∀ j, j ≠ i → g j = f j) :
    ∑ j, g j = ∑ j, f j + (g i - f i) := by
  have hsub : ∑ j, (g j - f j) = g i - f i := by
    refine Fintype.sum_eq_single i fun j hj => ?_
    rw [h j hj, sub_self]
  rw [Finset.sum_sub_distrib] at hsub
  omega

omit [Fintype ι] in
theorem callsOf_concat_self (tr : List (Event ι Op Ans)) (e : Event ι Op Ans) :
    callsOf e.thread (tr ++ [e]) = callsOf e.thread tr ++ [⟨e.op, e.ans⟩] := by
  rw [callsOf_append]
  simp [callsOf]

omit [Fintype ι] in
theorem callsOf_concat_of_ne {j : ι} (tr : List (Event ι Op Ans)) {e : Event ι Op Ans}
    (hj : j ≠ e.thread) : callsOf j (tr ++ [e]) = callsOf j tr := by
  rw [callsOf_append]
  simp [callsOf, Ne.symm hj]

theorem inFlight_concat (sub : Text) (tr : List (Event ι Op Ans)) (e : Event ι Op Ans) :
    inFlight sub (tr ++ [e]) = inFlight sub tr +
      (held sub (callsOf e.thread tr ++ [⟨e.op, e.ans⟩]) - held sub (callsOf e.thread tr)) := by
  have hother : ∀ j, j ≠ e.thread →
      held sub (callsOf j (tr ++ [e])) = held sub (callsOf j tr) := by
    intro j hj
    rw [callsOf_concat_of_ne tr hj]
  rw [inFlight, sum_change hother, callsOf_concat_self]
  rfl

omit [DecidableEq ι] [Fintype ι] in
theorem recorded_concat (sub : Text) (tr : List (Event ι Op Ans)) (e : Event ι Op Ans) :
    recorded sub (tr ++ [e]) = recorded sub tr + recordedIn sub ⟨e.op, e.ans⟩ := by
  simp [recorded]

/-! ## One request -/

theorem split_at_last {α : Type} {l₁ l₂ init : List α} {x y : α}
    (h : l₁ ++ x :: l₂ = init ++ [y]) (hx : x ∉ init) : l₂ = [] ∧ l₁ = init ∧ x = y := by
  rcases List.eq_nil_or_concat l₂ with rfl | ⟨l, z, rfl⟩
  · obtain ⟨rfl, hxy⟩ := List.append_inj' h rfl
    exact ⟨rfl, rfl, (List.cons.inj hxy).1⟩
  · rw [List.concat_eq_append, ← List.cons_append, ← List.append_assoc] at h
    obtain ⟨rfl, -⟩ := List.append_inj' h rfl
    exact absurd (by simp) hx

/-- A request that records has reserved the amount and has an answer of the facilitator, and
ends with the settlement. -/
structure Records (q : Request) (key : Text) (amount : Int) (before : Calls Op Ans)
    (r : Py PaywallResult) : Prop where
  holds : ∀ sub, held sub before = if key = sub then max 0 amount else 0
  none : ∀ sub, ∀ c ∈ before, recordedIn sub c = 0
  settled : ∃ identity outcome, r = .ok (.settled identity outcome) ∧ identity.sub = key
  price : amount = q.paywall.settings.priceMicro

theorem recordedIn_quiet {sub : Text} {c : (o : Op) × Ans o} (h : c.1.Quiet) :
    recordedIn sub c = 0 := by
  obtain ⟨o, a⟩ := c
  cases o <;> first | exact h.elim | rfl

theorem ProcessWay.records {q : Request} {c₁ c₂ : Calls Op Ans} {key : Text} {amount : Int}
    {a : Unit} {r : Py PaywallResult}
    (h : ProcessWay G q (c₁ ++ ⟨.record key amount, a⟩ :: c₂) r) :
    c₂ = [] ∧ Records q key amount c₁ r := by
  generalize hcalls : c₁ ++ ⟨.record key amount, a⟩ :: c₂ = calls at h
  have hmem : ⟨.record key amount, a⟩ ∈ calls := by simp [← hcalls]
  have hquiet : ∀ {pre : Calls Op Ans}, (∀ c ∈ pre, c.1.Quiet) → ⟨.record key amount, a⟩ ∉ pre :=
    fun hpre hin => hpre _ hin
  cases h with
  | declined hc hr =>
    rcases hc _ hmem with hq | ⟨key', heq⟩
    · exact hq.elim
    · cases heq
  | issued hpre hcred hsub => exact absurd hmem (by simp [hquiet hpre])
  | unconsumed hg hr => exact absurd hmem (by simp [hquiet hg.quiet])
  | @consumed pre rest nonce xPayment identity r hg hc =>
    cases hc with
    | unpaid hr => exact absurd hmem (by simp [hquiet hg.quiet])
    | overspent hr => exact absurd hmem (by simp [hquiet hg.quiet])
    | unsettled hr => exact absurd hmem (by simp [hquiet hg.quiet])
    | @settled req outcome hs _ =>
      let init := pre ++ [⟨.consume nonce (some identity.sub), .ok ()⟩,
        ⟨.reserve identity.sub q.paywall.settings.priceMicro, .ok ()⟩,
        ⟨.settle xPayment req, .ok outcome⟩]
      obtain ⟨rfl, rfl, heq⟩ := @split_at_last _ c₁ c₂ init _
        ⟨.record identity.sub q.paywall.settings.priceMicro, ()⟩
        (hcalls.trans (by simp [init])) (by simp [init, hquiet hg.quiet])
      cases heq
      refine ⟨rfl, fun sub => ?_, fun sub c hc => ?_, ⟨identity, outcome, rfl, rfl⟩, rfl⟩
      · simp [held, init, hs]
      · simp only [init, List.mem_append, List.mem_cons, List.not_mem_nil, or_false] at hc
        rcases hc with hc | rfl | rfl | rfl
        · exact recordedIn_quiet (hg.quiet c hc)
        · rfl
        · rfl
        · rfl

theorem ProcessWay.of_settled {q : Request} {calls : Calls Op Ans} {identity : ShadowIdentity}
    {outcome : SettleOutcome} (h : ProcessWay G q calls (.ok (.settled identity outcome))) :
    ∃ c₁ amount, calls = c₁ ++ [⟨.record identity.sub amount, ()⟩] := by
  generalize hr' : (Except.ok (.settled identity outcome) : Py PaywallResult) = r at h
  cases h with
  | declined hc hr => cases hr <;> cases hr'
  | issued hpre hcred hsub =>
    generalize buildPaymentRequirements q.paywall.settings q.resourceUrl = req at hr'
    cases req <;> cases hr'
  | unconsumed hg hr => cases hr <;> cases hr'
  | @consumed pre rest nonce xPayment identity r hg hc =>
    cases hc with
    | unpaid hr => cases hr <;> cases hr'
    | overspent hr => cases hr <;> cases hr'
    | unsettled hr => cases hr <;> cases hr'
    | @settled req outcome hs _ =>
      cases hr'
      exact ⟨pre ++ [⟨.consume nonce (some identity.sub), .ok ()⟩,
        ⟨.reserve identity.sub q.paywall.settings.priceMicro, .ok ()⟩,
        ⟨.settle xPayment req, .ok outcome⟩], q.paywall.settings.priceMicro, by simp⟩

theorem exists_answer (o : Op) : Nonempty (Ans o) := by
  cases o
  case now => exact ⟨(0 : Int)⟩
  case timestamp => exact ⟨(0 : ℚ)⟩
  case issue => exact ⟨([] : Text)⟩
  case allowed => exact ⟨false⟩
  case record => exact ⟨()⟩
  all_goals exact ⟨.error ⟨.other, []⟩⟩

theorem recordedIn_eq_zero {sub : Text} {c : (o : Op) × Ans o}
    (h : ∀ key amount a, c ≠ ⟨.record key amount, a⟩) : recordedIn sub c = 0 := by
  obtain ⟨o, a⟩ := c
  cases o <;> first | exact absurd rfl (h _ _ _) | rfl

/-- What a request has settled is what it has recorded, at any point of it. -/
theorem settledBy_eq {q : Request} {p : Prog Op Ans (Py PaywallResult)} {calls : Calls Op Ans}
    (h : ∀ rest r, Prog.Path p rest r → Fallible.Path (process G q) (calls ++ rest) r)
    (sub : Text) : settledBy sub q p = (calls.map (recordedIn sub)).sum := by
  by_cases hrec : ∃ key amount a, (⟨.record key amount, a⟩ : (o : Op) × Ans o) ∈ calls
  · obtain ⟨key, amount, a, hmem⟩ := hrec
    obtain ⟨c₁, c₂, rfl⟩ := List.append_of_mem hmem
    obtain ⟨rest, r, hp⟩ := Prog.exists_path exists_answer p
    have hway := process_ways (h rest r hp)
    rw [List.append_assoc, List.cons_append] at hway
    obtain ⟨hnil, hR⟩ := hway.records
    obtain ⟨rfl, rfl⟩ := List.append_eq_nil_iff.mp hnil
    cases hp with
    | ret r =>
      obtain ⟨identity, outcome, rfl, rfl⟩ := hR.settled
      have hzero : (c₁.map (recordedIn sub)).sum = 0 := by
        refine List.sum_eq_zero fun x hx => ?_
        obtain ⟨c, hc, rfl⟩ := List.mem_map.mp hx
        exact hR.none sub c hc
      rw [List.map_append, List.sum_append, hzero, zero_add, List.map_singleton,
        List.sum_singleton, settledBy, recordedIn, hR.price]
  · have hzero : (calls.map (recordedIn sub)).sum = 0 := by
      refine List.sum_eq_zero fun x hx => ?_
      obtain ⟨c, hc, rfl⟩ := List.mem_map.mp hx
      exact recordedIn_eq_zero fun key amount a heq => hrec ⟨key, amount, a, heq ▸ hc⟩
    rw [hzero]
    unfold settledBy
    split
    next identity outcome =>
      obtain ⟨c₁, amount, hcalls⟩ := (process_ways (h [] _ (.ret _))).of_settled
      rw [List.append_nil] at hcalls
      exact absurd ⟨identity.sub, amount, (), by simp [hcalls]⟩ hrec
    · rfl

/-! ## Runs -/

/-- The requests of a run, all to start with. -/
def serving (G : Runtime) (req : ι → Request) (i : ι) : Prog Op Ans (Py PaywallResult) :=
  (process G (req i)).run

theorem recorded_eq_sum (sub : Text) (tr : List (Event ι Op Ans)) :
    recorded sub tr = ∑ i, ((callsOf i tr).map (recordedIn sub)).sum := by
  induction tr using List.reverseRecOn with
  | nil => simp [recorded, callsOf]
  | append_singleton tr e ih =>
    have hother : ∀ j, j ≠ e.thread → ((callsOf j (tr ++ [e])).map (recordedIn sub)).sum =
        ((callsOf j tr).map (recordedIn sub)).sum := by
      intro j hj
      rw [callsOf_concat_of_ne tr hj]
    rw [recorded_concat, ih, sum_change hother, callsOf_concat_self]
    simp

/-- What is recorded and what is in flight fit into the cap together. -/
theorem within_cap {req : ι → Request} {t : ℚ} {cap : Int} (hcap : 0 ≤ cap)
    {tr : List (Event ι Op Ans)} {s : Stores} {pool : ι → Prog Op Ans (Py PaywallResult)}
    (hr : Run (handle G tick) operator (.fresh t cap) (serving G req) tr s pool)
    (hroom : Admits (Room cap) tr) (sub : Text) : recorded sub tr + inFlight sub tr ≤ cap := by
  induction hr with
  | start => simpa [recorded, inFlight, callsOf, held] using hcap
  | env hr he ih => exact ih hroom
  | @step tr s s' pool i o k a hr hc hs ih =>
    have hle := ih hroom.prefix
    rw [recorded_concat, inFlight_concat]
    by_cases hrec : ∃ key amount a', (⟨o, a⟩ : (o : Op) × Ans o) = ⟨.record key amount, a'⟩
    · -- The amount moves from what is in flight to what is recorded.
      obtain ⟨key, amount, a', heq⟩ := hrec
      cases heq
      obtain ⟨rest, r, hp⟩ := Prog.exists_path exists_answer (k a')
      obtain ⟨-, hR⟩ := (process_ways (hr.path_call hc hp)).records
      have hbefore := hR.holds sub
      have hafter : held sub (callsOf i tr ++ [⟨.record key amount, a'⟩]) = 0 := by simp [held]
      have hin : recordedIn sub ⟨.record key amount, a'⟩ = if key = sub then amount else 0 := rfl
      rw [hafter, hbefore, hin]
      split_ifs
      · have := le_max_right 0 amount
        omega
      · omega
    · have hin : recordedIn sub ⟨o, a⟩ = 0 :=
        recordedIn_eq_zero fun key amount a' heq => hrec ⟨key, amount, a', heq⟩
      have hpos := held_nonneg sub (callsOf i tr)
      rw [hin]
      rcases held_concat sub (callsOf i tr) ⟨o, a⟩ with hheld | ⟨amount, heq, hheld⟩
      · dsimp only
        omega
      · have hfits := hroom.last sub amount heq
        dsimp only
        rw [hheld]
        rcases max_cases 0 amount with ⟨hmax, -⟩ | ⟨hmax, -⟩ <;> omega

/-- In every interleaving whose successful reservations leave room for what is in flight, no
identity's settlements exceed the cap. -/
theorem settled_within_cap {req : ι → Request} {t : ℚ} {cap : Int} (hcap : 0 ≤ cap)
    {tr : List (Event ι Op Ans)} {s : Stores} {pool : ι → Prog Op Ans (Py PaywallResult)}
    (hr : Run (handle G tick) operator (.fresh t cap) (serving G req) tr s pool)
    (hroom : Admits (Room cap) tr) (sub : Text) : ∑ i, settledBy sub (req i) (pool i) ≤ cap := by
  have hsettled : ∀ i, settledBy sub (req i) (pool i) =
      ((callsOf i tr).map (recordedIn sub)).sum :=
    fun i => settledBy_eq (fun rest r hp => hr.path hp) sub
  have hflight : 0 ≤ inFlight sub tr := Finset.sum_nonneg fun j _ => held_nonneg sub _
  have hle := within_cap hcap hr hroom sub
  rw [Finset.sum_congr rfl fun i _ => hsettled i, ← recorded_eq_sum]
  omega

/-! ## Two settlements at once -/

/-- Two challenges and two payments of one buyer. -/
def raceRequests : Fin 4 → Request :=
  ![ticketRequest, ticketRequest, ticketPayRequest false, ticketPayRequest true]

/-- The stores once both nonces are issued, once the first is consumed, and once the second
payment is recorded. -/
def raceIssued (cap : Int) : Stores :=
  (ticketIssued cap).issue ticketRuntime 200 300 (some buyer) (ticketNonce true)

def raceReserved (cap : Int) : Stores := (raceIssued cap).pop 200 (ticketNonce false)

def raceRecorded (cap : Int) : Stores :=
  ((raceReserved cap).pop 200 (ticketNonce true)).record buyer 5000

/-- The first payment, up to the answer of the facilitator. -/
def raceHalf : Calls Op Ans :=
  ticketGateCalls ++ [⟨.consume (ticketNonce false) (some buyer), .ok ()⟩,
    ⟨.reserve buyer 5000, .ok ()⟩, ⟨.settle ticketPayment ticketRequirements, .ok ticketOutcome⟩]

/-- Consuming a nonce the buyer holds, in time. -/
theorem consume_ticket {s : Stores} {nonce : Text} (hs : s.entries nonce = some (some buyer, 500))
    (hclock : s.clock = 200) :
    handle ticketRuntime (· ≤ ·) s (.consume nonce (some buyer)) (.ok ()) (s.pop 200 nonce) := by
  simp only [handle, hs]
  refine ⟨200, hclock.le, ?_, rfl⟩
  rw [checkEntry, if_neg (by norm_num), if_neg (by simp)]
  rfl

theorem race_issued (cap : Int) : Evolves (handle ticketRuntime (· ≤ ·)) (ticketIssued cap)
    (ticketChallengeCalls true) (raceIssued cap) :=
  .cons rfl (.cons rfl (.cons rfl (.cons ⟨rfl, rfl⟩ (.cons rfl
    (.cons ⟨200, le_refl _, rfl⟩ (.nil _))))))

theorem nonces_ne : ticketNonce false ≠ ticketNonce true := by decide

theorem later_ticket : ticketRuntime.later 200 300 = 500 := by
  norm_num [ticketRuntime]

theorem raceIssued_first (cap : Int) :
    (raceIssued cap).entries (ticketNonce false) = some (some buyer, 500) := by
  rw [raceIssued, ticketIssued]
  simp [Stores.issue, Function.update_of_ne nonces_ne, later_ticket]

theorem raceReserved_second (cap : Int) :
    (raceReserved cap).entries (ticketNonce true) = some (some buyer, 500) := by
  rw [raceReserved, raceIssued, ticketIssued]
  simp [Stores.issue, Stores.pop, Function.update_of_ne nonces_ne.symm, later_ticket]

theorem race_reserved {cap : Int} (hcap : 5000 ≤ cap) :
    Evolves (handle ticketRuntime (· ≤ ·)) (raceIssued cap) raceHalf (raceReserved cap) := by
  refine .cons rfl (.cons rfl (.cons rfl (.cons rfl (.cons rfl (.cons
    (consume_ticket (raceIssued_first cap) rfl) (.cons ⟨?_, rfl⟩ (.cons rfl (.nil _))))))))
  exact (reserve_eq_ok.mpr ⟨by simp [raceIssued, ticketIssued, Stores.issue, Stores.pop,
    Stores.fresh], by simpa [raceIssued, ticketIssued, Stores.issue, Stores.pop,
    Stores.fresh] using hcap⟩).symm

theorem race_recorded {cap : Int} (hcap : 5000 ≤ cap) :
    Evolves (handle ticketRuntime (· ≤ ·)) (raceReserved cap) (ticketPayCalls true)
      (raceRecorded cap) := by
  refine .cons rfl (.cons rfl (.cons rfl (.cons rfl (.cons rfl (.cons
    (consume_ticket (raceReserved_second cap) rfl)
    (.cons ⟨?_, rfl⟩ (.cons rfl (.cons rfl (.nil _)))))))))
  exact (reserve_eq_ok.mpr ⟨by simp [raceReserved, raceIssued, ticketIssued, Stores.issue,
    Stores.pop, Stores.fresh], by simpa [raceReserved, raceIssued, ticketIssued, Stores.issue,
    Stores.pop, Stores.fresh] using hcap⟩).symm

/-- The two challenges; then the second payment from its first call to its last, while the first
one has the facilitator's answer and has not recorded. -/
def raceTrace : List (Event (Fin 4) Op Ans) :=
  (ticketChallengeCalls false).map (fun c => ⟨0, c.1, c.2⟩) ++
    (ticketChallengeCalls true).map (fun c => ⟨1, c.1, c.2⟩) ++
    raceHalf.map (fun c => ⟨2, c.1, c.2⟩) ++
    (ticketPayCalls true).map (fun c => ⟨3, c.1, c.2⟩) ++ [⟨2, .record buyer 5000, ()⟩]

theorem race_run {cap : Int} (hcap : 5000 ≤ cap) : ∃ s pool,
    Run (handle ticketRuntime (· ≤ ·)) operator (.fresh 200 cap)
      (serving ticketRuntime raceRequests) raceTrace s pool ∧
    ∑ i, settledBy buyer (raceRequests i) (pool i) = 10000 := by
  have hstart : Run (handle ticketRuntime (· ≤ ·)) operator (.fresh 200 cap)
      (serving ticketRuntime raceRequests) [] _ _ := .start
  have hpath : Prog.Path (serving ticketRuntime raceRequests 2)
      (raceHalf ++ [⟨.record buyer 5000, ()⟩]) (.ok (.settled buyerIdentity ticketOutcome)) :=
    ticket_pay_path false
  obtain ⟨p, hf, hp⟩ := (race_reserved hcap).follows hpath
  have hlast : Evolves (handle ticketRuntime (· ≤ ·)) (raceRecorded cap)
      [⟨.record buyer 5000, ()⟩] ((raceRecorded cap).record buyer 5000) := .cons rfl (.nil _)
  have hissued : Follows _ _ (serving ticketRuntime raceRequests 0) _ _ _ :=
    (ticket_issued cap).follows_all (ticket_challenge_path false)
  have hissued' : Follows _ _ (serving ticketRuntime raceRequests 1) _ _ _ :=
    (race_issued cap).follows_all (ticket_challenge_path true)
  have hrecorded : Follows _ _ (serving ticketRuntime raceRequests 3) _ _ _ :=
    (race_recorded hcap).follows_all (ticket_pay_path true)
  have h₀ := hstart.follow rfl hissued
  have h₁ := h₀.follow (i := 1) (by simp) hissued'
  have h₂ := h₁.follow (i := 2) (by simp) hf
  have h₃ := h₂.follow (i := 3) (by simp) hrecorded
  have h₄ := h₃.follow (i := 2) (by simp) (hlast.follows_all hp)
  refine ⟨_, _, h₄, ?_⟩
  rw [Fin.sum_univ_four]
  rfl

/-- Both payments reserve before either records, and the buyer spends twice the cap. -/
theorem settled_over_cap : ∃ tr s pool,
    Run (handle ticketRuntime (· ≤ ·)) operator (.fresh 200 5000)
      (serving ticketRuntime raceRequests) tr s pool ∧
    ∑ i, settledBy buyer (raceRequests i) (pool i) = 10000 :=
  ⟨raceTrace, race_run (le_refl 5000)⟩

theorem admits_stretch {cap : Int} {tr : List (Event ι Op Ans)} (h : Admits (Room cap) tr) (i : ι)
    {calls : Calls Op Ans}
    (hc : ∀ c ∈ calls, ∀ key amount, c ≠ ⟨.reserve key amount, .ok ()⟩) :
    Admits (Room cap) (tr ++ calls.map fun c => ⟨i, c.1, c.2⟩) := by
  induction calls using List.reverseRecOn with
  | nil => simpa using h
  | append_singleton calls c ih =>
    rw [List.map_append, ← List.append_assoc]
    refine (ih fun c' hc' => hc c' (by simp [hc'])).concat fun key amount heq => ?_
    exact absurd heq (hc c (by simp) key amount)

/-- The calls of a payment before and after it reserves. -/
def raceBefore (second : Bool) : Calls Op Ans :=
  ticketGateCalls ++ [⟨.consume (ticketNonce second) (some buyer), .ok ()⟩]

def raceSettling : Calls Op Ans :=
  [⟨.settle ticketPayment ticketRequirements, .ok ticketOutcome⟩]

def raceRecording : Calls Op Ans := [⟨.record buyer 5000, ()⟩]

/-- The trace up to the first `reserve`. -/
def raceOpening : List (Event (Fin 4) Op Ans) :=
  (ticketChallengeCalls false).map (fun c => ⟨0, c.1, c.2⟩) ++
    (ticketChallengeCalls true).map (fun c => ⟨1, c.1, c.2⟩) ++
    (raceBefore false).map fun c => ⟨2, c.1, c.2⟩

/-- The trace up to the second `reserve`. -/
def raceOverlap : List (Event (Fin 4) Op Ans) :=
  raceOpening ++ [⟨2, .reserve buyer 5000, .ok ()⟩] ++
    raceSettling.map (fun c => ⟨2, c.1, c.2⟩) ++ (raceBefore true).map fun c => ⟨3, c.1, c.2⟩

theorem room_of_spent {cap spent : Int} {tr : List (Event (Fin 4) Op Ans)} {i : Fin 4}
    (h : recorded buyer tr + inFlight buyer tr = spent) (hcap : spent + 5000 ≤ cap) :
    Room cap tr ⟨i, .reserve buyer 5000, .ok ()⟩ := by
  intro key amount heq
  cases heq
  omega

/-- A cap of two payments has room for the second while the first is in flight. -/
theorem race_room : Admits (Room 10000) raceTrace := by
  have hstart : Admits (Room 10000) ([] : List (Event (Fin 4) Op Ans)) := by
    intro pre e post h
    simp at h
  have hchallenge : ∀ second, ∀ c ∈ ticketChallengeCalls second, ∀ key amount,
      c ≠ ⟨.reserve key amount, .ok ()⟩ := by
    simp [ticketChallengeCalls, ticketVerifying]
  have hbefore : ∀ second, ∀ c ∈ raceBefore second, ∀ key amount,
      c ≠ ⟨.reserve key amount, .ok ()⟩ := by
    simp [raceBefore, ticketGateCalls, ticketVerifying]
  have hsettling : ∀ c ∈ raceSettling, ∀ key amount, c ≠ ⟨.reserve key amount, .ok ()⟩ := by
    simp [raceSettling]
  have hrecording : ∀ c ∈ raceRecording, ∀ key amount, c ≠ ⟨.reserve key amount, .ok ()⟩ := by
    simp [raceRecording]
  have hnone : recorded buyer raceOpening + inFlight buyer raceOpening = 0 := by
    rw [inFlight, Fin.sum_univ_four]
    rfl
  have hfirst : recorded buyer raceOverlap + inFlight buyer raceOverlap = 5000 := by
    rw [inFlight, Fin.sum_univ_four]
    rfl
  have hopening : Admits (Room 10000) raceOpening :=
    admits_stretch (admits_stretch (admits_stretch hstart 0 (hchallenge false)) 1
      (hchallenge true)) 2 (hbefore false)
  have hoverlap : Admits (Room 10000) raceOverlap :=
    admits_stretch (admits_stretch (hopening.concat (room_of_spent hnone (by decide))) 2 hsettling)
      3 (hbefore true)
  have hsecond := hoverlap.concat (e := ⟨3, .reserve buyer 5000, .ok ()⟩)
    (room_of_spent hfirst (by decide))
  exact admits_stretch (admits_stretch (admits_stretch hsecond 3 hsettling) 3 hrecording) 2
    hrecording

/-- The same run under a cap that holds both payments. -/
theorem settled_within_cap_race : Admits (Room 10000) raceTrace ∧ ∃ s pool,
    Run (handle ticketRuntime (· ≤ ·)) operator (.fresh 200 10000)
      (serving ticketRuntime raceRequests) raceTrace s pool ∧
    ∑ i, settledBy buyer (raceRequests i) (pool i) = 10000 ∧
    ∑ i, settledBy buyer (raceRequests i) (pool i) ≤ 10000 := by
  obtain ⟨s, pool, hr, hsum⟩ := @race_run 10000 (by norm_num)
  exact ⟨race_room, s, pool, hr, hsum, settled_within_cap (by norm_num) hr race_room buyer⟩

end Shadownet.X402
