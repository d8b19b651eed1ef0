import Shadownet.Foundation.Interference
import Shadownet.Webhook.Process

/-!
# What accounts see of each other

The rate limiters and the in-flight counts are kept by account. `idempotencyLru` is not: its keys
are event ids alone and its ten thousand places are shared.

* `isolation`: in runs in which no other handler has recorded the event id of an account's request,
  nor taken the place of one, the account's requests are answered and delivered as if the account
  were alone.
* `isolation_broken`: an event of one account suppresses an event of another.
-/

namespace Shadownet.Webhook

open Foundation JavaScript

/-! ## Admission and the state of one account -/

section
variable {ν : Type} (rt : Runtime ν)

/-- A request of one account leaves the limiters of the others. -/
theorem accept_rateLimiters_other {account : Account} {key : JsString}
    (h : account.accountId ≠ key) (m : ModuleState) (req : Request ν) :
    (accept rt account m req).1.rateLimiters key = m.rateLimiters key := by
  unfold accept
  cases checkRequest rt account req with
  | error ended => rfl
  | ok read =>
    obtain ⟨event, envelope⟩ := read
    dsimp only
    have hother : ∀ limiter, Function.update m.rateLimiters account.accountId limiter key =
        m.rateLimiters key := fun limiter => Function.update_of_ne (Ne.symm h) _ _
    split_ifs with hallowed
    · exact hother _
    · cases eventIdOf rt event envelope with
      | none => exact hother _
      | some eventId =>
        dsimp only
        split_ifs
        · exact hother _
        · exact hother _

/-- What an account is answered depends on its own limiter and on whether its event id is known. -/
theorem accept_congr {account : Account} {m m' : ModuleState} {req : Request ν}
    (hlimiter : m.rateLimiters account.accountId = m'.rateLimiters account.accountId)
    (hseen : ∀ eventId, requestId rt req = some eventId →
      (recordSeen m.idempotencyLru eventId req.recordedAt).2 =
        (recordSeen m'.idempotencyLru eventId req.recordedAt).2) :
    (accept rt account m req).2 = (accept rt account m' req).2 ∧
      (accept rt account m req).1.rateLimiters account.accountId =
        (accept rt account m' req).1.rateLimiters account.accountId := by
  have hcheck := yields_checkRequest rt account req
  unfold accept
  cases hread : checkRequest rt account req with
  | error ended => exact ⟨rfl, hlimiter⟩
  | ok read =>
    obtain ⟨event, envelope⟩ := read
    rw [hread] at hcheck
    obtain ⟨body, hbody, henv⟩ := hcheck
    have hget : getRateLimiter m account = getRateLimiter m' account := by
      rw [getRateLimiter, getRateLimiter, hlimiter]
    have hown : ∀ limiter, Function.update m.rateLimiters account.accountId limiter
        account.accountId = Function.update m'.rateLimiters account.accountId limiter
        account.accountId := by
      intro limiter
      rw [Function.update_self, Function.update_self]
    dsimp only
    rw [hget]
    split_ifs with hallowed
    · exact ⟨rfl, hown _⟩
    · cases hid : eventIdOf rt event envelope with
      | none => exact ⟨rfl, hown _⟩
      | some eventId =>
        have hverdict := hseen eventId (by
          rw [requestId, hbody]
          show bodyEventId rt body = some eventId
          rw [bodyEventId, henv]
          exact hid)
        dsimp only
        rw [hverdict]
        split_ifs
        · exact ⟨rfl, hown _⟩
        · exact ⟨rfl, hown _⟩

end

/-! ## One event of the process -/

section
variable {L : InFlightLimiter} {κ ν V : Type} {rt : Runtime ν}
  {accounts : κ → Account} {view : JsString → L.State → V} {b : κ} {P P' : Process L κ ν}

/-- Two processes that look the same to one account, the map of event ids aside. -/
structure SameFor (view : JsString → L.State → V) (accounts : κ → Account) (b : κ)
    (P P' : Process L κ ν) : Prop where
  phases : P.phases b = P'.phases b
  limiter : view (accounts b).accountId P.limiter = view (accounts b).accountId P'.limiter
  rates : P.modul.rateLimiters (accounts b).accountId =
    P'.modul.rateLimiters (accounts b).accountId

theorem SameFor.trans {P'' : Process L κ ν} (h : SameFor view accounts b P P')
    (h' : SameFor view accounts b P' P'') : SameFor view accounts b P P'' :=
  ⟨h.phases.trans h'.phases, h.limiter.trans h'.limiter, h.rates.trans h'.rates⟩

theorem SameFor.refl (P : Process L κ ν) : SameFor view accounts b P P := ⟨rfl, rfl, rfl⟩

variable [DecidableEq κ]

theorem SameFor.push (h : SameFor view accounts b P P') (phase : Phase ν) :
    SameFor view accounts b (P.push b phase) (P'.push b phase) where
  phases := by simp only [Process.push, Function.update_self, h.phases]
  limiter := h.limiter
  rates := h.rates

theorem SameFor.goto (h : SameFor view accounts b P P') (slot : Nat) (phase : Phase ν) :
    SameFor view accounts b (P.goto b slot phase) (P'.goto b slot phase) where
  phases := by simp only [Process.goto, Function.update_self, h.phases]
  limiter := h.limiter
  rates := h.rates

theorem SameFor.finish (hL : L.Keyed view) (h : SameFor view accounts b P P') (slot : Nat) :
    SameFor view accounts b (P.finish (accounts b).accountId b slot)
      (P'.finish (accounts b).accountId b slot) where
  phases := (h.goto slot .over).phases
  limiter := hL.release h.limiter
  rates := h.rates

theorem sameFor_push_other {k : κ} (hk : k ≠ b) (phase : Phase ν) :
    SameFor view accounts b (P.push k phase) P :=
  ⟨Function.update_of_ne (Ne.symm hk) _ _, rfl, rfl⟩

theorem sameFor_goto_other {k : κ} (hk : k ≠ b) (slot : Nat) (phase : Phase ν) :
    SameFor view accounts b (P.goto k slot phase) P :=
  ⟨Function.update_of_ne (Ne.symm hk) _ _, rfl, rfl⟩

theorem sameFor_finish_other (hL : L.Keyed view) {k : κ} (hk : k ≠ b)
    (hids : (accounts k).accountId ≠ (accounts b).accountId) (slot : Nat) :
    SameFor view accounts b (P.finish (accounts k).accountId k slot) P :=
  ⟨Function.update_of_ne (Ne.symm hk) _ _, hL.release_other hids _, rfl⟩

/-- An event of another handler leaves everything that the account sees. -/
theorem step_other (hL : L.Keyed view)
    (hids : ∀ k, k ≠ b → (accounts k).accountId ≠ (accounts b).accountId)
    {e : Event κ ν} (he : e.handler ≠ b) :
    SameFor view accounts b (step rt accounts P e).1 P := by
  cases e with
  | arrives k method =>
    have hk : k ≠ b := he
    dsimp only [step, arrive]
    have hlimiter : SameFor view accounts b
        { P with limiter := (L.tryAcquire (accounts k).accountId P.limiter).2 } P :=
      ⟨rfl, hL.acquire_other (hids k hk) _, rfl⟩
    split_ifs
    · exact sameFor_push_other hk _
    · exact (sameFor_push_other hk _).trans hlimiter
    · exact (sameFor_push_other hk _).trans hlimiter
  | bodyRead k slot req =>
    have hk : k ≠ b := he
    dsimp only [step]
    split
    · dsimp only [readsBody]
      have hmodul : SameFor view accounts b { P with modul := (accept rt (accounts k) P.modul
          { req with method := js "POST", pipelineOk := true }).1 } P :=
        ⟨rfl, rfl, accept_rateLimiters_other rt (hids k hk) _ _⟩
      split
      · split_ifs
        · exact (sameFor_goto_other hk _ _).trans hmodul
        · exact (sameFor_finish_other hL hk (hids k hk) _).trans hmodul
      · exact (sameFor_finish_other hL hk (hids k hk) _).trans hmodul
    · exact .refl _
  | inboxAnswered k slot answer now =>
    have hk : k ≠ b := he
    dsimp only [step]
    split
    · dsimp only [getsInbox]
      split
      · exact sameFor_finish_other hL hk (hids k hk) _
      · exact sameFor_goto_other hk _ _
    · exact .refl _
  | deliverSettled k slot =>
    have hk : k ≠ b := he
    dsimp only [step]
    split
    · exact sameFor_finish_other hL hk (hids k hk) _
    · exact .refl _

/-- An event of the account itself is answered alike, if its event id is known alike. -/
theorem step_mine (hL : L.Keyed view) (h : SameFor view accounts b P P') {e : Event κ ν}
    (he : e.handler = b)
    (hseen : ∀ slot req eventId, e = .bodyRead b slot req → requestId rt req = some eventId →
      (recordSeen P.modul.idempotencyLru eventId req.recordedAt).2 =
        (recordSeen P'.modul.idempotencyLru eventId req.recordedAt).2) :
    (step rt accounts P e).2 = (step rt accounts P' e).2 ∧
      SameFor view accounts b (step rt accounts P e).1 (step rt accounts P' e).1 := by
  cases e with
  | arrives k method =>
    obtain rfl : k = b := he
    dsimp only [step, arrive]
    obtain ⟨hok, hview⟩ := hL.acquire h.limiter
    have hlimiter : SameFor view accounts k
        { P with limiter := (L.tryAcquire (accounts k).accountId P.limiter).2 }
        { P' with limiter := (L.tryAcquire (accounts k).accountId P'.limiter).2 } :=
      ⟨h.phases, hview, h.rates⟩
    rw [hok]
    split_ifs
    · exact ⟨rfl, h.push _⟩
    · exact ⟨rfl, hlimiter.push _⟩
    · exact ⟨rfl, hlimiter.push _⟩
  | bodyRead k slot req =>
    obtain rfl : k = b := he
    dsimp only [step]
    rw [← h.phases]
    split
    · dsimp only [readsBody]
      obtain ⟨hanswer, hrates⟩ := @accept_congr _ rt (accounts k) P.modul P'.modul
        { req with method := js "POST", pipelineOk := true } h.rates
        fun eventId => hseen slot req eventId rfl
      have hmodul : SameFor view accounts k
          { P with modul := (accept rt (accounts k) P.modul
            { req with method := js "POST", pipelineOk := true }).1 }
          { P' with modul := (accept rt (accounts k) P'.modul
            { req with method := js "POST", pipelineOk := true }).1 } :=
        ⟨h.phases, h.limiter, hrates⟩
      rw [hanswer]
      split
      · split_ifs
        · exact ⟨rfl, hmodul.goto _ _⟩
        · exact ⟨rfl, hmodul.finish hL _⟩
      · exact ⟨rfl, hmodul.finish hL _⟩
    · exact ⟨rfl, h⟩
  | inboxAnswered k slot answer now =>
    obtain rfl : k = b := he
    dsimp only [step]
    rw [← h.phases]
    split
    · dsimp only [getsInbox]
      split
      · exact ⟨rfl, h.finish hL _⟩
      · exact ⟨rfl, h.goto _ _⟩
    · exact ⟨rfl, h⟩
  | deliverSettled k slot =>
    obtain rfl : k = b := he
    dsimp only [step]
    rw [← h.phases]
    split
    · exact ⟨rfl, h.finish hL _⟩
    · exact ⟨rfl, h⟩

/-! ## Runs -/

/-- The recordings of one handler. -/
def ownOf (b : κ) (log : List (κ × JsString × Int)) : List (κ × JsString × Int) :=
  log.filter fun x => decide (x.1 = b)

/-- The map that the recordings of a log leave. -/
def lruOf (log : List (κ × JsString × Int)) : List (JsString × Int) :=
  recent idempotencyMaxEntries (log.map Prod.snd)

/-- The number of event ids in a log. -/
def idCount (log : List (κ × JsString × Int)) : Nat :=
  ((log.map Prod.snd).map Prod.fst).dedup.length

/-- The log leaves an event id to the account: no other handler has recorded it, and since the
account last did, the others have not filled the map. -/
def LeavesTo (b : κ) (log : List (κ × JsString × Int)) (eventId : JsString) : Prop :=
  (∀ x ∈ log, x.2.1 = eventId → x.1 = b) ∧
  ∀ older seen newer, log = older ++ (b, eventId, seen) :: newer →
    eventId ∉ (newer.map Prod.snd).map Prod.fst →
    idCount (ownOf b newer) < idempotencyMaxEntries → idCount newer < idempotencyMaxEntries

omit [DecidableEq κ] in
theorem recordSeen_snd_eq {lru lru' : List (JsString × Int)} {eventId : JsString}
    (h : lru.lookup eventId = lru'.lookup eventId) (now : Int) :
    (recordSeen lru eventId now).2 = (recordSeen lru' eventId now).2 := by
  unfold recordSeen
  rw [h]
  split_ifs <;> rfl

/-- An event id that the log leaves to the account is known from the whole log as it is from the
account's own recordings. -/
theorem lookup_own {b : κ} {log : List (κ × JsString × Int)} {eventId : JsString}
    (h : LeavesTo b log eventId) :
    (lruOf log).lookup eventId = (lruOf (ownOf b log)).lookup eventId := by
  obtain ⟨hothers, hroom⟩ := h
  by_cases hmem : eventId ∈ (log.map Prod.snd).map Prod.fst
  · obtain ⟨older, seen, newer, hlog, hnewer⟩ := mem_last_split hmem
    obtain ⟨older', rest, rfl, rfl, hrest⟩ := List.map_eq_append_iff.mp hlog
    obtain ⟨x, newer', rfl, hx, rfl⟩ := List.map_eq_cons_iff.mp hrest
    obtain ⟨k, entry⟩ := x
    obtain rfl : entry = (eventId, seen) := hx
    obtain rfl : k = b := hothers (k, eventId, seen) (by simp) rfl
    have hown : ownOf k (older' ++ (k, eventId, seen) :: newer') =
        ownOf k older' ++ (k, eventId, seen) :: ownOf k newer' := by
      rw [ownOf, List.filter_append, List.filter_cons_of_pos (by simp)]
      rfl
    have hsub : List.Sublist (((ownOf k newer').map Prod.snd).map Prod.fst)
        ((newer'.map Prod.snd).map Prod.fst) :=
      (List.filter_sublist.map _).map _
    have hcount : idCount (ownOf k newer') ≤ idCount newer' := by
      refine (List.Nodup.subperm (List.nodup_dedup _) fun id hid => ?_).length_le
      exact List.mem_dedup.mpr (hsub.subset (List.mem_dedup.mp hid))
    have hiff : idCount newer' < idempotencyMaxEntries ↔
        idCount (ownOf k newer') < idempotencyMaxEntries :=
      ⟨fun hlt => lt_of_le_of_lt hcount hlt, hroom older' seen newer' rfl hnewer⟩
    rw [hown, lruOf, lruOf, List.map_append, List.map_cons, List.map_append, List.map_cons,
      lookup_recent hnewer, lookup_recent fun hin => hnewer (hsub.subset hin)]
    exact if_congr hiff rfl rfl
  · have hown : eventId ∉ ((ownOf b log).map Prod.snd).map Prod.fst :=
      fun hin => hmem (((List.filter_sublist.map _).map _).subset hin)
    have hnone : ∀ l : List (κ × JsString × Int), eventId ∉ (l.map Prod.snd).map Prod.fst →
        (lruOf l).lookup eventId = none := by
      intro l hl
      rw [← Option.not_isSome_iff_eq_none, Json.lookup_isSome_iff]
      exact fun hin => hl (mem_keys_of_recent hin)
    rw [hnone log hmem, hnone _ hown]

omit [DecidableEq κ] in
/-- A recording makes one more entry of the log. -/
theorem lruOf_concat {log : List (κ × JsString × Int)} (hids : ∀ x ∈ log, x.2.1 ≠ []) {k : κ}
    {eventId : JsString} (hid : eventId ≠ []) {now : Int} {lru : List (JsString × Int)}
    (h : recordSeen (lruOf log) eventId now = (lru, true)) :
    lru = lruOf (log ++ [(k, eventId, now)]) := by
  have hentries : ∀ e ∈ log.map Prod.snd, e.1 ≠ [] := by
    intro e he
    obtain ⟨x, hx, rfl⟩ := List.mem_map.mp he
    exact hids x hx
  rw [lruOf, recordSeen_recent hentries hid] at h
  split_ifs at h
  · cases (Prod.mk.inj h).2
  · rw [lruOf, List.map_append]
    exact (Prod.mk.inj h).1.symm

variable (L rt accounts)

/-- The events of a run of the process, with their answers. -/
def trace (es : List (Event κ ν)) : List (Event κ ν × Answer ν) :=
  history (step rt accounts) (Process.initial : Process L κ ν) es

/-- The process after a run. -/
abbrev after (es : List (Event κ ν)) : Process L κ ν := final (step rt accounts) .initial es

def logOf (es : List (Event κ ν)) : List (κ × JsString × Int) := recorded (trace L rt accounts es)

theorem logOf_concat (es : List (Event κ ν)) (e : Event κ ν) :
    logOf L rt accounts (es ++ [e]) = logOf L rt accounts es ++
      recorded [(e, (step rt accounts (after L rt accounts es) e).2)] := by
  rw [logOf, trace, history_concat, recorded, List.filterMap_append]
  rfl

/-- The other handlers leave the event id of the account's next request to it. -/
def Undisturbed (b : κ) (pre : List (Event κ ν)) (e : Event κ ν) : Prop :=
  ∀ slot req eventId, e = .bodyRead b slot req → requestId rt req = some eventId →
    LeavesTo b (logOf L rt accounts pre) eventId

variable {L rt accounts}

/-- The process after a run and the process after the account's events of it. -/
structure Purged (view : JsString → L.State → V) (rt : Runtime ν) (accounts : κ → Account) (b : κ)
    (pre : List (Event κ ν)) (P P' : Process L κ ν) : Prop where
  same : SameFor view accounts b P P'
  lru : P.modul.idempotencyLru = lruOf (logOf L rt accounts pre)
  own : P'.modul.idempotencyLru = lruOf (ownOf b (logOf L rt accounts pre))
  ids : ∀ x ∈ logOf L rt accounts pre, x.2.1 ≠ []

theorem requestId_ne_nil {req : Request ν} {eventId : JsString}
    (h : requestId rt req = some eventId) : eventId ≠ [] := by
  obtain ⟨body, -, hid⟩ := Option.bind_eq_some_iff.mp h
  exact bodyEventId_ne_nil rt hid

/-- What an event adds to the log and the map. -/
theorem Purged.extend {pre : List (Event κ ν)} {P' : Process L κ ν}
    (h : Purged view rt accounts b pre (after L rt accounts pre) P')
    (e : Event κ ν) :
    (step rt accounts (after L rt accounts pre) e).1.modul.idempotencyLru =
      lruOf (logOf L rt accounts (pre ++ [e])) ∧
    ∀ x ∈ logOf L rt accounts (pre ++ [e]), x.2.1 ≠ [] := by
  rw [logOf_concat]
  rcases step_recorded (after L rt accounts pre) e with
    ⟨hlog, hlru⟩ | ⟨slot, req, eventId, -, hid, hlog, hseen⟩
  · rw [hlog, hlru, h.lru, List.append_nil]
    exact ⟨rfl, h.ids⟩
  · have hne := requestId_ne_nil hid
    rw [hlog]
    rw [h.lru] at hseen
    refine ⟨lruOf_concat h.ids hne hseen, ?_⟩
    intro x hx
    rcases List.mem_append.mp hx with hx | hx
    · exact h.ids x hx
    · rw [List.mem_singleton.mp hx]
      exact hne

/-- The events that the account sees. -/
def isOf (b : κ) (e : Event κ ν) : Bool := decide (e.handler = b)

/-- In a run that leaves the account's event ids alone, the account sees its own events only. -/
theorem trace_purge (hL : L.Keyed view)
    (hids : ∀ k, k ≠ b → (accounts k).accountId ≠ (accounts b).accountId)
    {es : List (Event κ ν)} (hes : Admits (Undisturbed L rt accounts b) es) :
    observed (isOf b) (trace L rt accounts es) = trace L rt accounts (es.filter (isOf b)) := by
  refine (@history_purge _ _ _ (step rt accounts) (isOf b) _ (Purged view rt accounts b) _
    ⟨.refl _, (recent_nil _).symm, (recent_nil _).symm,
      by simp [logOf, trace, history, recorded]⟩ ?_ ?_ es hes).1
  · intro pre e he _ h
    have hk : e.handler ≠ b := of_decide_eq_false he
    obtain ⟨hlru, hids'⟩ := h.extend e
    refine ⟨(step_other hL hids hk).trans h.same, hlru, ?_, hids'⟩
    have hnone : ownOf b (recorded [(e,
        (step rt accounts (after L rt accounts pre) e).2)]) = [] := by
      rcases step_recorded (after L rt accounts pre) e with
        ⟨hlog, -⟩ | ⟨slot, req, eventId, -, -, hlog, -⟩
      · rw [hlog]
        rfl
      · rw [hlog, ownOf, List.filter_cons_of_neg (by simp [hk]), List.filter_nil]
    rw [logOf_concat, ownOf, List.filter_append, ← ownOf, ← ownOf, hnone, List.append_nil]
    exact h.own
  · intro pre e he hG h
    have hk : e.handler = b := of_decide_eq_true he
    obtain ⟨hlru, hids'⟩ := h.extend e
    have hstep := step_mine hL h.same hk fun slot req eventId hreq hid => by
      rw [h.lru, h.own]
      exact recordSeen_snd_eq (lookup_own (hG slot req eventId hreq hid)) _
    refine ⟨hstep.1, hstep.2, hlru, ?_, hids'⟩
    rw [logOf_concat, ownOf, List.filter_append, ← ownOf, ← ownOf, hstep.1]
    rcases step_recorded (after L rt accounts (pre.filter (isOf b))) e with
      ⟨hlog, hlru'⟩ | ⟨slot, req, eventId, -, hid, hlog, hseen⟩
    · rw [hlog, hlru', h.own]
      exact congrArg lruOf (List.append_nil _).symm
    · have hown : ownOf b [(e.handler, eventId, req.recordedAt)] =
          [(e.handler, eventId, req.recordedAt)] := by
        rw [ownOf, List.filter_cons_of_pos (by simp [hk]), List.filter_nil]
      rw [h.own] at hseen
      rw [hlog, hown]
      exact lruOf_concat (fun x hx => h.ids x (List.mem_filter.mp hx).1) (requestId_ne_nil hid)
        hseen

/-- Two runs with the same events of one account, in which the other handlers leave the event ids
of its requests alone: the account's requests get the same responses and make the same calls of
`deliver`. -/
theorem isolation (hL : L.Keyed view)
    (hids : ∀ k, k ≠ b → (accounts k).accountId ≠ (accounts b).accountId)
    {es fs : List (Event κ ν)} (hsame : es.filter (isOf b) = fs.filter (isOf b))
    (hes : Admits (Undisturbed L rt accounts b) es)
    (hfs : Admits (Undisturbed L rt accounts b) fs) :
    observed (isOf b) (trace L rt accounts es) = observed (isOf b) (trace L rt accounts fs) :=
  history_observed (trace_purge hL hids hes) (trace_purge hL hids hfs) hsame

end

/-! ## Two accounts and a sender without event ids

The event ids of such a sender are made of the event and its second. -/

def acquireCount (key : JsString) (s : JsString → Nat) : Bool × (JsString → Nat) :=
  if s key < 8 then (true, Function.update s key (s key + 1)) else (false, s)

def releaseCount (key : JsString) (s : JsString → Nat) : JsString → Nat :=
  Function.update s key (s key - 1)

/-- The in-flight limiter with eight requests for each key. -/
def countingLimiter : InFlightLimiter := ⟨JsString → Nat, fun _ => 0, acquireCount, releaseCount⟩

theorem acquireCount_congr {key : JsString} {s s' : JsString → Nat} (h : s key = s' key) :
    (acquireCount key s).1 = (acquireCount key s').1 ∧
      (acquireCount key s).2 key = (acquireCount key s').2 key := by
  unfold acquireCount
  rw [h]
  split_ifs
  · exact ⟨rfl, by simp⟩
  · exact ⟨rfl, h⟩

theorem acquireCount_other {key other : JsString} (h : other ≠ key) (s : JsString → Nat) :
    (acquireCount other s).2 key = s key := by
  unfold acquireCount
  split_ifs
  · exact Function.update_of_ne (Ne.symm h) _ _
  · rfl

theorem releaseCount_congr {key : JsString} {s s' : JsString → Nat} (h : s key = s' key) :
    releaseCount key s key = releaseCount key s' key := by
  simp [releaseCount, h]

theorem countingLimiter_keyed :
    countingLimiter.Keyed fun key (s : JsString → Nat) => s key where
  acquire h := acquireCount_congr h
  release h := releaseCount_congr h
  acquire_other h s := acquireCount_other h s
  release_other h _ := Function.update_of_ne (Ne.symm h) _ _

/-- An event of the second 99 or 100. -/
def legacyBody (late : Bool) : JsString :=
  js "\x7b\"shadownet:v\":\"0.1\",\"event\":\"inbox.message\",\"occurredAt\":" ++
    js (if late then "100" else "99") ++
    js ",\"data\":\x7b\"intentId\":\"i1\",\"contactId\":\"c1\"\x7d\x7d"

def legacyEnvelope (late : Bool) : JsValue Int :=
  .obj [(js "shadownet:v", .str (js "0.1")), (js "event", .str (js "inbox.message")),
    (js "occurredAt", .num (if late then 100 else 99)),
    (js "data", .obj [(js "intentId", .str (js "i1")), (js "contactId", .str (js "c1"))])]

/-- The HMAC-SHA-256 of an event under `s3cret` and under `s4cret`. -/
def legacySignature (second late : Bool) : JsString :=
  match second, late with
  | false, false => js "7106c65e4db72e103cd75ddef3622124771af0cab5b462b6b00e6f3c6799fedb"
  | false, true => js "3945cbd49e74256925891511712b2a156e5bb5a87f8ba58222c11b40783372e9"
  | true, false => js "f606579a3cc40f5ddec36493ee9622c820c54f72ee307ab4e08c18a0eef2616c"
  | true, true => js "9127882a8eef120db85abb2abf36d50984cb023b03c910f10d9a04bfe6459b39"

def legacyRuntime : Runtime Int where
  hmacSha256Hex secret body :=
    legacySignature (secret == js "s4cret") (body == bufferFrom (legacyBody true))
  jsonParse s :=
    if s = legacyBody false then some (legacyEnvelope false)
    else if s = legacyBody true then some (legacyEnvelope true) else none
  jsonStringify _ := js "\x7b\x7d"
  numberToString n := js (toString n)
  ofInt := id

/-- The accounts of the two handlers. -/
def twoAccounts (second : Bool) : Account :=
  if second then ⟨js "second", js "s4cret", 60⟩ else ⟨js "first", js "s3cret", 60⟩

def legacyRequest (second late : Bool) : Request Int where
  method := js "POST"
  remoteAddress := some (js "203.0.113.7")
  signature := .single (legacySignature second late)
  timestamp := .single (js "100")
  pipelineOk := true
  body := .ok (legacyBody late)
  checkedAt := 100000
  limitedAt := 100000
  recordedAt := 100000
  fetchedAt := 100000
  inbox := .answered none

/-- A request of one handler from its arrival to `deliver`. -/
def legacyEvents (second late : Bool) : List (Event Bool Int) :=
  [.arrives second (js "POST"), .bodyRead second 0 (legacyRequest second late),
    .inboxAnswered second 0
      (.answered (some [[(js "payload", .obj [(js "text", .str (js "hi"))])]])) 100000]

/-- The second account's event is delivered, unless the first account has an event of the same
second. -/
theorem isolation_broken :
    (legacyEvents false true ++ legacyEvents true true).filter (isOf true) =
      (legacyEvents true true).filter (isOf true) ∧
    (delivered (observed (isOf true) (trace countingLimiter legacyRuntime twoAccounts
      (legacyEvents false true ++ legacyEvents true true)))).length = 0 ∧
    (delivered (observed (isOf true) (trace countingLimiter legacyRuntime twoAccounts
      (legacyEvents true true)))).length = 1 := by
  refine ⟨rfl, by decide +kernel, by decide +kernel⟩

theorem legacy_recorded :
    logOf countingLimiter legacyRuntime twoAccounts
      (legacyEvents false false ++ [.arrives true (js "POST")]) =
        [(false, js "inbox.message-99", 100000)] ∧
    logOf countingLimiter legacyRuntime twoAccounts [.arrives true (js "POST")] = [] ∧
    requestId legacyRuntime (legacyRequest true true) = some (js "inbox.message-100") := by
  decide +kernel

/-- A run that ends with a request of the second account, before which nothing was recorded for it
and nothing under its event id. -/
theorem legacy_undisturbed {before : List (Event Bool Int)}
    (hbefore : ∀ e ∈ before, ∀ slot req, e ≠ .bodyRead true slot req)
    (hlog : ∀ x ∈ logOf countingLimiter legacyRuntime twoAccounts
      (before ++ [.arrives true (js "POST")]), x.1 ≠ true ∧ x.2.1 ≠ js "inbox.message-100") :
    Admits (Undisturbed countingLimiter legacyRuntime twoAccounts true)
      (before ++ legacyEvents true true) := by
  have hquiet : Admits (Undisturbed countingLimiter legacyRuntime twoAccounts true)
      (before ++ [.arrives true (js "POST")]) := by
    rintro pre e post heq slot req eventId rfl
    have hmem : Event.bodyRead true slot req ∈ before ++ [.arrives true (js "POST")] := by
      rw [heq]
      simp
    rcases List.mem_append.mp hmem with hin | hin
    · exact absurd rfl (hbefore _ hin slot req)
    · simp at hin
  have hread : Undisturbed countingLimiter legacyRuntime twoAccounts true
      (before ++ [.arrives true (js "POST")])
      (.bodyRead true 0 (legacyRequest true true)) := by
    intro slot req eventId he hid
    cases he
    obtain rfl : js "inbox.message-100" = eventId :=
      Option.some.inj (legacy_recorded.2.2.symm.trans hid)
    refine ⟨fun x hx heq => absurd heq (hlog x hx).2, ?_⟩
    intro older seen newer heq
    have hmem : (true, js "inbox.message-100", seen) ∈ logOf countingLimiter legacyRuntime
        twoAccounts (before ++ [.arrives true (js "POST")]) := by
      rw [heq]
      simp
    exact absurd rfl (hlog _ hmem).1
  have hall := (hquiet.concat hread).concat (e := .inboxAnswered true 0
    (.answered (some [[(js "payload", .obj [(js "text", .str (js "hi"))])]])) 100000) (by
      intro slot req eventId he
      cases he)
  simpa [legacyEvents] using hall

/-- An event of the first account in another second does not disturb the second account, whose
event is delivered. -/
theorem isolation_seconds :
    observed (isOf true) (trace countingLimiter legacyRuntime twoAccounts
        (legacyEvents false false ++ legacyEvents true true)) =
      observed (isOf true) (trace countingLimiter legacyRuntime twoAccounts
        (legacyEvents true true)) ∧
    (delivered (observed (isOf true) (trace countingLimiter legacyRuntime twoAccounts
      (legacyEvents true true)))).length = 1 := by
  refine ⟨isolation countingLimiter_keyed ?_ rfl (legacy_undisturbed ?_ ?_)
    (@legacy_undisturbed [] (by simp) ?_), by decide +kernel⟩
  · intro k hk
    obtain rfl : k = false := by simpa using hk
    decide
  · intro e he slot req
    simp only [legacyEvents, List.mem_cons, List.not_mem_nil, or_false] at he
    rcases he with rfl | rfl | rfl
    · simp
    · simp
    · simp
  · rw [legacy_recorded.1]
    decide
  · rw [List.nil_append, legacy_recorded.2.1]
    simp

end Shadownet.Webhook
