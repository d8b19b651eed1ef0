import Shadownet.Foundation.Trace
import Shadownet.Webhook.Replay

/-!
# Handlers in one process

Several accounts have their handlers in one process. The module's state is shared by all of them;
the in-flight limiter of the plugin SDK is shared as well and takes the account as its key. A
request waits three times: for its body, for the answer of `social_inbox` and for `deliver`. What
happens between two waits happens at once, so a run of the process is a list of events, each of
which takes one request from one wait to the next.
-/

namespace Shadownet.Webhook

open Foundation JavaScript

/-- `createWebhookInFlightLimiter()` as `beginWebhookRequestPipelineOrReject` uses it. -/
structure InFlightLimiter where
  State : Type
  initial : State
  tryAcquire : JsString → State → Bool × State
  release : JsString → State → State

/-- Keys do not see each other: each has a view of the limiter that decides its answers and that
only its own calls change. -/
structure InFlightLimiter.Keyed (L : InFlightLimiter) {V : Type} (view : JsString → L.State → V) :
    Prop where
  acquire {key : JsString} {s s' : L.State} (h : view key s = view key s') :
    (L.tryAcquire key s).1 = (L.tryAcquire key s').1 ∧
      view key (L.tryAcquire key s).2 = view key (L.tryAcquire key s').2
  release {key : JsString} {s s' : L.State} (h : view key s = view key s') :
    view key (L.release key s) = view key (L.release key s')
  acquire_other {key other : JsString} (h : other ≠ key) (s : L.State) :
    view key (L.tryAcquire other s).2 = view key s
  release_other {key other : JsString} (h : other ≠ key) (s : L.State) :
    view key (L.release other s) = view key s

/-- What a request waits for. -/
inductive Phase (ν : Type) where
  | body
  | inbox (req : Request ν) (eventId event : JsString) (envelope : JsValue ν)
  | deliver
  | over

/-- What happens to a request; the requests of a handler are numbered in the order of their
arrival. -/
inductive Event (κ ν : Type) where
  | arrives (handler : κ) (method : JsString)
  | bodyRead (handler : κ) (slot : Nat) (req : Request ν)
  | inboxAnswered (handler : κ) (slot : Nat) (answer : InboxAnswer ν) (now : Int)
  | deliverSettled (handler : κ) (slot : Nat)

def Event.handler {κ ν : Type} : Event κ ν → κ
  | .arrives handler _ => handler
  | .bodyRead handler _ _ => handler
  | .inboxAnswered handler _ _ _ => handler
  | .deliverSettled handler _ => handler

/-- What the handler does before it waits again. -/
inductive Answer (ν : Type) where
  | nothing
  | responds (admission : Admission ν)
  | delivers (msg : InboundMessage ν)

structure Process (L : InFlightLimiter) (κ ν : Type) where
  modul : ModuleState
  limiter : L.State
  phases : κ → List (Phase ν)

section
variable {L : InFlightLimiter} {κ ν : Type}

/-- The process when the module is loaded. -/
def Process.initial : Process L κ ν := ⟨.initial, L.initial, fun _ => []⟩

variable [DecidableEq κ]

namespace Process

/-- A new request of a handler. -/
def push (P : Process L κ ν) (k : κ) (phase : Phase ν) : Process L κ ν :=
  { P with phases := Function.update P.phases k (P.phases k ++ [phase]) }

/-- A request goes on to its next wait. -/
def goto (P : Process L κ ν) (k : κ) (slot : Nat) (phase : Phase ν) : Process L κ ν :=
  { P with phases := Function.update P.phases k ((P.phases k).set slot phase) }

/-- A request ends: `finally { lifecycle.release(); }`. -/
def finish (P : Process L κ ν) (key : JsString) (k : κ) (slot : Nat) : Process L κ ν :=
  { P.goto k slot .over with limiter := L.release key P.limiter }

@[simp] theorem phases_push (P : Process L κ ν) (k : κ) (phase : Phase ν) :
    (P.push k phase).phases k = P.phases k ++ [phase] := Function.update_self ..

@[simp] theorem phases_goto (P : Process L κ ν) (k : κ) (slot : Nat) (phase : Phase ν) :
    (P.goto k slot phase).phases k = (P.phases k).set slot phase := Function.update_self ..

@[simp] theorem phases_finish (P : Process L κ ν) (key : JsString) (k : κ) (slot : Nat) :
    (P.finish key k slot).phases k = (P.phases k).set slot .over := Function.update_self ..

end Process

/-- Whether a recorded event has an inbox item to fetch. -/
def fetches (event : JsString) (envelope : JsValue ν) : Bool :=
  event == js "inbox.message" &&
    match property envelope (js "data") with
    | none | some .null => false
    | some data =>
      (truthy (asString (property data (js "intentId")))).isSome &&
        (truthy (asString (property data (js "contactId")))).isSome

variable (rt : Runtime ν) (accounts : κ → Account)

/-- Up to the body: the method, then the in-flight limiter. -/
def arrive (P : Process L κ ν) (k : κ) (method : JsString) : Process L κ ν × Answer ν :=
  if method ≠ js "POST" then (P.push k .over, .responds (refuse 405 "method_not_allowed"))
  else
    let (ok, limiter) := L.tryAcquire (accounts k).accountId P.limiter
    if ok then ({ P with limiter }.push k .body, .nothing)
    else ({ P with limiter }.push k .over, .responds .turnedAway)

/-- From the body to the answer, and on to `social_inbox` if there is an item to fetch. -/
def readsBody (P : Process L κ ν) (k : κ) (slot : Nat) (req : Request ν) :
    Process L κ ν × Answer ν :=
  let (modul, admission) := accept rt (accounts k) P.modul
    { req with method := js "POST", pipelineOk := true }
  let P := { P with modul }
  match admission with
  | .fresh eventId event envelope =>
    if fetches event envelope then
      (P.goto k slot (.inbox req eventId event envelope), .responds admission)
    else (P.finish (accounts k).accountId k slot, .responds admission)
  | _ => (P.finish (accounts k).accountId k slot, .responds admission)

/-- From the answer of `social_inbox` to `deliver`. -/
def getsInbox (P : Process L κ ν) (k : κ) (slot : Nat) (req : Request ν)
    (eventId event : JsString) (envelope : JsValue ν) : Process L κ ν × Answer ν :=
  match dispatch rt (accounts k) req eventId event envelope with
  | none => (P.finish (accounts k).accountId k slot, .nothing)
  | some msg => (P.goto k slot .deliver, .delivers msg)

/-- One event of the process. An event that a request does not wait for changes nothing. -/
def step (P : Process L κ ν) : Event κ ν → Process L κ ν × Answer ν
  | .arrives k method => arrive accounts P k method
  | .bodyRead k slot req =>
    match (P.phases k)[slot]? with
    | some .body => readsBody rt accounts P k slot req
    | _ => (P, .nothing)
  | .inboxAnswered k slot answer now =>
    match (P.phases k)[slot]? with
    | some (.inbox req eventId event envelope) =>
      getsInbox rt accounts P k slot { req with inbox := answer, fetchedAt := now } eventId event
        envelope
    | _ => (P, .nothing)
  | .deliverSettled k slot =>
    match (P.phases k)[slot]? with
    | some .deliver => (P.finish (accounts k).accountId k slot, .nothing)
    | _ => (P, .nothing)

/-- The events that the run recorded, each with its handler and its time. -/
def recorded (h : List (Event κ ν × Answer ν)) : List (κ × JsString × Int) :=
  h.filterMap fun x => match x with
    | (.bodyRead k _ req, .responds (.fresh eventId _ _)) => some (k, eventId, req.recordedAt)
    | _ => none

end

/-- The calls of `deliver` in a run. -/
def delivered {ε ν : Type} (h : List (ε × Answer ν)) : List (InboundMessage ν) :=
  h.filterMap fun x => match x.2 with
    | .delivers msg => some msg
    | _ => none

/-! ## Recordings -/

section
variable {ν : Type} (rt : Runtime ν)

/-- The event id that a request carries. -/
def requestId (req : Request ν) : Option JsString := req.body.toOption.bind (bodyEventId rt)

/-- A request is not recorded and leaves the map, or it is the recording of its event id. -/
theorem accept_effect (account : Account) (m : ModuleState) (req : Request ν) :
    (NotFresh (accept rt account m req).2 ∧
      (accept rt account m req).1.idempotencyLru = m.idempotencyLru) ∨
    ∃ eventId event envelope, requestId rt req = some eventId ∧
      (accept rt account m req).2 = .fresh eventId event envelope ∧
      recordSeen m.idempotencyLru eventId req.recordedAt =
        ((accept rt account m req).1.idempotencyLru, true) := by
  have hstate : (handle rt account m req).1 = (accept rt account m req).1 := rfl
  have hanswer : (handle rt account m req).2.admission = (accept rt account m req).2 := rfl
  rw [← hstate, ← hanswer]
  have heff := handle_effect rt account m req
  generalize handle rt account m req = r at heff
  cases heff with
  | quiet ha hm => exact .inl ⟨ha, hm⟩
  | recorded hbody hid hseen =>
    refine .inr ⟨_, _, _, ?_, rfl, hseen⟩
    rw [requestId, hbody]
    exact hid

end

section
variable {L : InFlightLimiter} {κ ν : Type} [DecidableEq κ] {rt : Runtime ν}
  {accounts : κ → Account}

/-- An event leaves the map, or it is the recording of an event id. -/
theorem step_recorded (P : Process L κ ν) (e : Event κ ν) :
    (recorded [(e, (step rt accounts P e).2)] = [] ∧
      (step rt accounts P e).1.modul.idempotencyLru = P.modul.idempotencyLru) ∨
    ∃ slot req eventId, e = .bodyRead e.handler slot req ∧ requestId rt req = some eventId ∧
      recorded [(e, (step rt accounts P e).2)] = [(e.handler, eventId, req.recordedAt)] ∧
      recordSeen P.modul.idempotencyLru eventId req.recordedAt =
        ((step rt accounts P e).1.modul.idempotencyLru, true) := by
  cases e with
  | arrives k method =>
    refine .inl ⟨rfl, ?_⟩
    dsimp only [step, arrive]
    split_ifs <;> rfl
  | bodyRead k slot req =>
    dsimp only [step]
    split
    · have heff := accept_effect rt (accounts k) P.modul
        { req with method := js "POST", pipelineOk := true }
      dsimp only [readsBody]
      generalize accept rt (accounts k) P.modul
        { req with method := js "POST", pipelineOk := true } = r at heff
      obtain ⟨modul, admission⟩ := r
      rcases heff with ⟨hnot, hlru⟩ | ⟨eventId, event, envelope, hid, rfl, hseen⟩
      · left
        cases admission with
        | fresh eventId event envelope => exact absurd rfl (hnot eventId event envelope)
        | turnedAway => exact ⟨rfl, hlru⟩
        | responded status body => exact ⟨rfl, hlru⟩
        | threw => exact ⟨rfl, hlru⟩
      · refine .inr ⟨slot, req, eventId, rfl, hid, ?_, ?_⟩
        · dsimp only
          split_ifs <;> rfl
        · dsimp only
          split_ifs <;> exact hseen
    · exact .inl ⟨rfl, rfl⟩
  | inboxAnswered k slot answer now =>
    refine .inl ⟨rfl, ?_⟩
    dsimp only [step]
    split
    · dsimp only [getsInbox]
      split <;> rfl
    · rfl
  | deliverSettled k slot =>
    refine .inl ⟨rfl, ?_⟩
    dsimp only [step]
    split <;> rfl

end

end Shadownet.Webhook
