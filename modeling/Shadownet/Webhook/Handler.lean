import Mathlib.Logic.Function.Basic
import Shadownet.Foundation.Outcome
import Shadownet.JavaScript.Basic

/-!
# The inbound webhook handler

`webhook.ts` of the OpenClaw plugin and the rate limiter of `security.ts`. Between reading
the body and answering, the handler never waits: this part (`accept`) reads and writes the
state of the module at once, and what follows (`dispatch`) only fetches the inbox item and
calls `deliver`. So a run of the module is a sequence of requests, in the order in which
their bodies were read.

A request comes with what the rest of the process answers while it is served: whether the
pipeline of the plugin SDK takes it, its body, the readings of the clock and the answer of
`social_inbox`.
-/

namespace Shadownet.Webhook

open Foundation JavaScript

/-! ## The module's constants -/

def knownEvents : List JsString :=
  [js "inbox.message", js "task.update", js "freshness.expired", js "presentation.failed",
    js "test.ping"]

def replayWindowSeconds : Int := 5 * 60

def idempotencyTtlMs : Int := 24 * 60 * 60 * 1000

def idempotencyMaxEntries : Nat := 10000

/-! ## Rate limiting -/

/-- `ShadownetRateLimiter`: the start of the window and the count of each key. -/
structure RateLimiter where
  limitPerMinute : Int
  counts : JsString → Option (Int × Int)

namespace RateLimiter

def windowMs : Int := 60000

def new (limitPerMinute : Int) : RateLimiter := ⟨limitPerMinute, fun _ => none⟩

/-- `check(key, now)`. -/
def check (rl : RateLimiter) (key : JsString) (now : Int) : RateLimiter × Bool :=
  match rl.counts key with
  | none => ({ rl with counts := Function.update rl.counts key (some (now, 1)) }, true)
  | some (windowStart, count) =>
    if windowMs ≤ now - windowStart then
      ({ rl with counts := Function.update rl.counts key (some (now, 1)) }, true)
    else
      ({ rl with counts := Function.update rl.counts key (some (windowStart, count + 1)) },
        decide (count + 1 ≤ rl.limitPerMinute))

end RateLimiter

/-- The fields of `ResolvedShadownetAccount` that decide a request. -/
structure Account where
  accountId : JsString
  secret : JsString
  rateLimitPerMinute : Int

/-- The state of the module: `rateLimiters` and `idempotencyLru`. -/
structure ModuleState where
  rateLimiters : JsString → Option RateLimiter
  idempotencyLru : List (JsString × Int)

/-- The module when it is loaded. -/
def ModuleState.initial : ModuleState := ⟨fun _ => none, []⟩

/-- `getRateLimiter`, which `createWebhookHandler` calls: the limiter is made once. -/
def getRateLimiter (m : ModuleState) (account : Account) : RateLimiter :=
  (m.rateLimiters account.accountId).getD (.new account.rateLimitPerMinute)

/-! ## De-duplication -/

/-- The loop that makes room: the entry set first goes first. -/
def evictOldest (maxEntries : Nat) (lru : List (JsString × Int)) : List (JsString × Int) :=
  match lru with
  | [] => []
  | (oldest, seen) :: rest =>
    if maxEntries < rest.length + 1 then
      -- `if (!oldest) break`
      if oldest = [] then (oldest, seen) :: rest else evictOldest maxEntries (forget oldest rest)
    else (oldest, seen) :: rest
termination_by lru.length
decreasing_by exact Nat.lt_succ_of_le (List.length_filter_le _ _)

/-- `recordSeen`: whether the delivery is a fresh one. -/
def recordSeen (lru : List (JsString × Int)) (eventId : JsString) (now : Int) :
    List (JsString × Int) × Bool :=
  if (lru.lookup eventId).any fun seen => decide (now - seen < idempotencyTtlMs) then
    (lru, false)
  else
    (evictOldest idempotencyMaxEntries (mapSet eventId now (forget eventId lru)), true)

/-! ## A request -/

/-- An error of `readRequestBodyWithLimit`: one of its own limits, with its status and
text, or another. -/
inductive BodyError where
  | limit (statusCode : Nat) (text : JsString)
  | other

/-- The answer of `social_inbox`: it may throw, be `null`, or have no `items`; an item is the
list of its members. -/
inductive InboxAnswer (ν : Type) where
  | threw
  | answered (items : Option (List (List (JsString × JsValue ν))))

/-- A request and what the process answers while it is served. -/
structure Request (ν : Type) where
  method : JsString
  remoteAddress : Option JsString
  signature : HeaderValue
  timestamp : HeaderValue
  /-- Whether `beginWebhookRequestPipelineOrReject` lets it in. -/
  pipelineOk : Bool
  body : Except BodyError JsString
  /-- The clock: for the replay window, for the rate limit, for `recordSeen`, and for
  `receivedAt`. -/
  checkedAt : Int
  limitedAt : Int
  recordedAt : Int
  fetchedAt : Int
  inbox : InboxAnswer ν

/-- `ShadownetInboundMessage`, what `deliver` gets. -/
structure InboundMessage (ν : Type) where
  accountId : JsString
  intentId : JsString
  contactId : JsString
  messageId : JsString
  interaction : Option JsString
  body : JsString
  receivedAt : ν

/-- How the part of the handler that does not wait ends. -/
inductive Admission (ν : Type) where
  /-- The pipeline answered. -/
  | turnedAway
  /-- `respond(res, status, JSON.stringify(body))` and `return`. -/
  | responded (status : Nat) (body : JsValue ν)
  /-- The promise of the handler is rejected and nothing was sent. -/
  | threw
  /-- The event was recorded and acknowledged with `{"ok":true}`. -/
  | fresh (eventId event : JsString) (envelope : JsValue ν)

section
variable {ν : Type}

/-- `readSingleHeader`. -/
def readSingleHeader : HeaderValue → Option JsString
  | .undefined => none
  | .single value => some value
  | .many values => values.head?

/-- `constantTimeEquals`: `none` when `timingSafeEqual` throws for buffers of different
lengths. -/
def constantTimeEquals (a b : JsString) : Option Bool :=
  if a.length ≠ b.length then some false
  else if (bufferFrom a).length ≠ (bufferFrom b).length then none
  else some (decide (bufferFrom a = bufferFrom b))

/-- `verifyHmac`. -/
def verifyHmac (rt : Runtime ν) (body : Bytes) (secret providedHex : JsString) : Option Bool :=
  constantTimeEquals (rt.hmacSha256Hex secret body) providedHex

/-- `{ error: name }`. -/
def errorBody (name : JsString) : JsValue ν := .obj [(js "error", .str name)]

/-- The response of a refusal. -/
def refuse (status : Nat) (name : String) : Admission ν := .responded status (errorBody (js name))

/-- The body, or the response for an error of `readRequestBodyWithLimit`. -/
def readBody (req : Request ν) : Except (Admission ν) JsString :=
  match req.body with
  | .error (.limit statusCode text) => throw (.responded statusCode (errorBody text))
  | .error .other => throw (refuse 400 "invalid_body")
  | .ok body => pure body

/-- Up to the signature: the body of a request that is signed. -/
def authenticate (rt : Runtime ν) (account : Account) (req : Request ν) :
    Except (Admission ν) JsString := do
  if req.method ≠ js "POST" then throw (refuse 405 "method_not_allowed")
  if req.pipelineOk = false then throw .turnedAway
  let body ← readBody req
  match truthy (readSingleHeader req.signature) with
  | none => throw (refuse 401 "missing_signature")
  | some signature =>
    match verifyHmac rt (bufferFrom body) account.secret signature with
    | none => throw .threw
    | some false => throw (refuse 401 "invalid_signature")
    | some true => pure body

/-- The replay window: the timestamp header against the clock. -/
def checkTimestamp (req : Request ν) : Except (Admission ν) Unit :=
  match isFinite ((truthy (readSingleHeader req.timestamp)).bind parseInt) with
  | none => throw (refuse 401 "missing_or_invalid_timestamp")
  | some tsSeconds =>
    if replayWindowSeconds < |req.checkedAt / 1000 - tsSeconds| then
      throw (refuse 401 "timestamp_skew")
    else pure ()

/-- The envelope of a body and its event, when it is a known one. -/
def readEnvelope (rt : Runtime ν) (body : JsString) :
    Except (Admission ν) (JsString × JsValue ν) :=
  match rt.jsonParse body with
  | none => throw (refuse 400 "invalid_json")
  | some envelope =>
    if asString (property envelope (js "shadownet:v")) ≠ some (js "0.1") then
      throw (refuse 400 "unrecognised_envelope")
    else match asString (property envelope (js "event")) with
      | none => throw (refuse 400 "unrecognised_envelope")
      | some event =>
        if event ∈ knownEvents then pure (event, envelope)
        else throw (.responded 200 (.obj [(js "ok", .bool true), (js "ignored", .bool true)]))

/-- `eventId`: `event_id`, or for a sender without one the event and `occurredAt`, where the
template literal may throw. -/
def eventIdOf (rt : Runtime ν) (event : JsString) (envelope : JsValue ν) : Option JsString :=
  match truthy (asString (property envelope (js "event_id"))) with
  | some eventId => some eventId
  | none => (template rt (property envelope (js "occurredAt"))).map ((event ++ js "-") ++ ·)

/-- The checks that read no state of the module. -/
def checkRequest (rt : Runtime ν) (account : Account) (req : Request ν) :
    Except (Admission ν) (JsString × JsValue ν) := do
  let body ← authenticate rt account req
  checkTimestamp req
  readEnvelope rt body

/-- The handler up to the acknowledgement: the checks, the rate limit and `recordSeen`. -/
def accept (rt : Runtime ν) (account : Account) (m : ModuleState) (req : Request ν) :
    ModuleState × Admission ν :=
  match checkRequest rt account req with
  | .error ended => (m, ended)
  | .ok (event, envelope) =>
    let (limiter, allowed) := (getRateLimiter m account).check
      (req.remoteAddress.getD (js "unknown")) req.limitedAt
    let m := { m with
      rateLimiters := Function.update m.rateLimiters account.accountId (some limiter) }
    if allowed = false then (m, refuse 429 "rate_limited")
    else match eventIdOf rt event envelope with
      | none => (m, .threw)
      | some eventId =>
        let (lru, isFresh) := recordSeen m.idempotencyLru eventId req.recordedAt
        if isFresh then ({ m with idempotencyLru := lru }, .fresh eventId event envelope)
        else ({ m with idempotencyLru := lru },
          .responded 200 (.obj [(js "ok", .bool true), (js "idempotent", .bool true)]))

/-- The message of an inbox item. -/
def inboundOf (rt : Runtime ν) (account : Account) (req : Request ν)
    (eventId intentId contactId : JsString) (item : JsValue ν) : InboundMessage ν :=
  let payload := match property item (js "payload") with
    | none | some .null => .obj []
    | some payload => payload
  { accountId := account.accountId
    intentId := intentId
    contactId := contactId
    messageId := (truthy (asString (property item (js "messageId")))).getD eventId
    interaction := asString (property item (js "interaction"))
    body := (asString (property payload (js "text"))).getD (rt.jsonStringify payload)
    receivedAt := match property item (js "receivedAt") with
      | some (.num n) => n
      | _ => rt.ofInt (req.fetchedAt / 1000) }

/-- The handler after the acknowledgement: what it hands to `deliver`, if anything. -/
def dispatch (rt : Runtime ν) (account : Account) (req : Request ν)
    (eventId event : JsString) (envelope : JsValue ν) : Option (InboundMessage ν) :=
  if event ≠ js "inbox.message" then none
  else match property envelope (js "data") with
    -- `data.intentId` throws here
    | none | some .null => none
    | some data =>
      match truthy (asString (property data (js "intentId"))),
          truthy (asString (property data (js "contactId"))) with
      | some intentId, some contactId =>
        match req.inbox with
        | .threw => none
        | .answered items => ((items.getD []).head?).map fun item =>
            inboundOf rt account req eventId intentId contactId (.obj item)
      | _, _ => none

/-- What a request is answered and what it hands to `deliver`. -/
structure Served (ν : Type) where
  admission : Admission ν
  delivered : Option (InboundMessage ν)

/-- `createWebhookHandler(deps)(req, res)`. -/
def handle (rt : Runtime ν) (account : Account) (m : ModuleState) (req : Request ν) :
    ModuleState × Served ν :=
  let (m, admission) := accept rt account m req
  (m, ⟨admission, match admission with
    | .fresh eventId event envelope => dispatch rt account req eventId event envelope
    | _ => none⟩)

end

end Shadownet.Webhook
