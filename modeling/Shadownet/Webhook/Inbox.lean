import Mathlib.Algebra.Order.Group.Multiset
import Shadownet.Webhook.Process

/-!
# Events and the messages they announce

An event says that a message is in the inbox of a contact, and the handler fetches the message from
there afterwards: `social_inbox` with `limit: 1`, whose answer is the newest message of the contact
by then.

* `delivers_announced`: while each fetch finds the announced message to be the newest, what is
  delivered is what was announced, each message once.
* `burst_skips`: of two messages that come one right after the other, the second is delivered
  twice and the first never.
-/

namespace Shadownet.Webhook

open Foundation JavaScript

/-! ## The inbox -/

/-- An item of an inbox, as its members. -/
abbrev Item (ν : Type) := List (JsString × JsValue ν)

/-- The process with the inboxes of each account's contacts, newest item first. -/
structure Mail (L : InFlightLimiter) (κ ν : Type) where
  process : Process L κ ν
  inbox : κ → JsString → List (Item ν)

/-- A message joins an inbox, or something happens to a request; the answer of `social_inbox` is
the inbox's. -/
inductive MailEvent (κ ν : Type) where
  | posted (handler : κ) (contactId : JsString) (item : Item ν)
  | happens (e : Event κ ν)

section
variable {L : InFlightLimiter} {κ ν : Type}

/-- The contact of an event. -/
def contactOf (envelope : JsValue ν) : JsString :=
  match property envelope (js "data") with
  | none => []
  | some data => (asString (property data (js "contactId"))).getD []

/-- `social_inbox` with `contact_id` and `limit`. -/
def Mail.socialInbox (M : Mail L κ ν) (k : κ) (contactId : JsString) (limit : Nat) :
    List (Item ν) :=
  (M.inbox k contactId).take limit

/-- The event with the inbox's own answer in place of another. -/
def Mail.answering (M : Mail L κ ν) : Event κ ν → Event κ ν
  | .inboxAnswered k slot answer now =>
    match (M.process.phases k)[slot]? with
    | some (.inbox _ _ _ envelope) =>
      .inboxAnswered k slot (.answered (some (M.socialInbox k (contactOf envelope) 1))) now
    | _ => .inboxAnswered k slot answer now
  | e => e

/-- What `deliver` gets as the body of an item. -/
def bodyOf (rt : Runtime ν) (item : Item ν) : JsString :=
  let payload := match property (.obj item) (js "payload") with
    | none | some .null => .obj []
    | some payload => payload
  (asString (property payload (js "text"))).getD (rt.jsonStringify payload)

theorem inboundOf_body (rt : Runtime ν) (account : Account) (req : Request ν)
    (eventId intentId contactId : JsString) (item : Item ν) :
    (inboundOf rt account req eventId intentId contactId (.obj item)).body = bodyOf rt item := rfl

variable [DecidableEq κ] (rt : Runtime ν) (accounts : κ → Account)

/-- A message becomes the newest of its contact. -/
def Mail.post (M : Mail L κ ν) (k : κ) (contactId : JsString) (item : Item ν) : Mail L κ ν :=
  let contacts := Function.update (M.inbox k) contactId (item :: M.inbox k contactId)
  { M with inbox := Function.update M.inbox k contacts }

def mailStep (M : Mail L κ ν) : MailEvent κ ν → Mail L κ ν × Answer ν
  | .posted k contactId item => (M.post k contactId item, .nothing)
  | .happens e =>
    let (process, answer) := step rt accounts M.process (M.answering e)
    ({ M with process }, answer)

end

/-! ## One request -/

section
variable {ν : Type} {rt : Runtime ν}

/-- A recorded event with an item to fetch is dispatched with the item that is fetched. -/
theorem dispatch_body {account : Account} {req : Request ν} {eventId event : JsString}
    {envelope : JsValue ν} {item : Item ν} (hf : fetches event envelope = true)
    (hinbox : req.inbox = .answered (some [item])) :
    ∃ msg, dispatch rt account req eventId event envelope = some msg ∧
      msg.body = bodyOf rt item := by
  unfold fetches at hf
  obtain ⟨hevent, hdata⟩ := Bool.and_eq_true_iff.mp hf
  unfold dispatch
  rw [if_neg (not_not.mpr (beq_iff_eq.mp hevent))]
  cases hread : property envelope (js "data") with
  | none =>
    rw [hread] at hdata
    cases hdata
  | some data =>
    rw [hread] at hdata
    cases data with
    | null => cases hdata
    | _ =>
      obtain ⟨hintent, hcontact⟩ := Bool.and_eq_true_iff.mp hdata
      obtain ⟨intentId, hintent⟩ := Option.isSome_iff_exists.mp hintent
      obtain ⟨contactId, hcontact⟩ := Option.isSome_iff_exists.mp hcontact
      dsimp only
      rw [hintent, hcontact, hinbox]
      exact ⟨_, rfl, inboundOf_body ..⟩

end

/-! ## Accounts of what is announced, waited for and delivered -/

section
variable {α β : Type}

theorem coe_filterMap_cons (f : α → Option β) (a : α) (l : List α) :
    ((a :: l).filterMap f : Multiset β) = (f a).toList + (l.filterMap f : Multiset β) := by
  rw [List.filterMap_cons]
  cases f a with
  | none => exact (zero_add _).symm
  | some b => rfl

/-- What a list gains and loses when one place of it changes. -/
theorem coe_filterMap_set (f : α → Option β) {l : List α} {n : Nat} {x : α} (y : α)
    (h : l[n]? = some x) :
    ((l.set n y).filterMap f : Multiset β) + (f x).toList =
      (l.filterMap f : Multiset β) + (f y).toList := by
  induction l generalizing n with
  | nil => simp at h
  | cons a l ih =>
    cases n with
    | zero =>
      obtain rfl : a = x := by simpa using h
      rw [List.set_cons_zero, coe_filterMap_cons, coe_filterMap_cons]
      rw [add_right_comm, add_comm ((f y).toList : Multiset β), add_right_comm]
    | succ n =>
      rw [List.set_cons_succ, coe_filterMap_cons, coe_filterMap_cons, add_assoc,
        ih (by simpa using h), add_assoc]

end

section
variable {L : InFlightLimiter} {κ ν : Type} [DecidableEq κ] {rt : Runtime ν}
  {accounts : κ → Account} {P : Process L κ ν} {k : κ} {body : JsString → JsString}

/-- The event with which a request waits for its message. -/
def awaited : Phase ν → Option JsString
  | .inbox _ eventId _ _ => some eventId
  | _ => none

/-- The event that an answer acknowledges, when it announces a message. -/
def acknowledged : Answer ν → Option JsString
  | .responds (.fresh eventId event envelope) =>
    if fetches event envelope then some eventId else none
  | _ => none

def deliveredBody : Answer ν → Option JsString
  | .delivers msg => some msg.body
  | _ => none

/-- The bodies of the messages that requests wait for. -/
def waiting (body : JsString → JsString) (phases : List (Phase ν)) : Multiset JsString :=
  (phases.filterMap fun phase => (awaited phase).map body : List JsString)

/-- Requests wait for an inbox item only if they have one to fetch. -/
def Fetching (phases : List (Phase ν)) : Prop :=
  ∀ req eventId event envelope, .inbox req eventId event envelope ∈ phases →
    fetches event envelope = true

theorem waiting_concat (phases : List (Phase ν)) {phase : Phase ν} (h : awaited phase = none) :
    waiting body (phases ++ [phase]) = waiting body phases := by
  simp [waiting, List.filterMap_append, h]

theorem waiting_set {phases : List (Phase ν)} {slot : Nat} {phase : Phase ν} (next : Phase ν)
    (h : phases[slot]? = some phase) :
    waiting body (phases.set slot next) + (((awaited phase).map body).toList : Multiset JsString) =
      waiting body phases + ((awaited next).map body).toList :=
  coe_filterMap_set _ next h

theorem Fetching.concat {phases : List (Phase ν)} (h : Fetching phases) {phase : Phase ν}
    (hp : awaited phase = none) : Fetching (phases ++ [phase]) := by
  intro req eventId event envelope hmem
  rcases List.mem_append.mp hmem with hmem | hmem
  · exact h req eventId event envelope hmem
  · rw [← List.mem_singleton.mp hmem] at hp
    cases hp

theorem Fetching.set {phases : List (Phase ν)} (h : Fetching phases) (slot : Nat) {next : Phase ν}
    (hn : ∀ req eventId event envelope, next = .inbox req eventId event envelope →
      fetches event envelope = true) : Fetching (phases.set slot next) := by
  intro req eventId event envelope hmem
  rcases List.mem_or_eq_of_mem_set hmem with hmem | heq
  · exact h req eventId event envelope hmem
  · exact hn req eventId event envelope heq.symm

/-- What the requests wait for and what is delivered grows by what is acknowledged. -/
structure Moves (body : JsString → JsString) (phases phases' : List (Phase ν)) (a : Answer ν) :
    Prop where
  bodies : waiting body phases' + ((deliveredBody a).toList : Multiset JsString) =
    waiting body phases + (((acknowledged a).map body).toList : Multiset JsString)
  fetching : Fetching phases'

theorem moves_none {phases : List (Phase ν)} (hf : Fetching phases) {a : Answer ν}
    (hd : deliveredBody a = none) (ha : acknowledged a = none) : Moves body phases phases a :=
  ⟨by rw [hd, ha]; rfl, hf⟩

theorem moves_concat {phases : List (Phase ν)} (hf : Fetching phases) {phase : Phase ν}
    {a : Answer ν} (hp : awaited phase = none) (hd : deliveredBody a = none)
    (ha : acknowledged a = none) : Moves body phases (phases ++ [phase]) a where
  bodies := by rw [waiting_concat _ hp, hd, ha]; rfl
  fetching := hf.concat hp

/-- A request goes on: what it waited for is delivered, what it waits for next was acknowledged. -/
theorem moves_set {phases : List (Phase ν)} (hf : Fetching phases) {slot : Nat}
    {phase next : Phase ν} {a : Answer ν} (h : phases[slot]? = some phase)
    (hn : ∀ req eventId event envelope, next = .inbox req eventId event envelope →
      fetches event envelope = true)
    (hd : deliveredBody a = (awaited phase).map body) (ha : acknowledged a = awaited next) :
    Moves body phases (phases.set slot next) a where
  bodies := by rw [hd, ha]; exact waiting_set next h
  fetching := hf.set slot hn

/-- One event of a handler, for which an answer of `social_inbox` is the message of the request. -/
theorem step_moves {e : Event κ ν} {item : JsString → Item ν} (hk : e.handler = k)
    (hf : Fetching (P.phases k))
    (hitem : ∀ slot answer now req eventId event envelope, e = .inboxAnswered k slot answer now →
      (P.phases k)[slot]? = some (.inbox req eventId event envelope) →
      answer = .answered (some [item eventId])) :
    Moves (bodyOf rt ∘ item) (P.phases k) ((step rt accounts P e).1.phases k)
      (step rt accounts P e).2 := by
  cases e with
  | arrives k' method =>
    obtain rfl : k' = k := hk
    dsimp only [step, arrive]
    split_ifs
    · rw [Process.phases_push]
      exact moves_concat hf rfl rfl rfl
    · rw [Process.phases_push]
      exact moves_concat hf rfl rfl rfl
    · rw [Process.phases_push]
      exact moves_concat hf rfl rfl rfl
  | bodyRead k' slot req =>
    obtain rfl : k' = k := hk
    dsimp only [step]
    split
    · next hphase =>
      dsimp only [readsBody]
      generalize accept rt (accounts k') P.modul
        { req with method := js "POST", pipelineOk := true } = r
      obtain ⟨modul, admission⟩ := r
      cases admission with
      | fresh eventId event envelope =>
        dsimp only
        split_ifs with hfetch
        · rw [Process.phases_goto]
          refine moves_set hf hphase ?_ rfl (if_pos hfetch)
          rintro _ _ _ _ ⟨⟩
          exact hfetch
        · rw [Process.phases_finish]
          exact moves_set hf hphase (by simp) rfl (if_neg hfetch)
      | turnedAway =>
        rw [Process.phases_finish]
        exact moves_set hf hphase (by simp) rfl rfl
      | responded status body =>
        rw [Process.phases_finish]
        exact moves_set hf hphase (by simp) rfl rfl
      | threw =>
        rw [Process.phases_finish]
        exact moves_set hf hphase (by simp) rfl rfl
    · exact moves_none hf rfl rfl
  | inboxAnswered k' slot answer now =>
    obtain rfl : k' = k := hk
    dsimp only [step]
    split
    · next req eventId event envelope hphase =>
      obtain rfl := hitem slot answer now req eventId event envelope rfl hphase
      have hfetch := hf req eventId event envelope (List.mem_of_getElem? hphase)
      obtain ⟨msg, hmsg, hbody⟩ := @dispatch_body _ rt (accounts k')
        { req with inbox := .answered (some [item eventId]), fetchedAt := now } eventId event
        envelope (item eventId) hfetch rfl
      dsimp only [getsInbox]
      rw [hmsg]
      dsimp only
      rw [Process.phases_goto]
      exact moves_set hf hphase (by simp) (congrArg some hbody) rfl
    · exact moves_none hf rfl rfl
  | deliverSettled k' slot =>
    obtain rfl : k' = k := hk
    dsimp only [step]
    split
    · next hphase =>
      rw [Process.phases_finish]
      exact moves_set hf hphase (by simp) rfl rfl
    · exact moves_none hf rfl rfl

/-- An event of another handler leaves the requests of this one. -/
theorem step_phases_other {e : Event κ ν} (hk : e.handler ≠ k) :
    (step rt accounts P e).1.phases k = P.phases k := by
  have hother : ∀ {k' : κ}, k' ≠ k → ∀ (phases : κ → List (Phase ν)) (l : List (Phase ν)),
      Function.update phases k' l k = phases k := fun h _ _ => Function.update_of_ne (Ne.symm h) _ _
  cases e with
  | arrives k' method =>
    dsimp only [step, arrive]
    split_ifs <;> exact hother hk _ _
  | bodyRead k' slot req =>
    dsimp only [step]
    split
    · dsimp only [readsBody]
      split
      · split_ifs <;> exact hother hk _ _
      · exact hother hk _ _
    · rfl
  | inboxAnswered k' slot answer now =>
    dsimp only [step]
    split
    · dsimp only [getsInbox]
      split <;> exact hother hk _ _
    · rfl
  | deliverSettled k' slot =>
    dsimp only [step]
    split
    · exact hother hk _ _
    · rfl

end

/-! ## Runs -/

section
variable {L : InFlightLimiter} {κ ν : Type} [DecidableEq κ] {rt : Runtime ν}
  {accounts : κ → Account} {k : κ} {item : JsString → Item ν}

/-- The process and the inboxes at the beginning. -/
def Mail.initial : Mail L κ ν := ⟨.initial, fun _ _ => []⟩

/-- The answers to a handler's events in a run. -/
def answersOf (k : κ) (h : List (MailEvent κ ν × Answer ν)) : List (Answer ν) :=
  h.filterMap fun x => match x.1 with
    | .posted _ _ _ => none
    | .happens e => if e.handler = k then some x.2 else none

/-- The bodies that a handler hands to `deliver`. -/
def deliveredBodies (k : κ) (h : List (MailEvent κ ν × Answer ν)) : Multiset JsString :=
  ((answersOf k h).filterMap deliveredBody : List JsString)

/-- The bodies of the messages that the acknowledged events of a handler announce. -/
def announcedBodies (k : κ) (body : JsString → JsString) (h : List (MailEvent κ ν × Answer ν)) :
    Multiset JsString :=
  ((answersOf k h).filterMap fun a => (acknowledged a).map body : List JsString)

/-- A fetch of the handler finds the message that its event announces as the newest of the
contact. -/
def FetchesNewest (k : κ) (item : JsString → Item ν) (M : Mail L κ ν) (e : MailEvent κ ν) : Prop :=
  ∀ slot answer now req eventId event envelope, e = .happens (.inboxAnswered k slot answer now) →
    (M.process.phases k)[slot]? = some (.inbox req eventId event envelope) →
    (M.inbox k (contactOf envelope)).head? = some (item eventId)

omit [DecidableEq κ] in
theorem answering_handler (M : Mail L κ ν) (e : Event κ ν) :
    (M.answering e).handler = e.handler := by
  cases e with
  | inboxAnswered k slot answer now =>
    dsimp only [Mail.answering]
    split <;> rfl
  | arrives k method => rfl
  | bodyRead k slot req => rfl
  | deliverSettled k slot => rfl

/-- What is announced, waited for and delivered stays in balance. -/
theorem mailStep_moves {M : Mail L κ ν} {e : Event κ ν} (hk : e.handler = k)
    (hf : Fetching (M.process.phases k)) (hnew : FetchesNewest k item M (.happens e)) :
    Moves (bodyOf rt ∘ item) (M.process.phases k)
      ((mailStep rt accounts M (.happens e)).1.process.phases k)
      (mailStep rt accounts M (.happens e)).2 := by
  refine step_moves ((answering_handler M e).trans hk) hf ?_
  intro slot answer now req eventId event envelope he hphase
  cases e with
  | arrives k' method => cases he
  | bodyRead k' slot' req' => cases he
  | deliverSettled k' slot' => cases he
  | inboxAnswered k' slot' answer' now' =>
    obtain rfl : k' = k := hk
    dsimp only [Mail.answering] at he
    split at he
    · next hphase' =>
      cases he
      rw [hphase] at hphase'
      cases hphase'
      have hhead := hnew slot answer' now req eventId event envelope rfl hphase
      obtain ⟨rest, hrest⟩ := List.head?_eq_some_iff.mp hhead
      rw [Mail.socialInbox, hrest]
      rfl
    · next hnot =>
      cases he
      exact absurd hphase (hnot _ _ _ _)

/-- What is delivered and what is waited for is what was announced. -/
structure Balanced (rt : Runtime ν) (k : κ) (item : JsString → Item ν) (M : Mail L κ ν)
    (h : List (MailEvent κ ν × Answer ν)) : Prop where
  bodies : waiting (bodyOf rt ∘ item) (M.process.phases k) + deliveredBodies k h =
    announcedBodies k (bodyOf rt ∘ item) h
  fetching : Fetching (M.process.phases k)

theorem answersOf_concat (h : List (MailEvent κ ν × Answer ν)) (e : MailEvent κ ν) (a : Answer ν) :
    answersOf k (h ++ [(e, a)]) = answersOf k h ++ answersOf k [(e, a)] := List.filterMap_append

theorem deliveredBodies_concat (h : List (MailEvent κ ν × Answer ν)) (e : MailEvent κ ν)
    (a : Answer ν) :
    deliveredBodies k (h ++ [(e, a)]) = deliveredBodies k h + deliveredBodies k [(e, a)] := by
  rw [deliveredBodies, answersOf_concat, List.filterMap_append]
  rfl

theorem announcedBodies_concat (body : JsString → JsString) (h : List (MailEvent κ ν × Answer ν))
    (e : MailEvent κ ν) (a : Answer ν) :
    announcedBodies k body (h ++ [(e, a)]) =
      announcedBodies k body h + announcedBodies k body [(e, a)] := by
  rw [announcedBodies, answersOf_concat, List.filterMap_append]
  rfl

theorem Balanced.step {M : Mail L κ ν} {h : List (MailEvent κ ν × Answer ν)}
    (hb : Balanced rt k item M h) {e : MailEvent κ ν} (hnew : FetchesNewest k item M e) :
    Balanced rt k item (mailStep rt accounts M e).1 (h ++ [(e, (mailStep rt accounts M e).2)]) := by
  -- An event that is not the handler's counts for nothing.
  have hquiet : answersOf k [(e, (mailStep rt accounts M e).2)] = [] →
      (mailStep rt accounts M e).1.process.phases k = M.process.phases k →
      Balanced rt k item (mailStep rt accounts M e).1
        (h ++ [(e, (mailStep rt accounts M e).2)]) := by
    intro hanswers hphases
    refine ⟨?_, by rw [hphases]; exact hb.fetching⟩
    rw [hphases, deliveredBodies, announcedBodies, answersOf_concat, hanswers, List.append_nil]
    exact hb.bodies
  cases e with
  | posted k' contactId posted => exact hquiet rfl rfl
  | happens e =>
    by_cases hk : e.handler = k
    · have hmoves := @mailStep_moves L κ ν _ rt accounts k item M e hk hb.fetching hnew
      generalize mailStep rt accounts M (.happens e) = r at hmoves ⊢
      obtain ⟨M', a⟩ := r
      have hanswers : answersOf k [(.happens e, a)] = [a] := by
        simp [answersOf, hk]
      have hdelivered : deliveredBodies k [(.happens e, a)] =
          ((deliveredBody a).toList : Multiset JsString) := by
        rw [deliveredBodies, hanswers, coe_filterMap_cons]
        exact add_zero _
      have hannounced : announcedBodies k (bodyOf rt ∘ item) [(.happens e, a)] =
          (((acknowledged a).map (bodyOf rt ∘ item)).toList : Multiset JsString) := by
        rw [announcedBodies, hanswers, coe_filterMap_cons]
        exact add_zero _
      refine ⟨?_, hmoves.fetching⟩
      rw [deliveredBodies_concat, announcedBodies_concat, hdelivered, hannounced, ← hb.bodies,
        add_comm (deliveredBodies k h), ← add_assoc, hmoves.bodies, add_right_comm]
    · refine hquiet (by simp [answersOf, hk]) ?_
      exact step_phases_other fun heq => hk ((answering_handler M e).symm.trans heq)

/-- In every run whose fetches find the announced messages: what is delivered and what is waited
for is what was announced. -/
theorem balanced_run {es : List (MailEvent κ ν)}
    (hnew : Admits (fun pre e => FetchesNewest k item
      (final (mailStep rt accounts) (Mail.initial : Mail L κ ν) pre) e) es) :
    Balanced rt k item (final (mailStep rt accounts) (Mail.initial : Mail L κ ν) es)
      (history (mailStep rt accounts) (Mail.initial : Mail L κ ν) es) := by
  induction es using List.reverseRecOn with
  | nil => exact ⟨rfl, fun _ _ _ _ h => by cases h⟩
  | append_singleton es e ih =>
    rw [final_concat, history_concat]
    exact (ih hnew.prefix).step hnew.last

/-! ### Distinct event ids -/

theorem evictOldest_subset (n : Nat) (lru : List (JsString × Int)) : evictOldest n lru ⊆ lru := by
  induction lru using evictOldest.induct n with
  | case1 =>
    rw [evictOldest]
    exact fun x hx => hx
  | case2 seen rest hfull =>
    rw [evictOldest, if_pos hfull, if_pos rfl]
    exact fun x hx => hx
  | case3 oldest seen rest hfull hne ih =>
    rw [evictOldest, if_pos hfull, if_neg hne]
    exact fun x hx => List.mem_cons_of_mem _ (List.mem_filter.mp (ih hx)).1
  | case4 oldest seen rest hroom =>
    rw [evictOldest, if_neg hroom]
    exact fun x hx => hx

/-- A recording adds no other event id. -/
theorem recordSeen_keys {lru lru' : List (JsString × Int)} {eventId id : JsString} {now : Int}
    (h : recordSeen lru eventId now = (lru', true)) (hid : id ∈ lru'.map Prod.fst) :
    id = eventId ∨ id ∈ lru.map Prod.fst := by
  unfold recordSeen at h
  split_ifs at h
  · cases (Prod.mk.inj h).2
  · obtain ⟨x, hx, rfl⟩ := List.mem_map.mp hid
    rw [← (Prod.mk.inj h).1] at hx
    have hmem := evictOldest_subset _ _ hx
    rw [mapSet_forget] at hmem
    rcases List.mem_append.mp hmem with hmem | hmem
    · exact .inr (List.mem_map_of_mem (List.mem_filter.mp hmem).1)
    · exact .inl (congrArg Prod.fst (List.mem_singleton.mp hmem))

/-- An event id that is not in the map is recorded. -/
theorem recordSeen_new {lru : List (JsString × Int)} {eventId : JsString} {now : Int}
    (h : eventId ∉ lru.map Prod.fst) : (recordSeen lru eventId now).2 = true := by
  have hnone : lru.lookup eventId = none := by
    rw [← Option.not_isSome_iff_eq_none, Json.lookup_isSome_iff]
    exact h
  unfold recordSeen
  rw [hnone]
  rfl

/-- An event that passes every check before the map. -/
structure Passes (rt : Runtime ν) (accounts : κ → Account) (M : Mail L κ ν) (k : κ) (slot : Nat)
    (req : Request ν) (eventId event : JsString) (envelope : JsValue ν) : Prop where
  waits : (M.process.phases k)[slot]? = some .body
  checked : checkRequest rt (accounts k) { req with method := js "POST", pipelineOk := true } =
    .ok (event, envelope)
  allowed : ((getRateLimiter M.process.modul (accounts k)).check
    (req.remoteAddress.getD (js "unknown")) req.limitedAt).2 = true
  carries : eventIdOf rt event envelope = some eventId

/-- Such an event with a new event id is acknowledged. -/
theorem Passes.acknowledged {M : Mail L κ ν} {slot : Nat} {req : Request ν}
    {eventId event : JsString} {envelope : JsValue ν}
    (h : Passes rt accounts M k slot req eventId event envelope)
    (hnew : eventId ∉ M.process.modul.idempotencyLru.map Prod.fst) :
    (mailStep rt accounts M (.happens (.bodyRead k slot req))).2 =
      .responds (.fresh eventId event envelope) := by
  have haccept : (accept rt (accounts k) M.process.modul
      { req with method := js "POST", pipelineOk := true }).2 = .fresh eventId event envelope := by
    unfold accept
    rw [h.checked]
    dsimp only
    rw [h.allowed, if_neg (by simp), h.carries]
    dsimp only
    rw [recordSeen_new hnew, if_pos rfl]
  dsimp only [mailStep, Mail.answering, step]
  rw [h.waits]
  dsimp only [readsBody]
  rw [haccept]
  dsimp only
  split_ifs <;> rfl

/-- The events whose bodies a run has read carry the event ids of the map. -/
def Carried (rt : Runtime ν) (es : List (MailEvent κ ν)) (M : Mail L κ ν) : Prop :=
  ∀ id ∈ M.process.modul.idempotencyLru.map Prod.fst, ∃ k slot req,
    .happens (.bodyRead k slot req) ∈ es ∧ requestId rt req = some id

theorem Carried.step {es : List (MailEvent κ ν)} {M : Mail L κ ν} (h : Carried rt es M)
    (e : MailEvent κ ν) : Carried rt (es ++ [e]) (mailStep rt accounts M e).1 := by
  have hkept : ∀ id, id ∈ M.process.modul.idempotencyLru.map Prod.fst → ∃ k slot req,
      .happens (.bodyRead k slot req) ∈ es ++ [e] ∧ requestId rt req = some id := by
    intro id hid
    obtain ⟨k, slot, req, hmem, hreq⟩ := h id hid
    exact ⟨k, slot, req, List.mem_append_left _ hmem, hreq⟩
  intro id hid
  cases e with
  | posted k contactId item => exact hkept id hid
  | happens e =>
    rcases step_recorded M.process (M.answering e) with
      ⟨-, hlru⟩ | ⟨slot, req, eventId, he, hreq, -, hseen⟩
    · exact hkept id (hlru ▸ hid)
    · rcases recordSeen_keys hseen hid with rfl | hold
      · refine ⟨(M.answering e).handler, slot, req,
          List.mem_append_right _ (List.mem_singleton.mpr ?_), hreq⟩
        cases e with
        | bodyRead k' slot' req' => exact congrArg _ he.symm
        | arrives k' method => cases he
        | deliverSettled k' slot' => cases he
        | inboxAnswered k' slot' answer now =>
          dsimp only [Mail.answering] at he
          split at he <;> cases he
      · exact hkept id hold

theorem carried_run (es : List (MailEvent κ ν)) :
    Carried rt es (final (mailStep rt accounts) (Mail.initial : Mail L κ ν) es) := by
  induction es using List.reverseRecOn with
  | nil => exact fun id hid => by cases hid
  | append_singleton es e ih =>
    rw [final_concat]
    exact ih.step e

/-- No earlier request carries the event id of the next one. -/
def CarriesNew (rt : Runtime ν) (pre : List (MailEvent κ ν)) (e : MailEvent κ ν) : Prop :=
  ∀ k slot req eventId, e = .happens (.bodyRead k slot req) → requestId rt req = some eventId →
    ∀ k' slot' req', .happens (.bodyRead k' slot' req') ∈ pre → requestId rt req' ≠ some eventId

omit [DecidableEq κ] in
theorem Passes.requestId {M : Mail L κ ν} {slot : Nat} {req : Request ν}
    {eventId event : JsString} {envelope : JsValue ν}
    (h : Passes rt accounts M k slot req eventId event envelope) :
    requestId rt req = some eventId := by
  have hcheck := yields_checkRequest rt (accounts k)
    { req with method := js "POST", pipelineOk := true }
  rw [h.checked] at hcheck
  obtain ⟨body, hbody, henv⟩ := hcheck
  have hid : bodyEventId rt body = some eventId := by
    rw [bodyEventId, henv]
    exact h.carries
  rw [Webhook.requestId, hbody]
  exact hid

/-- In every run, whatever the order of messages, events and fetches, in which event ids are
distinct and each fetch finds the announced message to be the newest of its contact: every event
that passes the checks is acknowledged, and when no request waits any more, the bodies handed to
`deliver` are those of the messages that the acknowledged events announce. -/
theorem delivers_announced {es : List (MailEvent κ ν)} (hids : Admits (CarriesNew rt) es)
    (hnew : Admits (fun pre e => FetchesNewest k item
      (final (mailStep rt accounts) (Mail.initial : Mail L κ ν) pre) e) es) :
    (∀ pre slot req post eventId event envelope,
      es = pre ++ .happens (.bodyRead k slot req) :: post →
      Passes rt accounts (final (mailStep rt accounts) (Mail.initial : Mail L κ ν) pre) k slot req
        eventId event envelope →
      (mailStep rt accounts (final (mailStep rt accounts) (Mail.initial : Mail L κ ν) pre)
        (.happens (.bodyRead k slot req))).2 = .responds (.fresh eventId event envelope)) ∧
    ((∀ phase ∈ (final (mailStep rt accounts) (Mail.initial : Mail L κ ν) es).process.phases k,
        awaited phase = none) →
      deliveredBodies k (history (mailStep rt accounts) (Mail.initial : Mail L κ ν) es) =
        announcedBodies k (bodyOf rt ∘ item)
          (history (mailStep rt accounts) (Mail.initial : Mail L κ ν) es)) := by
  constructor
  · intro pre slot req post eventId event envelope hes hpasses
    refine hpasses.acknowledged fun hold => ?_
    obtain ⟨k', slot', req', hmem, hreq⟩ := carried_run pre eventId hold
    exact hids pre _ post hes k slot req eventId rfl hpasses.requestId k' slot' req' hmem hreq
  · intro hdone
    have hnone : waiting (bodyOf rt ∘ item)
        ((final (mailStep rt accounts) (Mail.initial : Mail L κ ν) es).process.phases k) = 0 := by
      rw [waiting, Multiset.coe_eq_zero, List.filterMap_eq_nil_iff]
      intro phase hphase
      rw [hdone phase hphase]
      rfl
    have hbalance := (balanced_run hnew).bodies
    rwa [hnone, zero_add] at hbalance

end

/-! ## Two messages of one contact -/

/-- The body of the first or the second event. -/
def burstBody (second : Bool) : JsString :=
  js "\x7b\"shadownet:v\":\"0.1\",\"event\":\"inbox.message\",\"event_id\":\"e" ++
    js (if second then "2" else "1") ++ js "\",\"occurredAt\":100,\"data\":\x7b\"intentId\":\"i" ++
    js (if second then "2" else "1") ++ js "\",\"contactId\":\"c1\"\x7d\x7d"

def burstEnvelope (second : Bool) : JsValue Int :=
  .obj [(js "shadownet:v", .str (js "0.1")), (js "event", .str (js "inbox.message")),
    (js "event_id", .str (js (if second then "e2" else "e1"))), (js "occurredAt", .num 100),
    (js "data", .obj [(js "intentId", .str (js (if second then "i2" else "i1"))),
      (js "contactId", .str (js "c1"))])]

/-- The HMAC-SHA-256 of the bodies under `s3cret`. -/
def burstSignature (second : Bool) : JsString :=
  if second then js "d068ca70dbb0848e364a628f4d6a30385e76b38e8bf076ef533916a4e495338f"
  else js "96e3c0aec611352fd34ab28f853380ed449995881b3891c03a65563b37ef5224"

def burstRuntime : Runtime Int where
  hmacSha256Hex _ body := burstSignature (body == bufferFrom (burstBody true))
  jsonParse s :=
    if s = burstBody false then some (burstEnvelope false)
    else if s = burstBody true then some (burstEnvelope true) else none
  jsonStringify _ := js "\x7b\x7d"
  numberToString n := js (toString n)
  ofInt := id

def burstRequest (second : Bool) : Request Int where
  method := js "POST"
  remoteAddress := some (js "203.0.113.7")
  signature := .single (burstSignature second)
  timestamp := .single (js "100")
  pipelineOk := true
  body := .ok (burstBody second)
  checkedAt := 100000
  limitedAt := 100000
  recordedAt := 100000
  fetchedAt := 100000
  inbox := .answered none

/-- The message of an event: `first` or `second`. -/
def burstItem (eventId : JsString) : Item Int :=
  [(js "payload", .obj [(js "text", .str (js (if eventId = js "e2" then "second" else "first")))])]

/-- An in-flight limiter that is never full. -/
def openLimiter : InFlightLimiter := ⟨Unit, (), fun _ s => (true, s), fun _ s => s⟩

def burstAccounts (_ : Unit) : Account := ⟨js "default", js "s3cret", 60⟩

abbrev burstStep : Mail openLimiter Unit Int → MailEvent Unit Int →
    Mail openLimiter Unit Int × Answer Int :=
  mailStep burstRuntime burstAccounts

/-- A message comes, and its event is read; the fetch is answered later. -/
def burstAnnounced (second : Bool) : List (MailEvent Unit Int) :=
  [.posted () (js "c1") (burstItem (js (if second then "e2" else "e1"))),
    .happens (.arrives () (js "POST")),
    .happens (.bodyRead () (if second then 1 else 0) (burstRequest second))]

def burstFetched (second : Bool) : List (MailEvent Unit Int) :=
  [.happens (.inboxAnswered () (if second then 1 else 0) .threw 100000)]

/-- Both messages come before the first fetch is answered. -/
def burst : List (MailEvent Unit Int) :=
  burstAnnounced false ++ burstAnnounced true ++ burstFetched false ++ burstFetched true

/-- The second message comes after the first was fetched. -/
def unhurried : List (MailEvent Unit Int) :=
  burstAnnounced false ++ burstFetched false ++ (burstAnnounced true ++ burstFetched true)

/-- In a burst the second message is delivered for both events and the first for none. -/
theorem burst_skips :
    deliveredBodies () (history burstStep Mail.initial burst) =
      [js "second", js "second"] ∧
    announcedBodies () (bodyOf burstRuntime ∘ burstItem) (history burstStep Mail.initial burst) =
      [js "first", js "second"] ∧
    deliveredBodies () (history burstStep Mail.initial burst) ≠
      announcedBodies () (bodyOf burstRuntime ∘ burstItem)
        (history burstStep Mail.initial burst) := by
  decide +kernel

/-- Whether the message of a waiting request is the newest of its contact. -/
def newestWaits (M : Mail openLimiter Unit Int) (slot : Nat) : Bool :=
  match (M.process.phases ())[slot]? with
  | some (.inbox _ eventId _ envelope) =>
    decide ((M.inbox () (contactOf envelope)).head? = some (burstItem eventId))
  | _ => true

/-- The requests of a run carry new event ids, and its fetches find the announced messages. -/
def Orderly (pre : List (MailEvent Unit Int)) (e : MailEvent Unit Int) : Prop :=
  CarriesNew burstRuntime pre e ∧
    FetchesNewest () burstItem (final burstStep Mail.initial pre) e

theorem orderly_posted (pre : List (MailEvent Unit Int)) (item : Item Int) :
    Orderly pre (.posted () (js "c1") item) :=
  ⟨fun _ _ _ _ h => by (cases h), fun _ _ _ _ _ _ _ h => by (cases h)⟩

theorem orderly_arrives (pre : List (MailEvent Unit Int)) :
    Orderly pre (.happens (.arrives () (js "POST"))) :=
  ⟨fun _ _ _ _ h => by (cases h), fun _ _ _ _ _ _ _ h => by (cases h)⟩

theorem orderly_bodyRead {pre : List (MailEvent Unit Int)} {slot : Nat} {req : Request Int}
    (h : ∀ k slot' req', .happens (.bodyRead k slot' req') ∈ pre →
      requestId burstRuntime req' ≠ requestId burstRuntime req) :
    Orderly pre (.happens (.bodyRead () slot req)) := by
  refine ⟨?_, fun _ _ _ _ _ _ _ h => by (cases h)⟩
  intro k slot req eventId he hid k' slot' req' hmem
  cases he
  rw [← hid]
  exact h k' slot' req' hmem

theorem orderly_fetched {pre : List (MailEvent Unit Int)} {slot : Nat}
    (h : newestWaits (final burstStep Mail.initial pre) slot = true) :
    Orderly pre (.happens (.inboxAnswered () slot .threw 100000)) := by
  refine ⟨fun _ _ _ _ h => by (cases h), ?_⟩
  intro slot answer now req eventId event envelope he hphase
  cases he
  rw [newestWaits, hphase] at h
  exact of_decide_eq_true h

theorem unhurried_orderly : Admits Orderly unhurried := by
  have hnil : Admits Orderly [] := by
    intro pre e post h
    simp at h
  have hids : requestId burstRuntime (burstRequest false) ≠
      requestId burstRuntime (burstRequest true) := by decide +kernel
  have hfirst : Admits Orderly (burstAnnounced false ++ burstFetched false) := by
    refine (((hnil.concat (orderly_posted _ _)).concat (orderly_arrives _)).concat
      (orderly_bodyRead ?_)).concat (orderly_fetched (by decide +kernel))
    intro k slot req hmem
    simp at hmem
  have hsecond := ((hfirst.concat (orderly_posted _ (burstItem (js "e2")))).concat
    (orderly_arrives _)).concat (e := .happens (.bodyRead () 1 (burstRequest true)))
    (orderly_bodyRead fun k slot req hmem => by
      obtain ⟨-, rfl⟩ : slot = 0 ∧ req = burstRequest false := by
        simpa [burstAnnounced, burstFetched] using hmem
      exact hids)
  exact hsecond.concat (orderly_fetched (by decide +kernel))

/-- Without haste each message is delivered once. -/
theorem unhurried_delivers :
    deliveredBodies () (history burstStep Mail.initial unhurried) =
        announcedBodies () (bodyOf burstRuntime ∘ burstItem)
          (history burstStep Mail.initial unhurried) ∧
      deliveredBodies () (history burstStep Mail.initial unhurried) =
        [js "first", js "second"] := by
  have hids : Admits (CarriesNew burstRuntime) unhurried :=
    fun pre e post h => (unhurried_orderly pre e post h).1
  have hnew : Admits (fun pre e => FetchesNewest () burstItem
      (final burstStep Mail.initial pre) e) unhurried :=
    fun pre e post h => (unhurried_orderly pre e post h).2
  have hdone : ((final burstStep Mail.initial unhurried).process.phases ()).all
      (fun phase => (awaited phase).isNone) = true := by decide +kernel
  have hover : ∀ phase ∈ (final burstStep Mail.initial unhurried).process.phases (),
      awaited phase = none := by
    intro phase hphase
    have hnone := List.all_eq_true.mp hdone phase hphase
    exact Option.isNone_iff_eq_none.mp hnone
  refine ⟨?_, by decide +kernel⟩
  unfold burstStep at hover hnew ⊢
  exact (delivers_announced hids hnew).2 hover

end Shadownet.Webhook
