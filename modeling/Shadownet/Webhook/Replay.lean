import Shadownet.Foundation.Trace
import Shadownet.Webhook.Handler

/-!
# Replayed webhook deliveries

The log of a run lists the events it recorded. `idempotencyLru` always holds the last ten
thousand of their ids (`logged_run`), so an id is known again as long as its last recording
is younger than a day and fewer than ten thousand others came after it
(`recordSeen_known`).

The signature covers the body and not the timestamp header. Whoever has a signed body can
thus send it with a new timestamp, and only the log stands against it: `delivered_once` says
that while it remembers each delivered body, no body is delivered twice, and
`delivered_again` that a day later the same body is delivered a second time.
-/

namespace Shadownet.Webhook

open Foundation JavaScript

/-! ## The de-duplication map -/

/-- The loop leaves the entries that were set last. -/
theorem evictOldest_eq (n : Nat) (lru : List (JsString × Int))
    (hids : ∀ e ∈ lru, e.1 ≠ []) (hn : (lru.map Prod.fst).Nodup) :
    evictOldest n lru = lru.rtake n := by
  induction lru with
  | nil => rw [evictOldest, List.rtake_nil]
  | cons e rest ih =>
    obtain ⟨oldest, seen⟩ := e
    rw [List.map_cons, List.nodup_cons] at hn
    rw [evictOldest]
    split_ifs with hroom hempty
    · exact absurd hempty (hids _ List.mem_cons_self)
    · rw [forget_of_not_mem hn.1, ih (fun e he => hids e (List.mem_cons_of_mem _ he)) hn.2,
        List.rtake, List.rtake, List.length_cons, Nat.succ_sub (by omega), List.drop_succ_cons]
    · rw [List.rtake, Nat.sub_eq_zero_of_le (by rw [List.length_cons]; omega), List.drop_zero]

theorem mapSet_forget (eventId : JsString) (now : Int) (lru : List (JsString × Int)) :
    mapSet eventId now (forget eventId lru) = forget eventId lru ++ [(eventId, now)] :=
  if_neg fun h => (mem_keys_forget.mp h).2 rfl

/-- `recordSeen` on the map of a log: an id that is known changes nothing, and another one
is recorded. -/
theorem recordSeen_recent {log : List (JsString × Int)} (hids : ∀ e ∈ log, e.1 ≠ [])
    {eventId : JsString} (hid : eventId ≠ []) (now : Int) :
    recordSeen (recent idempotencyMaxEntries log) eventId now =
      if ((recent idempotencyMaxEntries log).lookup eventId).any
          fun seen => decide (now - seen < idempotencyTtlMs) then
        (recent idempotencyMaxEntries log, false)
      else (recent idempotencyMaxEntries (log ++ [(eventId, now)]), true) := by
  unfold recordSeen
  refine ite_congr rfl (fun _ => rfl) fun _ => ?_
  have hentries : ∀ e ∈ forget eventId (recent idempotencyMaxEntries log) ++ [(eventId, now)],
      e.1 ≠ [] := by
    intro e he
    rcases List.mem_append.mp he with he | he
    · have hkey := List.mem_map_of_mem (f := Prod.fst) (List.mem_filter.mp he).1
      obtain ⟨e', he', heq⟩ := List.mem_map.mp (mem_keys_of_recent hkey)
      rw [← heq]
      exact hids e' he'
    · rw [List.mem_singleton.mp he]
      exact hid
  rw [mapSet_forget, evictOldest_eq _ _ hentries (nodup_forget_concat (nodup_recent _ log)),
    recent_concat (by decide)]

/-- An id is known again as long as its last recording is younger than a day and fewer than
ten thousand others were recorded after it. -/
theorem recordSeen_known {older newer : List (JsString × Int)} {eventId : JsString}
    {seen now : Int} (hnewer : eventId ∉ newer.map Prod.fst)
    (httl : now - seen < idempotencyTtlMs)
    (hroom : (newer.map Prod.fst).dedup.length < idempotencyMaxEntries) :
    recordSeen (recent idempotencyMaxEntries (older ++ (eventId, seen) :: newer)) eventId now =
      (recent idempotencyMaxEntries (older ++ (eventId, seen) :: newer), false) := by
  unfold recordSeen
  rw [lookup_recent hnewer, if_pos hroom, if_pos]
  exact decide_eq_true httl

/-! ## Calls of `recordSeen` -/

/-- One call: an id and the time. -/
def seenStep (lru : List (JsString × Int)) (call : JsString × Int) :
    List (JsString × Int) × Bool :=
  recordSeen lru call.1 call.2

/-- The calls that returned `true`. -/
def recordedCalls (h : List ((JsString × Int) × Bool)) : List (JsString × Int) :=
  (h.filter Prod.snd).map Prod.fst

theorem recordedCalls_append (h k : List ((JsString × Int) × Bool)) :
    recordedCalls (h ++ k) = recordedCalls h ++ recordedCalls k := by
  rw [recordedCalls, recordedCalls, recordedCalls, List.filter_append, List.map_append]

theorem mem_recordedCalls {h : List ((JsString × Int) × Bool)} {call : JsString × Int} :
    call ∈ recordedCalls h ↔ (call, true) ∈ h := by
  rw [recordedCalls, List.mem_map]
  constructor
  · rintro ⟨⟨call', _⟩, hy, rfl⟩
    obtain ⟨hy, rfl⟩ := List.mem_filter.mp hy
    exact hy
  · exact fun hcall => ⟨(call, true), List.mem_filter.mpr ⟨hcall, rfl⟩, rfl⟩

/-- The map of a run is that of its log. -/
theorem final_seenStep {calls : List (JsString × Int)} (hids : ∀ c ∈ calls, c.1 ≠ []) :
    final seenStep [] calls =
      recent idempotencyMaxEntries (recordedCalls (history seenStep [] calls)) := by
  have hrun : final seenStep [] calls =
        recent idempotencyMaxEntries (recordedCalls (history seenStep [] calls)) ∧
      ∀ e ∈ recordedCalls (history seenStep [] calls), e.1 ≠ [] := by
    refine history_induction (P := fun lru h =>
      lru = recent idempotencyMaxEntries (recordedCalls h) ∧ ∀ e ∈ recordedCalls h, e.1 ≠ [])
      ⟨?_, nofun⟩ ?_ (admits_of_forall hids)
    · rw [show recordedCalls [] = [] from rfl, recent_nil]
    rintro lru h ⟨id, now⟩ ⟨hlru, hlog⟩ hid
    have hstep : seenStep (recent idempotencyMaxEntries (recordedCalls h)) (id, now) = _ :=
      recordSeen_recent hlog hid now
    rw [hlru, hstep]
    split_ifs
    · rw [recordedCalls_append, show recordedCalls [((id, now), false)] = [] from rfl,
        List.append_nil]
      refine ⟨?_, hlog⟩
      dsimp only
    · rw [recordedCalls_append, show recordedCalls [((id, now), true)] = [(id, now)] from rfl]
      refine ⟨?_, fun e he => ?_⟩
      · dsimp only
      rcases List.mem_append.mp he with he | he
      · exact hlog e he
      · rw [List.mem_singleton.mp he]
        exact hid
  exact hrun.1

theorem length_recent_le (n : Nat) (log : List (JsString × Int)) : (recent n log).length ≤ n := by
  rw [recent, List.rtake, List.length_drop]
  omega

/-- A call that finds an id was preceded by one that recorded it. -/
theorem recordedCalls_of_known {log : List (JsString × Int)} {id : JsString} {now : Int}
    (h : (recordSeen (recent idempotencyMaxEntries log) id now).2 = false) :
    ∃ seen, (id, seen) ∈ log ∧ now - seen < idempotencyTtlMs := by
  unfold recordSeen at h
  split_ifs at h with hknown
  obtain ⟨seen, hseen, httl⟩ := (Option.any_eq_true _ _).mp hknown
  refine ⟨seen, ?_, of_decide_eq_true httl⟩
  have hkey : id ∈ log.map Prod.fst := by
    refine mem_keys_of_recent (n := idempotencyMaxEntries) ?_
    rw [← Json.lookup_isSome_iff, hseen]
    rfl
  obtain ⟨older, v, newer, rfl, hnewer⟩ := mem_last_split hkey
  rw [lookup_recent hnewer] at hseen
  split_ifs at hseen
  cases hseen
  exact List.mem_append_right _ List.mem_cons_self

/-- **The de-duplication map over a run**: it stays bounded, an id is turned away only within a
day of its recording, and it is turned away as long as the map still holds it. -/
theorem recordSeen_run (calls : List (JsString × Int)) (hids : ∀ c ∈ calls, c.1 ≠ []) :
    (∀ pre, pre <+: calls → (final seenStep [] pre).length ≤ idempotencyMaxEntries) ∧
    Admits (fun before x => x.2 = false → ∃ seen, ((x.1.1, seen), true) ∈ before ∧
      x.1.2 - seen < idempotencyTtlMs) (history seenStep [] calls) ∧
    Admits (fun before x => ∀ older seen newer, before = older ++ ((x.1.1, seen), true) :: newer →
      (∀ z ∈ newer, z.1.1 = x.1.1 → z.2 = false) → x.1.2 - seen < idempotencyTtlMs →
      (newer.filter fun z => z.2 && z.1.1 != x.1.1).length < idempotencyMaxEntries →
      x.2 = false) (history seenStep [] calls) := by
  refine ⟨?_, ?_, ?_⟩
  · rintro pre ⟨post, rfl⟩
    rw [final_seenStep fun c hc => hids c (List.mem_append_left _ hc)]
    exact length_recent_le _ _
  · intro before x after hsplit hfalse
    obtain ⟨pre, ⟨id, now⟩, post, rfl, rfl, rfl⟩ := history_eq_append_cons _ hsplit
    have hpre : ∀ c ∈ pre, c.1 ≠ [] := fun c hc => hids c (List.mem_append_left _ hc)
    have hfalse : (recordSeen (recent idempotencyMaxEntries
      (recordedCalls (history seenStep [] pre)))
        id now).2 = false := by
      rw [← final_seenStep hpre]
      exact hfalse
    obtain ⟨seen, hseen, httl⟩ := recordedCalls_of_known hfalse
    exact ⟨seen, mem_recordedCalls.mp hseen, httl⟩
  · intro before x after hsplit older seen newer hbefore hlast httl hroom
    obtain ⟨pre, ⟨id, now⟩, post, rfl, rfl, rfl⟩ := history_eq_append_cons _ hsplit
    have hpre : ∀ c ∈ pre, c.1 ≠ [] := fun c hc => hids c (List.mem_append_left _ hc)
    rw [seenStep, final_seenStep hpre, hbefore, recordedCalls_append]
    have hnewer : id ∉ (recordedCalls newer).map Prod.fst := by
      intro hin
      obtain ⟨call, hcall, rfl⟩ := List.mem_map.mp hin
      have hfalse := hlast _ (mem_recordedCalls.mp hcall) rfl
      cases hfalse
    have hcount : ((recordedCalls newer).map Prod.fst).dedup.length < idempotencyMaxEntries := by
      refine lt_of_le_of_lt ((List.dedup_sublist _).length_le) ?_
      rw [List.length_map, recordedCalls, List.length_map]
      refine lt_of_le_of_lt (le_of_eq ?_) hroom
      congr 1
      refine List.filter_congr fun z hz => ?_
      cases hz2 : z.2 with
      | false => rfl
      | true =>
        have hne : z.1.1 ≠ id := by
          intro heq
          rw [hlast z hz heq] at hz2
          cases hz2
        exact (bne_iff_ne.mpr hne).symm
    rw [show recordedCalls (((id, seen), true) :: newer) =
        (id, seen) :: recordedCalls newer from rfl,
      recordSeen_known hnewer httl hcount]

/-- A second delivery in a minute is turned away. -/
theorem recordSeen_run_minute :
    (history seenStep [] [(js "e1", 0), (js "e1", 60000)]).map Prod.snd = [true, false] ∧
      (final seenStep [] [(js "e1", 0), (js "e1", 60000)]).length ≤ idempotencyMaxEntries := by
  refine ⟨by decide +kernel, ?_⟩
  refine (recordSeen_run [(js "e1", 0), (js "e1", 60000)] ?_).1 _ (List.prefix_refl _)
  intro c hc
  rcases List.mem_pair.mp hc with rfl | rfl <;> exact (by decide : js "e1" ≠ [])

/-! ## What one request does -/

section
variable {ν : Type}

/-- The event was not recorded. -/
def NotFresh (a : Admission ν) : Prop := ∀ eventId event envelope, a ≠ .fresh eventId event envelope

theorem notFresh_responded (status : Nat) (body : JsValue ν) :
    NotFresh (.responded status body) := by
  intro _ _ _ h
  cases h

theorem notFresh_threw : NotFresh (.threw : Admission ν) := by
  intro _ _ _ h
  cases h

theorem notFresh_turnedAway : NotFresh (.turnedAway : Admission ν) := by
  intro _ _ _ h
  cases h

variable (rt : Runtime ν) (account : Account)

theorem yields_readBody (req : Request ν) :
    Yields (fun body => req.body = .ok body) NotFresh (readBody req) := by
  unfold readBody
  split
  · exact notFresh_responded _ _
  · exact notFresh_responded _ _
  · next body hbody => exact hbody

theorem yields_authenticate (req : Request ν) :
    Yields (fun body => req.body = .ok body) NotFresh (authenticate rt account req) := by
  unfold authenticate
  refine .guard (fun _ => notFresh_responded _ _) fun _ => ?_
  refine .guard (fun _ => notFresh_turnedAway) fun _ => ?_
  refine (yields_readBody req).bind fun body _ hbody => ?_
  split
  · exact notFresh_responded _ _
  · split
    · exact notFresh_threw
    · exact notFresh_responded _ _
    · exact hbody

theorem yields_checkTimestamp (req : Request ν) :
    Yields (fun _ => True) NotFresh (checkTimestamp req) := by
  unfold checkTimestamp
  split
  · exact notFresh_responded _ _
  · exact .guard (fun _ => notFresh_responded _ _) fun _ => trivial

theorem yields_readEnvelope (body : JsString) :
    Yields (fun _ => True) NotFresh (readEnvelope rt body) := by
  unfold readEnvelope
  split
  · exact notFresh_responded _ _
  · refine .guard (fun _ => notFresh_responded _ _) fun _ => ?_
    split
    · exact notFresh_responded _ _
    · split
      · exact trivial
      · exact notFresh_responded _ _

theorem yields_checkRequest (req : Request ν) :
    Yields (fun read => ∃ body, req.body = .ok body ∧ readEnvelope rt body = .ok read) NotFresh
      (checkRequest rt account req) := by
  unfold checkRequest
  refine (yields_authenticate rt account req).bind fun body _ hbody => ?_
  refine (yields_checkTimestamp req).bind fun _ _ _ => ?_
  exact (yields_readEnvelope rt body).mono (fun read hread _ => ⟨body, hbody, hread⟩) fun _ h => h

/-- The event id of a body, when it has one. -/
def bodyEventId (body : JsString) : Option JsString :=
  match readEnvelope rt body with
  | .ok (event, envelope) => eventIdOf rt event envelope
  | .error _ => none

theorem js_dash_ne_nil : js "-" ≠ [] := by decide

theorem eventIdOf_ne_nil {event eventId : JsString} {envelope : JsValue ν}
    (h : eventIdOf rt event envelope = some eventId) : eventId ≠ [] := by
  unfold eventIdOf at h
  split at h
  · next id hid =>
    obtain rfl : id = eventId := Option.some.inj h
    have hne := (Option.filter_eq_some_iff.mp hid).2
    rintro rfl
    cases hne
  · obtain ⟨occurred, -, rfl⟩ := Option.map_eq_some_iff.mp h
    intro hnil
    exact js_dash_ne_nil (List.append_eq_nil_iff.mp (List.append_eq_nil_iff.mp hnil).1).2

/-- A request records the event of its body, or it leaves the map as it is and delivers
nothing. -/
inductive Effect (m : ModuleState) (req : Request ν) : ModuleState × Served ν → Prop where
  | quiet {m' : ModuleState} {a : Admission ν} (ha : NotFresh a)
      (hm : m'.idempotencyLru = m.idempotencyLru) : Effect m req (m', ⟨a, none⟩)
  | recorded {m' : ModuleState} {body eventId event : JsString} {envelope : JsValue ν}
      {delivered : Option (InboundMessage ν)} (hbody : req.body = .ok body)
      (hid : bodyEventId rt body = some eventId)
      (hseen : recordSeen m.idempotencyLru eventId req.recordedAt = (m'.idempotencyLru, true)) :
      Effect m req (m', ⟨.fresh eventId event envelope, delivered⟩)

theorem recordSeen_false {lru lru' : List (JsString × Int)} {eventId : JsString} {now : Int}
    (h : recordSeen lru eventId now = (lru', false)) : lru' = lru := by
  unfold recordSeen at h
  split_ifs at h
  · exact (Prod.mk.inj h).1.symm
  · cases (Prod.mk.inj h).2

theorem handle_effect (m : ModuleState) (req : Request ν) :
    Effect rt m req (handle rt account m req) := by
  have hcheck := yields_checkRequest rt account req
  unfold handle accept
  cases hread : checkRequest rt account req with
  | error ended =>
    rw [hread] at hcheck
    cases ended with
    | fresh eventId event envelope => exact absurd rfl (hcheck eventId event envelope)
    | turnedAway => exact .quiet notFresh_turnedAway rfl
    | responded status body => exact .quiet (notFresh_responded _ _) rfl
    | threw => exact .quiet notFresh_threw rfl
  | ok read =>
    obtain ⟨event, envelope⟩ := read
    rw [hread] at hcheck
    obtain ⟨body, hbody, henv⟩ := hcheck
    cases hallowed : ((getRateLimiter m account).check
        (req.remoteAddress.getD (js "unknown")) req.limitedAt).2 with
    | false =>
      simp only [hallowed, if_true]
      exact .quiet (notFresh_responded _ _) rfl
    | true =>
      simp only [hallowed, Bool.true_eq_false, if_false]
      cases hid : eventIdOf rt event envelope with
      | none => exact .quiet notFresh_threw rfl
      | some eventId =>
        obtain ⟨lru, isFresh, hseen⟩ : ∃ lru isFresh,
            recordSeen m.idempotencyLru eventId req.recordedAt = (lru, isFresh) := ⟨_, _, rfl⟩
        simp only [hseen]
        have hbodyId : bodyEventId rt body = some eventId := by
          rw [bodyEventId, henv]
          exact hid
        cases isFresh with
        | true => exact .recorded hbody hbodyId hseen
        | false => exact .quiet (notFresh_responded _ _) (recordSeen_false hseen)

/-! ## Runs -/

/-- The events a run recorded, with the time of each recording. -/
def recordings (h : List (Request ν × Served ν)) : List (JsString × Int) :=
  h.filterMap fun x =>
    match x.2.admission with
    | .fresh eventId _ _ => some (eventId, x.1.recordedAt)
    | _ => none

theorem recordings_concat_quiet (h : List (Request ν × Served ν)) (req : Request ν)
    {a : Admission ν} (ha : NotFresh a) (d : Option (InboundMessage ν)) :
    recordings (h ++ [(req, ⟨a, d⟩)]) = recordings h := by
  rw [recordings, List.filterMap_append]
  cases a with
  | fresh eventId event envelope => exact absurd rfl (ha eventId event envelope)
  | turnedAway => exact List.append_nil _
  | responded status body => exact List.append_nil _
  | threw => exact List.append_nil _

theorem recordings_concat_fresh (h : List (Request ν × Served ν)) (req : Request ν)
    (eventId event : JsString) (envelope : JsValue ν) (d : Option (InboundMessage ν)) :
    recordings (h ++ [(req, ⟨.fresh eventId event envelope, d⟩)]) =
      recordings h ++ [(eventId, req.recordedAt)] := List.filterMap_append

/-- The map holds the last recordings of the log, and each body that was delivered is in
the log. -/
structure Logged (m : ModuleState) (h : List (Request ν × Served ν)) : Prop where
  lru : m.idempotencyLru = recent idempotencyMaxEntries (recordings h)
  ids : ∀ e ∈ recordings h, e.1 ≠ []
  delivered : ∀ x ∈ h, x.2.delivered.isSome → ∃ body eventId, x.1.body = .ok body ∧
    bodyEventId rt body = some eventId ∧ eventId ∈ (recordings h).map Prod.fst

theorem bodyEventId_ne_nil {body eventId : JsString} (h : bodyEventId rt body = some eventId) :
    eventId ≠ [] := by
  unfold bodyEventId at h
  split at h
  · exact eventIdOf_ne_nil rt h
  · cases h

theorem Logged.step {m : ModuleState} {h : List (Request ν × Served ν)} (hl : Logged rt m h)
    (req : Request ν) :
    Logged rt (handle rt account m req).1 (h ++ [(req, (handle rt account m req).2)]) := by
  have heff := handle_effect rt account m req
  generalize handle rt account m req = r at heff
  cases heff with
  | quiet ha hm =>
    refine ⟨?_, ?_, ?_⟩
    · rw [recordings_concat_quiet h req ha, hm, hl.lru]
    · rw [recordings_concat_quiet h req ha]
      exact hl.ids
    · rw [recordings_concat_quiet h req ha]
      intro x hx hd
      rcases List.mem_append.mp hx with hx | hx
      · exact hl.delivered x hx hd
      · rw [List.mem_singleton.mp hx] at hd
        cases hd
  | recorded hbody hid hseen =>
    have hne := bodyEventId_ne_nil rt hid
    rw [hl.lru, recordSeen_recent hl.ids hne] at hseen
    split_ifs at hseen
    · cases (Prod.mk.inj hseen).2
    refine ⟨?_, ?_, ?_⟩ <;> rw [recordings_concat_fresh]
    · exact (Prod.mk.inj hseen).1.symm
    · intro e he
      rcases List.mem_append.mp he with he | he
      · exact hl.ids e he
      · rw [List.mem_singleton.mp he]
        exact hne
    · intro x hx hd
      rw [List.map_append]
      rcases List.mem_append.mp hx with hx | hx
      · obtain ⟨body', eventId', hb', hid', hmem⟩ := hl.delivered x hx hd
        exact ⟨body', eventId', hb', hid', List.mem_append_left _ hmem⟩
      · rw [List.mem_singleton.mp hx]
        exact ⟨_, _, hbody, hid, List.mem_append_right _ List.mem_cons_self⟩

/-- The requests of a run with what they were answered, from the loaded module on. -/
def served (reqs : List (Request ν)) : List (Request ν × Served ν) :=
  history (handle rt account) .initial reqs

theorem logged_run (reqs : List (Request ν)) :
    Logged rt (final (handle rt account) .initial reqs) (served rt account reqs) := by
  refine @history_induction _ _ _ _ (Logged rt) (fun _ _ => True) _ ?_
    (fun _ _ req h _ => h.step rt account req) _ fun _ _ _ _ => trivial
  exact ⟨(recent_nil _).symm, by simp [recordings], by simp⟩

/-- What the requests of a body handed to `deliver`. -/
def deliveries (h : List (Request ν × Served ν)) (body : JsString) : List (InboundMessage ν) :=
  h.filterMap fun x => if x.1.body.toOption = some body then x.2.delivered else none

/-- When a body that was delivered comes again, its event id is still remembered: its last
recording is younger than a day, and fewer than ten thousand other ids were recorded since. -/
def Remembered (before : List (Request ν)) (req : Request ν) : Prop :=
  ∀ body eventId, req.body = .ok body → bodyEventId rt body = some eventId →
    deliveries (served rt account before) body ≠ [] →
    ∀ older seen newer, recordings (served rt account before) = older ++ (eventId, seen) :: newer →
      eventId ∉ newer.map Prod.fst →
      req.recordedAt - seen < idempotencyTtlMs ∧
        (newer.map Prod.fst).dedup.length < idempotencyMaxEntries

/-- A body that was delivered and is still remembered is not delivered again. -/
theorem not_delivered_again {before : List (Request ν)} {req : Request ν}
    (hr : Remembered rt account before req) {body : JsString} (hbody : req.body = .ok body)
    (hd : deliveries (served rt account before) body ≠ []) :
    (handle rt account (final (handle rt account) .initial before) req).2.delivered = none := by
  have hl := logged_run rt account before
  obtain ⟨msg, hmsg⟩ := List.exists_mem_of_ne_nil _ hd
  obtain ⟨x, hx, hxd⟩ := List.mem_filterMap.mp hmsg
  split_ifs at hxd with hxbody
  obtain ⟨body', eventId, hb', hid, hmem⟩ := hl.delivered x hx (by rw [hxd]; rfl)
  obtain rfl : body' = body := by
    rw [hb'] at hxbody
    exact Option.some.inj hxbody
  obtain ⟨older, seen, newer, hlog, hnewer⟩ := mem_last_split hmem
  obtain ⟨httl, hroom⟩ := hr body' eventId hbody hid hd older seen newer hlog hnewer
  have heff := handle_effect rt account (final (handle rt account) .initial before) req
  generalize handle rt account (final (handle rt account) .initial before) req = r at heff
  cases heff with
  | quiet ha hm => rfl
  | recorded hbody' hid' hseen =>
    rw [hbody] at hbody'
    cases hbody'
    rw [hid] at hid'
    cases hid'
    rw [hl.lru, hlog, recordSeen_known hnewer httl hroom] at hseen
    cases (Prod.mk.inj hseen).2

/-- In every run in which each delivered body is still remembered when it comes again, no
body is handed to `deliver` twice. -/
theorem delivered_once (reqs : List (Request ν)) (hr : Admits (Remembered rt account) reqs)
    (body : JsString) : (deliveries (served rt account reqs) body).length ≤ 1 := by
  induction reqs using List.reverseRecOn with
  | nil => exact Nat.zero_le _
  | append_singleton before req ih =>
    have hbefore := ih hr.prefix
    rw [served, history_concat, ← served, deliveries, List.filterMap_append, ← deliveries,
      List.length_append]
    by_cases hbody : req.body.toOption = some body
    · by_cases hd : deliveries (served rt account before) body = []
      · rw [hd, List.length_nil, Nat.zero_add]
        exact List.length_filterMap_le _ _
      · have hok : req.body = .ok body := by
          cases hb : req.body with
          | error e =>
            rw [hb] at hbody
            cases hbody
          | ok b =>
            rw [hb] at hbody
            rw [Option.some.inj hbody]
        have hnone := not_delivered_again rt account hr.last hok hd
        simpa [hnone] using hbefore
    · simpa [hbody] using hbefore

end

/-! ## A body that is sent again a day later -/

/-- A signed body as the sidecar sends it. -/
def sampleBody : JsString :=
  js "\x7b\"shadownet:v\":\"0.1\",\"event\":\"inbox.message\",\"event_id\":\"e1\"," ++
  js "\"occurredAt\":100,\"data\":\x7b\"intentId\":\"i1\",\"contactId\":\"c1\"\x7d\x7d"

/-- What it says. -/
def sampleEnvelope : JsValue Int :=
  .obj [(js "shadownet:v", .str (js "0.1")), (js "event", .str (js "inbox.message")),
    (js "event_id", .str (js "e1")), (js "occurredAt", .num 100),
    (js "data", .obj [(js "intentId", .str (js "i1")), (js "contactId", .str (js "c1"))])]

/-- The HMAC-SHA-256 of the body under `s3cret`. -/
def sampleSignature : JsString :=
  js "96e3c0aec611352fd34ab28f853380ed449995881b3891c03a65563b37ef5224"

def sampleRuntime : Runtime Int where
  hmacSha256Hex _ _ := sampleSignature
  jsonParse s := if s = sampleBody then some sampleEnvelope else none
  jsonStringify _ := js "\x7b\x7d"
  numberToString _ := js "100"
  ofInt := id

def sampleAccount : Account := ⟨js "default", js "s3cret", 60⟩

/-- The body, sent at a time with a timestamp of that time. -/
def sampleRequest (seconds : Int) (timestamp : String) : Request Int where
  method := js "POST"
  remoteAddress := some (js "203.0.113.7")
  signature := .single sampleSignature
  timestamp := .single (js timestamp)
  pipelineOk := true
  body := .ok sampleBody
  checkedAt := seconds * 1000
  limitedAt := seconds * 1000
  recordedAt := seconds * 1000
  fetchedAt := seconds * 1000
  inbox := .answered (some [[(js "payload", .obj [(js "text", .str (js "hi"))])]])

/-- A day and one window after the first delivery the log has forgotten the event: the body
with its signature is delivered again under a new timestamp. -/
theorem delivered_again :
    (deliveries (served sampleRuntime sampleAccount
      [sampleRequest 100 "100", sampleRequest 86500 "86500"]) sampleBody).length = 2 := by
  decide +kernel

theorem sample_recorded :
    recordings (served sampleRuntime sampleAccount [sampleRequest 100 "100"]) =
      [(js "e1", 100000)] := by
  decide +kernel

theorem sample_remembered :
    Admits (Remembered sampleRuntime sampleAccount)
      [sampleRequest 100 "100", sampleRequest 3700 "3700"] := by
  have hnil : Admits (Remembered sampleRuntime sampleAccount) [] := by
    intro before req after h
    simp at h
  have hfirst : Remembered sampleRuntime sampleAccount [] (sampleRequest 100 "100") := by
    intro body eventId _ _ hd
    exact absurd rfl hd
  refine (hnil.concat hfirst).concat (e := sampleRequest 3700 "3700") ?_
  intro body eventId _ _ _ older seen newer hlog _
  rw [List.nil_append, sample_recorded] at hlog
  cases older with
  | cons e older => simp at hlog
  | nil =>
    rw [List.nil_append, List.cons.injEq] at hlog
    obtain ⟨hlast, rfl⟩ := hlog
    rw [← (Prod.mk.inj hlast).2]
    decide

theorem delivered_once_hour :
    (deliveries (served sampleRuntime sampleAccount
      [sampleRequest 100 "100", sampleRequest 3700 "3700"]) sampleBody).length ≤ 1 :=
  delivered_once sampleRuntime sampleAccount _ sample_remembered sampleBody

end Shadownet.Webhook
