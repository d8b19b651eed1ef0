import Mathlib.Data.List.Pairwise
import Mathlib.Data.Rat.Defs
import Mathlib.Algebra.Order.Ring.Rat
import Mathlib.Tactic.Linarith
import Shadownet.Foundation.Trace
import Shadownet.Foundation.Unicode

/-!
# The send cooldown of the Hermes plugin

`ShadownetAdapter.send` of `_adapter.py`. A second message to a chat within the cooldown is
dropped and reported as sent. The time of a message is written down before it is sent, and stays
there when sending raises.

* `suppression_sound_iff`: the runs in which a message is dropped only after one that was sent.
* `history_send_eq`: dropping old entries changes no answer.
-/

namespace Shadownet.Hermes

open Foundation

/-! ## `send` -/

/-- One call of `send`: the two readings of the clock, and whether `client.send` returns. -/
structure Call where
  chatId : Text
  content : Text
  now : ℚ
  evictNow : ℚ
  returns : Bool
  deriving DecidableEq

/-- `suppressed` and `sent` are both reported as a success. -/
inductive Outcome where
  | suppressed
  | sent
  | raised
  deriving DecidableEq

/-- `_send_timestamps`. -/
abbrev Timestamps := Text → Option ℚ

/-- `_evict_stale_timestamps`. -/
def evictStaleTimestamps (timestamps : Timestamps) (now maxAge : ℚ) : Timestamps :=
  fun chatId => (timestamps chatId).filter fun v => decide (¬ maxAge < now - v)

/-- `send` without its eviction. -/
def sendKeeping (cooldown : ℤ) (timestamps : Timestamps) (call : Call) : Timestamps × Outcome :=
  let last := (timestamps call.chatId).getD 0
  if call.now - last < cooldown then (timestamps, .suppressed)
  else (Function.update timestamps call.chatId (some call.now),
    if call.returns then .sent else .raised)

/-- `ShadownetAdapter.send`. -/
def send (cooldown : ℤ) (timestamps : Timestamps) (call : Call) : Timestamps × Outcome :=
  let last := (timestamps call.chatId).getD 0
  if call.now - last < cooldown then (timestamps, .suppressed)
  else
    let timestamps := Function.update timestamps call.chatId (some call.now)
    (evictStaleTimestamps timestamps call.evictNow (cooldown * 2),
      if call.returns then .sent else .raised)

/-- The calls in turn, each with its outcome, from `__init__` on. -/
def sends (cooldown : ℤ) (calls : List Call) : List (Call × Outcome) :=
  history (send cooldown) (fun _ => none) calls

/-- The clock does not go back. -/
def Clocked (calls : List Call) : Prop :=
  (∀ call ∈ calls, call.now ≤ call.evictNow) ∧
    calls.Pairwise fun earlier later => earlier.evictNow ≤ later.now

/-! ## Steps -/

section
variable {cooldown : ℤ} {timestamps : Timestamps} {call : Call}

/-- What a call does. -/
theorem send_cases (cooldown : ℤ) (timestamps : Timestamps) (call : Call) :
    (call.now - (timestamps call.chatId).getD 0 < cooldown ∧
      send cooldown timestamps call = (timestamps, .suppressed)) ∨
    ((cooldown : ℚ) ≤ call.now - (timestamps call.chatId).getD 0 ∧
      (send cooldown timestamps call).2 ≠ .suppressed ∧
      (send cooldown timestamps call).1 = evictStaleTimestamps
        (Function.update timestamps call.chatId (some call.now)) call.evictNow (cooldown * 2)) := by
  by_cases h : call.now - (timestamps call.chatId).getD 0 < cooldown
  · exact .inl ⟨h, if_pos h⟩
  · have hsend : send cooldown timestamps call = _ := if_neg h
    refine .inr ⟨not_lt.mp h, ?_, by rw [hsend]⟩
    rw [hsend]
    cases call.returns <;> exact nofun

theorem evict_eq_some {now maxAge v : ℚ} {chatId : Text} :
    evictStaleTimestamps timestamps now maxAge chatId = some v ↔
      timestamps chatId = some v ∧ now - v ≤ maxAge := by
  rw [evictStaleTimestamps, Option.filter_eq_some_iff, decide_eq_true_eq, not_lt]

end

/-! ## What the timestamps remember -/

/-- The timestamps after the calls of a history: each is that of a call that was made, and calls
to one chat that were made are at least the cooldown apart. A call whose timestamp is gone is more
than two cooldowns before `time`. -/
structure Recorded (cooldown : ℤ) (time : ℚ) (timestamps : Timestamps)
    (past : List (Call × Outcome)) : Prop where
  made : ∀ {chatId v}, timestamps chatId = some v →
    ∃ y ∈ past, y.1.chatId = chatId ∧ y.1.now = v ∧ y.2 ≠ .suppressed
  kept : ∀ y ∈ past, y.2 ≠ .suppressed →
    (∃ v, timestamps y.1.chatId = some v ∧ y.1.now ≤ v) ∨ 2 * (cooldown : ℚ) < time - y.1.now
  late : ∀ y ∈ past, y.2 ≠ .suppressed → (cooldown : ℚ) ≤ y.1.now
  apart : past.Pairwise fun x y => x.1.chatId = y.1.chatId → x.2 ≠ .suppressed →
    y.2 ≠ .suppressed → (cooldown : ℚ) ≤ y.1.now - x.1.now

namespace Recorded

variable {cooldown : ℤ} {time : ℚ} {timestamps : Timestamps} {past : List (Call × Outcome)}
  {call : Call}

theorem later {time' : ℚ} (h : Recorded cooldown time timestamps past) (ht : time ≤ time') :
    Recorded cooldown time' timestamps past where
  made := h.made
  kept y hy hmade := (h.kept y hy hmade).imp_right fun hold => by linarith
  late := h.late
  apart := h.apart

/-- A call that is not made leaves everything as it is. -/
theorem suppressed (h : Recorded cooldown time timestamps past) :
    Recorded cooldown time timestamps (past ++ [(call, .suppressed)]) := by
  have hlast : ∀ {y : Call × Outcome}, y ∈ past ++ [(call, .suppressed)] → y.2 ≠ .suppressed →
      y ∈ past := by
    intro y hy hne
    rcases List.mem_append.mp hy with hy | hy
    · exact hy
    · rw [List.mem_singleton.mp hy] at hne
      exact absurd rfl hne
  refine ⟨fun hv => ?_, fun y hy hne => h.kept y (hlast hy hne) hne,
    fun y hy hne => h.late y (hlast hy hne) hne, ?_⟩
  · obtain ⟨y, hy, hmade⟩ := h.made hv
    exact ⟨y, List.mem_append_left _ hy, hmade⟩
  · refine List.pairwise_append.mpr ⟨h.apart, List.pairwise_singleton _ _, ?_⟩
    intro x _ y hy _ _ hne
    rw [List.mem_singleton.mp hy] at hne
    exact absurd rfl hne

/-- The timestamp a call finds is its chat's latest, so the calls to the chat that were made are
at least the cooldown ago when it is. -/
theorem ago (hc : 0 ≤ cooldown) (h : Recorded cooldown time timestamps past)
    (htime : time ≤ call.now)
    (hmade : (cooldown : ℚ) ≤ call.now - (timestamps call.chatId).getD 0) :
    ∀ y ∈ past, y.1.chatId = call.chatId → y.2 ≠ .suppressed →
      (cooldown : ℚ) ≤ call.now - y.1.now := by
  intro y hy hchat hne
  have hc' : (0 : ℚ) ≤ cooldown := by exact_mod_cast hc
  rcases h.kept y hy hne with ⟨v, hv, hle⟩ | hold
  · rw [← hchat, hv, Option.getD_some] at hmade
    linarith
  · linarith

theorem step (hc : 0 ≤ cooldown) (h : Recorded cooldown time timestamps past)
    (htime : time ≤ call.now) (hnow : call.now ≤ call.evictNow) :
    Recorded cooldown call.evictNow (send cooldown timestamps call).1
      (past ++ [(call, (send cooldown timestamps call).2)]) := by
  have hc' : (0 : ℚ) ≤ cooldown := by exact_mod_cast hc
  rcases send_cases cooldown timestamps call with ⟨-, hsend⟩ | ⟨hmade, hout, hts⟩
  · rw [hsend]
    exact h.suppressed.later (by linarith)
  · have hago := h.ago hc htime hmade
    rw [hts]
    refine ⟨fun {chatId v} hv => ?_, fun y hy hne => ?_, fun y hy hne => ?_, ?_⟩
    · obtain ⟨hv, -⟩ := evict_eq_some.mp hv
      by_cases hchat : chatId = call.chatId
      · rw [hchat, Function.update_self, Option.some.injEq] at hv
        exact ⟨_, List.mem_append_right _ (List.mem_singleton_self _), hchat.symm, hv, hout⟩
      · rw [Function.update_of_ne hchat] at hv
        obtain ⟨y, hy, hrest⟩ := h.made hv
        exact ⟨y, List.mem_append_left _ hy, hrest⟩
    · -- the entry that stood for `y` stays, is replaced by a later one or is too old
      have hentry : ∀ v, Function.update timestamps call.chatId (some call.now) y.1.chatId =
          some v → y.1.now ≤ v → (∃ v, evictStaleTimestamps (Function.update timestamps
            call.chatId (some call.now)) call.evictNow (cooldown * 2) y.1.chatId = some v ∧
              y.1.now ≤ v) ∨ 2 * cooldown < call.evictNow - y.1.now := by
        intro v hv hle
        by_cases hstale : call.evictNow - v ≤ cooldown * 2
        · exact .inl ⟨v, evict_eq_some.mpr ⟨hv, hstale⟩, hle⟩
        · right
          linarith [not_le.mp hstale]
      rcases List.mem_append.mp hy with hy | hy
      · by_cases hchat : y.1.chatId = call.chatId
        · refine hentry call.now (by rw [hchat, Function.update_self]) ?_
          linarith [hago y hy hchat hne]
        · rcases h.kept y hy hne with ⟨v, hv, hle⟩ | hold
          · exact hentry v (by rwa [Function.update_of_ne hchat]) hle
          · right
            linarith
      · rw [List.mem_singleton.mp hy] at hentry ⊢
        exact hentry call.now (Function.update_self ..) le_rfl
    · rcases List.mem_append.mp hy with hy | hy
      · exact h.late y hy hne
      · rw [List.mem_singleton.mp hy]
        cases hlast : timestamps call.chatId with
        | none =>
          rw [hlast, Option.getD_none] at hmade
          linarith
        | some v =>
          obtain ⟨z, hz, -, hzv, hzne⟩ := h.made hlast
          rw [hlast, Option.getD_some] at hmade
          have hlate := h.late z hz hzne
          linarith
    · refine List.pairwise_append.mpr ⟨h.apart, List.pairwise_singleton _ _, ?_⟩
      intro x hx y hy hchat hxne _
      rw [List.mem_singleton.mp hy] at hchat ⊢
      exact hago x hx hchat hxne

end Recorded

/-! ## Runs -/

theorem Clocked.admits {calls : List Call} (h : Clocked calls) :
    Admits (fun pre call => (∀ d ∈ pre, d.evictNow ≤ call.now) ∧ call.now ≤ call.evictNow) calls :=
  (admits_of_pairwise h.2).and (admits_of_forall h.1)

theorem recorded_run {cooldown : ℤ} (hc : 0 ≤ cooldown) {calls : List Call}
    (hclock : Clocked calls) {time : ℚ} (htime : ∀ call ∈ calls, call.evictNow ≤ time) :
    Recorded cooldown time (final (send cooldown) (fun _ => none) calls)
      (sends cooldown calls) := by
  have hrun : ∀ time : ℚ, (∀ y ∈ sends cooldown calls, y.1.evictNow ≤ time) →
      Recorded cooldown time (final (send cooldown) (fun _ => none) calls)
        (sends cooldown calls) := by
    refine history_induction (P := fun timestamps past => ∀ time : ℚ,
      (∀ y ∈ past, y.1.evictNow ≤ time) → Recorded cooldown time timestamps past) ?_ ?_
      hclock.admits
    · exact fun time _ => ⟨nofun, nofun, nofun, List.Pairwise.nil⟩
    · intro timestamps past call ih hadmits time hle
      have hpast : ∀ y ∈ past, y.1.evictNow ≤ call.now := fun y hy =>
        hadmits.1 y.1 (List.mem_map_of_mem hy)
      have hcall := hle _ (List.mem_append_right _ (List.mem_singleton_self _))
      exact ((ih call.now hpast).step hc le_rfl hadmits.2).later hcall
  exact hrun time fun y hy => htime y.1 (mem_of_mem_history _ hy)

/-- A call is dropped only after one to the same chat, within the cooldown, that was sent. -/
def Sound (cooldown : ℤ) (past : List (Call × Outcome)) (x : Call × Outcome) : Prop :=
  x.2 = .suppressed → ∃ y ∈ past, y.1.chatId = x.1.chatId ∧ y.2 = .sent ∧
    x.1.now - y.1.now < cooldown

/-- The clock has passed the cooldown, and each call to the same chat that raised is at least the
cooldown ago. -/
def FarFromFailure (cooldown : ℤ) (past : List (Call × Outcome)) (x : Call × Outcome) : Prop :=
  (cooldown : ℚ) ≤ x.1.now ∧ ∀ y ∈ past, y.1.chatId = x.1.chatId → y.2 = .raised →
    (cooldown : ℚ) ≤ x.1.now - y.1.now

/-- Two calls to one chat that were made, within the cooldown of a third: the same call. -/
theorem Recorded.unique {cooldown : ℤ} {time : ℚ} {timestamps : Timestamps}
    {past : List (Call × Outcome)} (h : Recorded cooldown time timestamps past)
    {now : ℚ} {y z : Call × Outcome} (hy : y ∈ past) (hz : z ∈ past)
    (hle : ∀ w ∈ past, w.1.now ≤ now) (hchat : y.1.chatId = z.1.chatId)
    (hyne : y.2 ≠ .suppressed) (hzne : z.2 ≠ .suppressed) (hynear : now - y.1.now < cooldown)
    (hznear : now - z.1.now < cooldown) : y = z := by
  -- being that near to `now` is symmetric, so the order of the two does not matter
  let Apart : Call × Outcome → Call × Outcome → Prop := fun a b =>
    a.1.chatId = b.1.chatId → a.2 ≠ .suppressed → b.2 ≠ .suppressed →
      ¬ (now - a.1.now < cooldown ∧ now - b.1.now < cooldown)
  have hsymm : Std.Symm Apart :=
    ⟨fun a b hab hchat hb ha hnear => hab hchat.symm ha hb hnear.symm⟩
  have hpairs : past.Pairwise Apart := by
    refine h.apart.imp_of_mem ?_
    rintro a b - hb hab hchat hane hbne ⟨hnear, -⟩
    have hgap := hab hchat hane hbne
    have hb' := hle b hb
    linarith
  by_contra hne
  exact hpairs.forall hy hz hne hchat hyne hzne ⟨hynear, hznear⟩

/-- At one call the two conditions say the same. -/
theorem Recorded.sound_iff {cooldown : ℤ} (hc : 0 ≤ cooldown) {timestamps : Timestamps}
    {past : List (Call × Outcome)} {call : Call}
    (h : Recorded cooldown call.now timestamps past) (hle : ∀ y ∈ past, y.1.now ≤ call.now) :
    Sound cooldown past (call, (send cooldown timestamps call).2) ↔
      FarFromFailure cooldown past (call, (send cooldown timestamps call).2) := by
  have hc' : (0 : ℚ) ≤ cooldown := by exact_mod_cast hc
  constructor
  · intro hsound
    have hclock : (cooldown : ℚ) ≤ call.now := by
      by_contra hearly
      have hnone : timestamps call.chatId = none := by
        by_contra hsome
        obtain ⟨v, hv⟩ := Option.ne_none_iff_exists'.mp hsome
        obtain ⟨y, hy, -, -, hne⟩ := h.made hv
        exact hearly ((h.late y hy hne).trans (hle y hy))
      have hout : (send cooldown timestamps call).2 = .suppressed := by
        rcases send_cases cooldown timestamps call with ⟨-, hsend⟩ | ⟨hmade, -, -⟩
        · rw [hsend]
        · rw [hnone, Option.getD_none, sub_zero] at hmade
          exact absurd hmade hearly
      obtain ⟨y, hy, -, hsent, -⟩ := hsound hout
      exact hearly ((h.late y hy (by rw [hsent]; exact nofun)).trans (hle y hy))
    refine ⟨hclock, fun y hy hchat hraised => ?_⟩
    have hyne : y.2 ≠ .suppressed := by rw [hraised]; exact nofun
    rcases send_cases cooldown timestamps call with ⟨-, hsend⟩ | ⟨hmade, -, -⟩
    · by_contra hnear
      obtain ⟨z, hz, hzchat, hsent, hznear⟩ := hsound (by rw [hsend])
      have hzne : z.2 ≠ .suppressed := by rw [hsent]; exact nofun
      have hsame := h.unique hy hz hle (hchat.trans hzchat.symm) hyne hzne (not_le.mp hnear) hznear
      rw [hsame, hsent] at hraised
      cases hraised
    · exact h.ago hc le_rfl hmade y hy hchat hyne
  · rintro ⟨hclock, hfar⟩ hout
    rcases send_cases cooldown timestamps call with ⟨hnear, -⟩ | ⟨-, hne, -⟩
    · cases hlast : timestamps call.chatId with
      | none =>
        rw [hlast, Option.getD_none] at hnear
        exact absurd hclock (by dsimp only; linarith)
      | some v =>
        rw [hlast, Option.getD_some] at hnear
        obtain ⟨y, hy, hchat, rfl, hne⟩ := h.made hlast
        refine ⟨y, hy, hchat, ?_, hnear⟩
        cases hout' : y.2 with
        | suppressed => exact absurd hout' hne
        | sent => rfl
        | raised => exact absurd (hfar y hy hchat hout') (not_le.mpr hnear)
    · exact absurd hout hne

/-! ## Eviction -/

/-- The timestamps with and without eviction: those that are gone are more than two cooldowns
before `time`. -/
structure Evicted (cooldown : ℤ) (time : ℚ) (timestamps kept : Timestamps) : Prop where
  same : ∀ chatId, timestamps chatId = kept chatId ∨
    timestamps chatId = none ∧ ∃ v, kept chatId = some v ∧ 2 * (cooldown : ℚ) < time - v
  late : ∀ {chatId v}, kept chatId = some v → (cooldown : ℚ) ≤ v

theorem Evicted.later {cooldown : ℤ} {time time' : ℚ} {timestamps kept : Timestamps}
    (h : Evicted cooldown time timestamps kept) (ht : time ≤ time') :
    Evicted cooldown time' timestamps kept where
  same chatId := (h.same chatId).imp_right fun ⟨hnone, v, hv, hold⟩ => ⟨hnone, v, hv, by linarith⟩
  late := h.late

theorem Evicted.evict {cooldown : ℤ} {time : ℚ} {timestamps kept : Timestamps}
    (h : Evicted cooldown time timestamps kept) :
    Evicted cooldown time (evictStaleTimestamps timestamps time (cooldown * 2)) kept where
  same chatId := by
    rcases h.same chatId with heq | ⟨hnone, hgone⟩
    · cases hv : kept chatId with
      | none =>
        left
        rw [evictStaleTimestamps, heq, hv]
        rfl
      | some v =>
        by_cases hstale : time - v ≤ cooldown * 2
        · exact .inl (evict_eq_some.mpr ⟨heq.trans hv, hstale⟩)
        · refine .inr ⟨?_, v, rfl, by linarith [not_le.mp hstale]⟩
          rw [evictStaleTimestamps, heq, hv, Option.filter_some, if_neg]
          rw [decide_eq_true_eq, not_not]
          exact not_le.mp hstale
    · right
      refine ⟨?_, hgone⟩
      rw [evictStaleTimestamps, hnone]
      rfl
  late := h.late

theorem Evicted.update {cooldown : ℤ} {time now : ℚ} {timestamps kept : Timestamps}
    (h : Evicted cooldown time timestamps kept) (hlate : (cooldown : ℚ) ≤ now) (chatId : Text) :
    Evicted cooldown time (Function.update timestamps chatId (some now))
      (Function.update kept chatId (some now)) where
  same other := by
    by_cases heq : other = chatId
    · rw [heq, Function.update_self, Function.update_self]
      exact .inl rfl
    · rw [Function.update_of_ne heq, Function.update_of_ne heq]
      exact h.same other
  late {other v} hv := by
    by_cases heq : other = chatId
    · rw [heq, Function.update_self, Option.some.injEq] at hv
      exact hv ▸ hlate
    · rw [Function.update_of_ne heq] at hv
      exact h.late hv

/-- A call answers the same with and without eviction. -/
theorem Evicted.step {cooldown : ℤ} (hc : 0 ≤ cooldown) {time : ℚ} {timestamps kept : Timestamps}
    (h : Evicted cooldown time timestamps kept) {call : Call} (htime : time ≤ call.now)
    (hnow : call.now ≤ call.evictNow) :
    (send cooldown timestamps call).2 = (sendKeeping cooldown kept call).2 ∧
      Evicted cooldown call.evictNow (send cooldown timestamps call).1
        (sendKeeping cooldown kept call).1 := by
  have hc' : (0 : ℚ) ≤ cooldown := by exact_mod_cast hc
  have htest : call.now - (timestamps call.chatId).getD 0 < cooldown ↔
      call.now - (kept call.chatId).getD 0 < cooldown := by
    rcases h.same call.chatId with heq | ⟨hnone, v, hv, hold⟩
    · rw [heq]
    · have hlate := h.late hv
      rw [hnone, hv, Option.getD_none, Option.getD_some]
      constructor <;> intro hlt <;> linarith
  by_cases hnear : call.now - (kept call.chatId).getD 0 < cooldown
  · have hsend : send cooldown timestamps call = _ := if_pos (htest.mpr hnear)
    have hkeep : sendKeeping cooldown kept call = _ := if_pos hnear
    rw [hsend, hkeep]
    exact ⟨rfl, h.later (htime.trans hnow)⟩
  · have hsend : send cooldown timestamps call = _ := if_neg (mt htest.mp hnear)
    have hkeep : sendKeeping cooldown kept call = _ := if_neg hnear
    rw [hsend, hkeep]
    have hlate : (cooldown : ℚ) ≤ call.now := by
      cases hlast : kept call.chatId with
      | none =>
        rw [hlast, Option.getD_none] at hnear
        linarith [not_lt.mp hnear]
      | some v =>
        rw [hlast, Option.getD_some] at hnear
        linarith [not_lt.mp hnear, h.late hlast]
    exact ⟨rfl, ((h.later (htime.trans hnow)).update hlate _).evict⟩

/-- Without the eviction every call gets the answer it gets with it. -/
theorem history_send_eq {cooldown : ℤ} (hc : 0 ≤ cooldown) {calls : List Call}
    (hclock : Clocked calls) {time : ℚ} {timestamps kept : Timestamps}
    (h : Evicted cooldown time timestamps kept) (htime : ∀ call ∈ calls, time ≤ call.now) :
    history (send cooldown) timestamps calls = history (sendKeeping cooldown) kept calls := by
  induction calls generalizing time timestamps kept with
  | nil => rfl
  | cons call calls ih =>
    obtain ⟨hout, hnext⟩ := h.step hc (htime call List.mem_cons_self)
      (hclock.1 call List.mem_cons_self)
    obtain ⟨hfirst, hrest⟩ := List.pairwise_cons.mp hclock.2
    rw [history, history, hout]
    congr 1
    exact ih ⟨fun d hd => hclock.1 d (List.mem_cons_of_mem _ hd), hrest⟩ hnext hfirst

/-! ## Suppression -/

/-- **A call is dropped only after one that was sent**, exactly in the runs in which no call comes
within the cooldown of one to the same chat that raised, or before the clock has passed the
cooldown. No answer depends on the eviction. -/
theorem suppression_sound_iff {cooldown : ℤ} (hc : 0 ≤ cooldown) {calls : List Call}
    (hclock : Clocked calls) :
    (Admits (Sound cooldown) (sends cooldown calls) ↔
      Admits (FarFromFailure cooldown) (sends cooldown calls)) ∧
    sends cooldown calls = history (sendKeeping cooldown) (fun _ => none) calls := by
  have hpoint : ∀ before x after, sends cooldown calls = before ++ x :: after →
      (Sound cooldown before x ↔ FarFromFailure cooldown before x) := by
    intro before x after hsplit
    obtain ⟨pre, call, post, rfl, rfl, rfl⟩ := history_eq_append_cons _ hsplit
    have hle : ∀ d ∈ pre, d.evictNow ≤ call.now := (hclock.admits pre call post rfl).1
    have hpre : Clocked pre :=
      ⟨fun d hd => hclock.1 d (List.mem_append_left _ hd), (List.pairwise_append.mp hclock.2).1⟩
    refine (recorded_run hc hpre hle).sound_iff hc fun y hy => ?_
    have hy' := mem_of_mem_history _ hy
    exact (hpre.1 y.1 hy').trans (hle y.1 hy')
  refine ⟨⟨fun h before x after hsplit => ?_, fun h before x after hsplit => ?_⟩, ?_⟩
  · exact (hpoint before x after hsplit).mp (h before x after hsplit)
  · exact (hpoint before x after hsplit).mpr (h before x after hsplit)
  · cases calls with
    | nil => rfl
    | cons call calls =>
      refine @history_send_eq _ hc _ hclock call.now _ _ ⟨fun _ => .inl rfl, nofun⟩ ?_
      intro d hd
      rcases List.mem_cons.mp hd with rfl | hd
      · exact le_rfl
      · exact (hclock.1 call List.mem_cons_self).trans
          ((List.pairwise_cons.mp hclock.2).1 d hd)

/-- A message at a second, to one chat. -/
def message (second : ℚ) (returns : Bool) : Call :=
  ⟨text "b@x.co", text "hi", second, second, returns⟩

/-- Two messages a minute apart, the first of which is sent. -/
theorem suppression_sound_minute :
    Clocked [message 200 true, message 260 true] ∧
      Admits (Sound 120) (sends 120 [message 200 true, message 260 true]) := by
  have hclock : Clocked [message 200 true, message 260 true] := by
    refine ⟨fun call hcall => ?_, ?_⟩
    · rcases List.mem_pair.mp hcall with rfl | rfl <;> exact le_rfl
    · refine List.pairwise_pair.mpr ?_
      decide
  have hsends : sends 120 [message 200 true, message 260 true] =
      [(message 200 true, .sent)] ++ [(message 260 true, .suppressed)] := by decide +kernel
  refine ⟨hclock, (suppression_sound_iff (by decide) hclock).1.mpr ?_⟩
  rw [hsends]
  have hfirst : Admits (FarFromFailure 120) ([] ++ [(message 200 true, .sent)]) :=
    Admits.concat (fun pre e post h => by simp at h) ⟨by decide, nofun⟩
  refine hfirst.concat ⟨by decide, fun y hy _ hraised => ?_⟩
  rw [List.nil_append, List.mem_singleton] at hy
  rw [hy] at hraised
  cases hraised

/-- A message that could not be sent is reported as sent when it is tried again. -/
theorem retry_suppressed :
    Clocked [message 200 false, message 201 true] ∧
      (sends 120 [message 200 false, message 201 true]).map Prod.snd = [.raised, .suppressed] ∧
      ¬ Admits (Sound 120) (sends 120 [message 200 false, message 201 true]) := by
  have hsends : sends 120 [message 200 false, message 201 true] =
      [(message 200 false, .raised)] ++ (message 201 true, .suppressed) :: [] := by decide +kernel
  refine ⟨⟨fun call hcall => ?_, ?_⟩, by rw [hsends]; rfl, fun hsound => ?_⟩
  · rcases List.mem_pair.mp hcall with rfl | rfl <;> exact le_rfl
  · refine List.pairwise_pair.mpr ?_
    decide
  · obtain ⟨y, hy, -, hsent, -⟩ := hsound _ _ _ hsends rfl
    rw [List.mem_singleton.mp hy] at hsent
    cases hsent

end Shadownet.Hermes
