import Mathlib.Algebra.Order.Archimedean.Basic
import Mathlib.Algebra.Order.Field.Rat
import Mathlib.Algebra.Order.Floor.Semiring
import Mathlib.Data.Rat.Floor
import Mathlib.Tactic.Linarith
import Mathlib.Tactic.Ring
import Shadownet.Foundation.Fallible
import Shadownet.Python.Exceptions

/-!
# Sending with retries

`send_with_retries` of `a2a.py` and its asynchronous sibling, over exact numbers. The loop has no
counter: it ends because each wait is either long enough or reaches the end of the budget.

* `path_retryLoop`: the ways through the loop.
* `retries_end_within_budget`: what holds for every clock that shows the time slept.
-/

namespace Shadownet.Python.Retry

open Foundation

/-! ## The loop -/

/-- The keyword arguments. -/
structure Policy where
  initialDelay : ℚ
  maxDelay : ℚ
  totalBudget : ℚ
  jitter : ℚ

section
variable {B M : Type}

/-- What the loop calls; `B` are the built messages. -/
inductive Op (B : Type) where
  | monotonic
  | builder
  | send (built : B)
  | uniform (low high : ℚ)
  | sleep (wait : ℚ)

def Ans (M : Type) : Op B → Type
  | .monotonic => ℚ
  | .builder => Py B
  | .send _ => Py M
  | .uniform _ _ => ℚ
  | .sleep _ => Unit

/-- How the loop stops without a message; `running` means that it was not followed further. -/
inductive Stop where
  | raised (e : Exc)
  | running

abbrev Loop (B M α : Type) := Fallible (Op B) (Ans M) Stop α

/-- `monotonic()`. -/
def monotonic : Loop B M ℚ := Fallible.ask (.monotonic : Op B)

/-- `builder()`. -/
def builder : Loop B M (Py B) := Fallible.ask (.builder : Op B)

/-- `send_envelope(built, …)`. -/
def send (built : B) : Loop B M (Py M) := Fallible.ask (.send built : Op B)

/-- `r.uniform(low, high)`. -/
def uniform (low high : ℚ) : Loop B M ℚ := Fallible.ask (.uniform low high : Op B)

def sleep (wait : ℚ) : Loop B M Unit := Fallible.ask (.sleep wait : Op B)

/-- The sleep after a failed attempt. -/
def waitOf (p : Policy) (delay elapsed draw : ℚ) : ℚ :=
  min (max (delay * (1 + draw)) 0) (max 0 (p.totalBudget - elapsed))

/-- The text of `TransportRetryExhausted`. -/
def exhausted (secondsText : ℚ → Text) (elapsed : ℚ) (last : Exc) : Exc :=
  ⟨.transportRetryExhausted, text "§8.10 retry budget exhausted (" ++ secondsText elapsed ++
    text "s); last error: " ++ last.msg⟩

/-- The rounds of the loop, followed for at most so many. -/
def retryLoop (secondsText : ℚ → Text) (p : Policy) (start : ℚ) : Nat → ℚ → Loop B M M
  | 0, _ => throw .running
  | fuel + 1, delay => do
    match ← builder with
    | .error exc => throw (.raised exc)
    | .ok built =>
      match ← send built with
      | .ok message => pure message
      | .error exc =>
        if exc.cls.isA .shadownetWireError = true then throw (.raised exc)
        else if exc.cls.isA .transportError = true then do
          let now ← monotonic
          if p.totalBudget ≤ now - start then
            throw (.raised (exhausted secondsText (now - start) exc))
          else do
            let draw ← uniform (-p.jitter) p.jitter
            sleep (waitOf p delay (now - start) draw)
            retryLoop secondsText p start fuel (min (delay * 2) p.maxDelay)
        else throw (.raised exc)

/-- `send_with_retries`. -/
def sendWithRetries (secondsText : ℚ → Text) (p : Policy) (fuel : Nat) : Loop B M M := do
  let start ← monotonic
  retryLoop secondsText p start fuel p.initialDelay

/-- `asend_with_retries`: the same with `await` before `asend_envelope` and `sleep`. -/
def asendWithRetries (secondsText : ℚ → Text) (p : Policy) (fuel : Nat) : Loop B M M := do
  let start ← monotonic
  retryLoop secondsText p start fuel p.initialDelay

/-! ## Ways through the loop -/

/-- A failed attempt that is followed by another one. -/
structure Round (B : Type) where
  built : B
  exc : Exc
  now : ℚ
  draw : ℚ
  wait : ℚ

def Round.calls (p : Policy) (r : Round B) : Calls (Op B) (Ans M) :=
  [⟨.builder, .ok r.built⟩, ⟨.send r.built, .error r.exc⟩, ⟨.monotonic, r.now⟩,
    ⟨.uniform (-p.jitter) p.jitter, r.draw⟩, ⟨.sleep r.wait, ()⟩]

/-- The rounds from a delay on. -/
def Rounds (p : Policy) (start : ℚ) : ℚ → List (Round B) → Prop
  | _, [] => True
  | delay, r :: rounds =>
    r.exc.cls.isA .shadownetWireError = false ∧ r.exc.cls.isA .transportError = true ∧
      r.now - start < p.totalBudget ∧ r.wait = waitOf p delay (r.now - start) r.draw ∧
      Rounds p start (min (delay * 2) p.maxDelay) rounds

/-- The last attempt. -/
inductive Ends (secondsText : ℚ → Text) (p : Policy) (start : ℚ) :
    Calls (Op B) (Ans M) → Except Stop M → Prop
  | returned (built : B) (message : M) :
    Ends secondsText p start [⟨.builder, .ok built⟩, ⟨.send built, .ok message⟩] (.ok message)
  | refused (built : B) (exc : Exc) (h : exc.cls.isA .shadownetWireError = true ∨
      exc.cls.isA .transportError = false) :
    Ends secondsText p start [⟨.builder, .ok built⟩, ⟨.send built, .error exc⟩]
      (.error (.raised exc))
  | exhausted (built : B) (exc : Exc) (now : ℚ) (h : exc.cls.isA .transportError = true)
      (hbudget : p.totalBudget ≤ now - start) :
    Ends secondsText p start [⟨.builder, .ok built⟩, ⟨.send built, .error exc⟩, ⟨.monotonic, now⟩]
      (.error (.raised (exhausted secondsText (now - start) exc)))
  | unbuilt (exc : Exc) :
    Ends secondsText p start [⟨.builder, .error exc⟩] (.error (.raised exc))

section
variable {α : Type} {calls : Calls (Op B) (Ans M)} {r : Except Stop α}

theorem path_monotonic {f : ℚ → Loop B M α} : Fallible.Path (monotonic >>= f) calls r ↔
    ∃ (now : ℚ) (rest : Calls (Op B) (Ans M)), calls = ⟨.monotonic, now⟩ :: rest ∧
      Fallible.Path (f now) rest r :=
  Prog.path_call

theorem path_builder {f : Py B → Loop B M α} : Fallible.Path (builder >>= f) calls r ↔
    ∃ (built : Py B) (rest : Calls (Op B) (Ans M)), calls = ⟨.builder, built⟩ :: rest ∧
      Fallible.Path (f built) rest r :=
  Prog.path_call

theorem path_send {built : B} {f : Py M → Loop B M α} :
    Fallible.Path (send built >>= f) calls r ↔ ∃ (outcome : Py M) (rest : Calls (Op B) (Ans M)),
      calls = ⟨.send built, outcome⟩ :: rest ∧ Fallible.Path (f outcome) rest r :=
  Prog.path_call

theorem path_uniform {low high : ℚ} {f : ℚ → Loop B M α} :
    Fallible.Path (uniform low high >>= f) calls r ↔ ∃ (draw : ℚ) (rest : Calls (Op B) (Ans M)),
      calls = ⟨.uniform low high, draw⟩ :: rest ∧ Fallible.Path (f draw) rest r :=
  Prog.path_call

theorem path_sleep {wait : ℚ} {f : Unit → Loop B M α} :
    Fallible.Path (sleep wait >>= f) calls r ↔ ∃ (u : Unit) (rest : Calls (Op B) (Ans M)),
      calls = ⟨.sleep wait, u⟩ :: rest ∧ Fallible.Path (f u) rest r :=
  Prog.path_call

end

/-- The ways through the loop: rounds, and then the last attempt unless it is not followed
further. -/
theorem path_retryLoop {secondsText : ℚ → Text} {p : Policy} {start : ℚ} {fuel : Nat} {delay : ℚ}
    {calls : Calls (Op B) (Ans M)} {r : Except Stop M}
    (h : Fallible.Path (retryLoop secondsText p start fuel delay) calls r) :
    ∃ (rounds : List (Round B)) (last : Calls (Op B) (Ans M)),
      calls = rounds.flatMap (Round.calls p) ++ last ∧ Rounds p start delay rounds ∧
      (Ends secondsText p start last r ∨
        rounds.length = fuel ∧ last = [] ∧ r = .error .running) := by
  induction fuel generalizing delay calls with
  | zero =>
    obtain ⟨rfl, rfl⟩ := Fallible.path_throw.mp h
    exact ⟨[], [], rfl, trivial, .inr ⟨rfl, rfl, rfl⟩⟩
  | succ fuel ih =>
    obtain ⟨built, rest, rfl, hbuilt⟩ := path_builder.mp h
    clear h
    cases built with
    | error exc =>
      obtain ⟨rfl, rfl⟩ := Fallible.path_throw.mp hbuilt
      exact ⟨[], _, rfl, trivial, .inl (.unbuilt exc)⟩
    | ok built =>
      obtain ⟨outcome, rest, rfl, hsent⟩ := path_send.mp hbuilt
      clear hbuilt
      cases outcome with
      | ok message =>
        obtain ⟨rfl, rfl⟩ := Fallible.path_pure.mp hsent
        exact ⟨[], _, rfl, trivial, .inl (.returned built message)⟩
      | error exc =>
        obtain ⟨hwire, rfl, rfl⟩ | ⟨hwire, hretry⟩ := Fallible.path_guard.mp hsent
        · exact ⟨[], _, rfl, trivial, .inl (.refused built exc (.inl hwire))⟩
        · by_cases htransport : exc.cls.isA .transportError = true
          · rw [if_pos htransport] at hretry
            obtain ⟨now, rest, rfl, hread⟩ := path_monotonic.mp hretry
            obtain ⟨hbudget, rfl, rfl⟩ | ⟨hbudget, hwait⟩ := Fallible.path_guard.mp hread
            · exact ⟨[], _, rfl, trivial, .inl (.exhausted built exc now htransport hbudget)⟩
            · obtain ⟨draw, rest, rfl, hdraw⟩ := path_uniform.mp hwait
              obtain ⟨⟨⟩, rest, rfl, hloop⟩ := path_sleep.mp hdraw
              obtain ⟨rounds, last, rfl, hrounds, hlast⟩ := ih hloop
              refine ⟨⟨built, exc, now, draw, waitOf p delay (now - start) draw⟩ :: rounds, last,
                rfl, ⟨Bool.eq_false_of_not_eq_true hwire, htransport, not_le.mp hbudget, rfl,
                  hrounds⟩, hlast.imp_right ?_⟩
              rintro ⟨rfl, hnil, hr⟩
              exact ⟨rfl, hnil, hr⟩
          · rw [if_neg htransport] at hretry
            obtain ⟨rfl, rfl⟩ := Fallible.path_throw.mp hretry
            exact ⟨[], _, rfl, trivial,
              .inl (.refused built exc (.inr (Bool.eq_false_of_not_eq_true htransport)))⟩

/-! ## The clock -/

/-- What the calls may answer, with the earliest time the clock may show next: it does not go
back, and it shows the time slept. -/
def clock : ℚ → (o : Op B) → Ans M o → ℚ → Prop
  | low, .monotonic, (now : ℚ), low' => low ≤ now ∧ low' = now
  | low, .uniform a b, (draw : ℚ), low' => a ≤ draw ∧ draw ≤ b ∧ low' = low
  | low, .sleep wait, _, low' => low' = low + wait
  | low, .builder, _, low' => low' = low
  | low, .send _, _, low' => low' = low

theorem clock_monotonic {low low' now : ℚ} : clock (B := B) (M := M) low .monotonic now low' ↔
    low ≤ now ∧ low' = now := Iff.rfl

theorem clock_uniform {low low' a b draw : ℚ} :
    clock (B := B) (M := M) low (.uniform a b) draw low' ↔ a ≤ draw ∧ draw ≤ b ∧ low' = low :=
  Iff.rfl

theorem evolves_round {p : Policy} {r : Round B} {rest : Calls (Op B) (Ans M)} {low low' : ℚ}
    (h : Evolves clock low (r.calls p ++ rest) low') :
    low ≤ r.now ∧ -p.jitter ≤ r.draw ∧ r.draw ≤ p.jitter ∧
      Evolves clock (r.now + r.wait) rest low' := by
  obtain ⟨_, rfl, hsend⟩ := evolves_cons.mp h
  obtain ⟨_, rfl, hmonotonic⟩ := evolves_cons.mp hsend
  obtain ⟨_, hread, huniform⟩ := evolves_cons.mp hmonotonic
  obtain ⟨hnow, rfl⟩ := clock_monotonic.mp hread
  obtain ⟨_, hdraw, hsleep⟩ := evolves_cons.mp huniform
  obtain ⟨hlow, hhigh, rfl⟩ := clock_uniform.mp hdraw
  obtain ⟨_, rfl, hrest⟩ := evolves_cons.mp hsleep
  exact ⟨hnow, hlow, hhigh, hrest⟩

/-- The sleeps of a run. -/
def sleeps (calls : Calls (Op B) (Ans M)) : List ℚ :=
  calls.filterMap fun c => match c.1 with
    | .sleep wait => some wait
    | _ => none

theorem sleeps_rounds (p : Policy) (rounds : List (Round B)) (last : Calls (Op B) (Ans M)) :
    sleeps (rounds.flatMap (Round.calls p) ++ last) = rounds.map Round.wait ++ sleeps last := by
  induction rounds with
  | nil => rfl
  | cons r rounds ih =>
    rw [List.flatMap_cons, List.append_assoc, List.map_cons, List.cons_append, ← ih]
    rfl

theorem Ends.sleeps_eq_nil {secondsText : ℚ → Text} {p : Policy} {start : ℚ}
    {last : Calls (Op B) (Ans M)} {r : Except Stop M} (h : Ends secondsText p start last r) :
    sleeps last = [] := by
  cases h <;> rfl

/-! ## Sleeps -/

theorem waitOf_le_left {p : Policy} {delay elapsed draw : ℚ} (h : elapsed < p.totalBudget) :
    waitOf p delay elapsed draw ≤ p.totalBudget - elapsed := by
  refine (min_le_right _ _).trans (max_le ?_ le_rfl)
  linarith

variable {p : Policy} {start low low' delay : ℚ} {rounds : List (Round B)}
  {last : Calls (Op B) (Ans M)}

/-- The sleeps fit into what is left of the budget. -/
theorem sum_waits_le (hrounds : Rounds p start delay rounds)
    (h : Evolves clock low (rounds.flatMap (Round.calls p) ++ last) low') :
    (rounds.map Round.wait).sum ≤ max 0 (p.totalBudget - (low - start)) := by
  induction rounds generalizing delay low with
  | nil => exact le_max_left _ _
  | cons r rounds ih =>
    obtain ⟨-, -, hbudget, hwait, hrest⟩ := hrounds
    rw [List.flatMap_cons, List.append_assoc] at h
    obtain ⟨hnow, -, -, h⟩ := evolves_round h
    have hle := ih hrest h
    have hfits := @waitOf_le_left p delay _ r.draw hbudget
    rw [← hwait] at hfits
    rw [List.map_cons, List.sum_cons]
    have hleft : max 0 (p.totalBudget - (r.now + r.wait - start)) =
        p.totalBudget - (r.now + r.wait - start) := max_eq_right (by linarith)
    rw [hleft] at hle
    exact (by linarith : r.wait + (rounds.map Round.wait).sum ≤
      p.totalBudget - (low - start)).trans (le_max_right _ _)

/-- Each sleep keeps to the doubled delay and to the cap. -/
theorem wait_le (hdelay : 0 < delay) (hmax : 0 < p.maxDelay) (hjitter : 0 ≤ p.jitter)
    (hrounds : Rounds p start delay rounds)
    (h : Evolves clock low (rounds.flatMap (Round.calls p) ++ last) low') {k : Nat} {wait : ℚ}
    (hk : (rounds.map Round.wait)[k]? = some wait) :
    wait ≤ (1 + p.jitter) * min (delay * 2 ^ k) (max delay p.maxDelay) := by
  induction rounds generalizing delay low k with
  | nil => simp at hk
  | cons r rounds ih =>
    obtain ⟨-, -, hbudget, hwait, hrest⟩ := hrounds
    rw [List.flatMap_cons, List.append_assoc] at h
    obtain ⟨-, -, hdraw, h⟩ := evolves_round h
    cases k with
    | zero =>
      rw [List.map_cons, List.getElem?_cons_zero, Option.some.injEq] at hk
      have hmin : min (delay * 2 ^ 0) (max delay p.maxDelay) = delay := by
        rw [pow_zero, mul_one]
        exact min_eq_left (le_max_left _ _)
      rw [← hk, hwait, hmin, mul_comm]
      refine (min_le_left _ _).trans (max_le ?_ (by positivity))
      exact mul_le_mul_of_nonneg_left (by linarith) hdelay.le
    | succ k =>
      rw [List.map_cons, List.getElem?_cons_succ] at hk
      have hnext : 0 < min (delay * 2) p.maxDelay := lt_min (by linarith) hmax
      refine (ih hnext hrest h hk).trans (mul_le_mul_of_nonneg_left ?_ (by linarith))
      have hdouble : min (delay * 2) p.maxDelay * 2 ^ k ≤ delay * 2 ^ (k + 1) := by
        rw [pow_succ', ← mul_assoc]
        exact mul_le_mul_of_nonneg_right (min_le_left _ _) (by positivity)
      have hcap : max (min (delay * 2) p.maxDelay) p.maxDelay ≤ max delay p.maxDelay :=
        max_le ((min_le_right _ _).trans (le_max_right _ _)) (le_max_right _ _)
      exact min_le_min hdouble hcap

/-- Each round but the last of the budget takes at least `shortest`. -/
theorem length_rounds_le {shortest : ℚ} (hpos : 0 < shortest)
    (hshort : shortest ≤ delay * (1 - p.jitter)) (hcap : shortest ≤ p.maxDelay * (1 - p.jitter))
    (hdelay : 0 < delay) (hmax : 0 < p.maxDelay)
    (hrounds : Rounds p start delay rounds)
    (h : Evolves clock low (rounds.flatMap (Round.calls p) ++ last) low') :
    rounds.length * shortest ≤ if p.totalBudget ≤ low - start then 0
      else p.totalBudget - (low - start) + shortest := by
  induction rounds generalizing delay low with
  | nil =>
    rw [List.length_nil, Nat.cast_zero, zero_mul]
    split_ifs with hle
    · exact le_rfl
    · linarith [not_le.mp hle]
  | cons r rounds ih =>
    obtain ⟨-, -, hbudget, hwait, hrest⟩ := hrounds
    rw [List.flatMap_cons, List.append_assoc] at h
    obtain ⟨hnow, hdraw, -, h⟩ := evolves_round h
    have hnext : 0 < min (delay * 2) p.maxDelay := lt_min (by linarith) hmax
    have hjitter : 0 < 1 - p.jitter :=
      pos_of_mul_pos_right (hpos.trans_le hshort) hdelay.le
    have hshort' : shortest ≤ min (delay * 2) p.maxDelay * (1 - p.jitter) := by
      rw [min_mul_of_nonneg _ _ hjitter.le]
      exact le_min (by nlinarith) hcap
    have hle := ih hshort' hnext hrest h
    have hfits := @waitOf_le_left p delay _ r.draw hbudget
    rw [← hwait] at hfits
    rw [if_neg (by linarith), List.length_cons, Nat.cast_succ, add_mul, one_mul]
    -- A wait is long enough unless it reaches the end of the budget.
    have hlong : shortest ≤ r.wait ∨ r.wait = p.totalBudget - (r.now - start) := by
      rw [hwait, waitOf, max_eq_right (by linarith : 0 ≤ p.totalBudget - (r.now - start))]
      rcases min_choice (max (delay * (1 + r.draw)) 0) (p.totalBudget - (r.now - start))
        with hm | hm
      · left
        rw [hm]
        refine le_trans ?_ (le_max_left _ _)
        exact hshort.trans (mul_le_mul_of_nonneg_left (by linarith) hdelay.le)
      · exact .inr hm
    rcases hlong with hlong | hend
    · split_ifs at hle with hover
      · linarith
      · linarith
    · rw [if_pos (by linarith)] at hle
      linarith

/-! ## Runs -/

/-- The calls of a run: the time is read once, each round is a built message, a send that ends in
a `TransportError`, a reading before the end of the budget, a draw and a sleep, and the last
attempt decides. -/
def Attempts (secondsText : ℚ → Text) (p : Policy) (calls : Calls (Op B) (Ans M))
    (r : Except Stop M) : Prop :=
  ∃ (start : ℚ) (rounds : List (Round B)) (last : Calls (Op B) (Ans M)),
    calls = ⟨.monotonic, start⟩ :: (rounds.flatMap (Round.calls p) ++ last) ∧
      Rounds p start p.initialDelay rounds ∧ Ends secondsText p start last r

theorem path_sendWithRetries {secondsText : ℚ → Text} {fuel : Nat}
    {calls : Calls (Op B) (Ans M)} {r : Except Stop M}
    (h : Fallible.Path (sendWithRetries secondsText p fuel) calls r) :
    ∃ (start : ℚ) (rounds : List (Round B)) (last : Calls (Op B) (Ans M)),
      calls = ⟨.monotonic, start⟩ :: (rounds.flatMap (Round.calls p) ++ last) ∧
      Rounds p start p.initialDelay rounds ∧ (Ends secondsText p start last r ∨
        rounds.length = fuel ∧ last = [] ∧ r = .error .running) := by
  obtain ⟨start, rest, rfl, hloop⟩ := path_monotonic.mp h
  obtain ⟨rounds, last, rfl, hrounds, hlast⟩ := path_retryLoop hloop
  exact ⟨start, rounds, last, rfl, hrounds, hlast⟩

end

/-- With fuel enough every run comes to an end, sleeps no longer than the budget, keeps each
sleep under its bound, and is a list of attempts. -/
theorem retries_end_within_budget {B M : Type} (secondsText : ℚ → Text) {p : Policy}
    (hinitial : 0 < p.initialDelay) (hmax : 0 < p.maxDelay) (hjitter : 0 ≤ p.jitter)
    (hjitter' : p.jitter < 1) (hbudget : 0 ≤ p.totalBudget) :
    ∃ N, ∀ fuel, N ≤ fuel → ∀ program : Loop B M M,
      program = sendWithRetries secondsText p fuel ∨
        program = asendWithRetries secondsText p fuel →
      ∀ calls r low low', Fallible.Path program calls r → Evolves clock low calls low' →
        (sleeps calls).sum ≤ p.totalBudget ∧
        (∀ k (wait : ℚ), (sleeps calls)[k]? = some wait → wait ≤
          (1 + p.jitter) * min (p.initialDelay * 2 ^ k) (max p.initialDelay p.maxDelay)) ∧
        Attempts secondsText p calls r := by
  let shortest := min p.initialDelay p.maxDelay * (1 - p.jitter)
  have hpos : 0 < shortest := mul_pos (lt_min hinitial hmax) (by linarith)
  obtain ⟨N, hN⟩ := exists_nat_gt ((p.totalBudget + shortest) / shortest)
  refine ⟨N, fun fuel hfuel program hprogram calls r low low' hpath hevolves => ?_⟩
  have hsync : program = sendWithRetries secondsText p fuel := hprogram.elim id id
  rw [hsync] at hpath
  obtain ⟨start, rounds, last, rfl, hrounds, hlast⟩ := path_sendWithRetries hpath
  obtain ⟨now, hread, hrest⟩ := evolves_cons.mp hevolves
  obtain ⟨-, hnow⟩ := clock_monotonic.mp hread
  have hlen := length_rounds_le hpos
    (mul_le_mul_of_nonneg_right (min_le_left _ _) (by linarith))
    (mul_le_mul_of_nonneg_right (min_le_right _ _) (by linarith)) hinitial hmax hrounds hrest
  have hfew : rounds.length < fuel := by
    have hbound : (rounds.length : ℚ) * shortest ≤ p.totalBudget + shortest := by
      rw [hnow, sub_self, sub_zero] at hlen
      refine hlen.trans ?_
      split_ifs
      · linarith
      · linarith
    have hlt : (rounds.length : ℚ) < fuel := by
      refine lt_of_le_of_lt ((le_div_iff₀ hpos).mpr hbound) (hN.trans_le ?_)
      exact_mod_cast hfuel
    exact_mod_cast hlt
  obtain hends | ⟨hall, -, -⟩ := hlast
  · have hsleeps : sleeps ((⟨.monotonic, start⟩ : (o : Op B) × Ans M o) ::
        (rounds.flatMap (Round.calls p) ++ last)) = rounds.map Round.wait := by
      have hcons : sleeps ((⟨.monotonic, start⟩ : (o : Op B) × Ans M o) ::
          (rounds.flatMap (Round.calls p) ++ last)) =
          sleeps (rounds.flatMap (Round.calls p) ++ last) := rfl
      rw [hcons, sleeps_rounds, hends.sleeps_eq_nil, List.append_nil]
    rw [hsleeps]
    have hsum := sum_waits_le hrounds hrest
    rw [hnow, sub_self, sub_zero, max_eq_right hbudget] at hsum
    exact ⟨hsum, fun k wait hk => wait_le hinitial hmax hjitter hrounds hrest hk,
      start, rounds, last, rfl, hrounds, hends⟩
  · omega

/-- `RETRY_INITIAL_DELAY` and its siblings. -/
def defaultPolicy : Policy := ⟨30, 3600, 24 * 3600, 1 / 4⟩

theorem default_retries_end : ∃ N, ∀ fuel, N ≤ fuel → ∀ program : Loop Nat Nat Nat,
    program = sendWithRetries (fun _ => []) defaultPolicy fuel ∨
      program = asendWithRetries (fun _ => []) defaultPolicy fuel →
    ∀ calls r low low', Fallible.Path program calls r → Evolves clock low calls low' →
      (sleeps calls).sum ≤ 24 * 3600 ∧
      (∀ k (wait : ℚ), (sleeps calls)[k]? = some wait → wait ≤
        (1 + 1 / 4) * min (30 * 2 ^ k) (max 30 3600)) ∧
      Attempts (fun _ => []) defaultPolicy calls r :=
  retries_end_within_budget (p := defaultPolicy) (fun _ => []) (by decide) (by decide)
    (by decide +kernel) (by decide +kernel) (by decide +kernel)

end Shadownet.Python.Retry
