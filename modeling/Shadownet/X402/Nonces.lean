import Mathlib.Data.Set.Function
import Shadownet.X402.Ledger

/-!
# Nonces are spent once

Every settlement of a sequential run redeems the nonce of an earlier challenge of the same
subject, in time and with a proof of possession that verified, and no two settlements redeem
the same one. `Single` is the invariant that carries this: a nonce in the store was issued and
not redeemed yet.

Where the two requests went to one paywall, the earlier one was answered with the challenge: a
paywall that settles has somebody to pay, so it can quote a price. Paywalls that share the nonces
need not have the same settings; then the earlier request may have ended in an exception
(`settled_without_challenge`).
-/

namespace Shadownet.X402

open Foundation Python

variable {G : Runtime} {tick : ℚ → ℚ → Prop}

/-- The nonces an entry of a run drew. -/
def Entry.issued : Entry → List Text
  | .processed _ calls _ _ => calls.filterMap fun c => match c with
    | ⟨.issue _ _, nonce⟩ => some nonce
    | _ => none
  | _ => []

/-- No nonce is drawn twice. -/
def FreshNonces (log : List Entry) : Prop := (log.flatMap Entry.issued).Nodup

/-- The request at `j` was for a challenge to the subject and drew the nonce; `deadline` is
the expiry it stored. The result is the challenge with that nonce, or the exception that
quoting the price raised. -/
def IssuedAt (G : Runtime) (log : List Entry) (j : ℕ) (nonce sub : Text) (deadline : ℚ) : Prop :=
  ∃ q calls time token,
    log[j]? = some (.processed q calls
      ((buildPaymentRequirements q.paywall.settings q.resourceUrl).map (.challenge · nonce))
      time) ∧
    calls.getLast? = some ⟨.issue q.paywall.settings.nonceTtlSeconds (some sub), nonce⟩ ∧
    q.credential = some token ∧ CredentialFor G.py token sub ∧
    deadline = G.later time q.paywall.settings.nonceTtlSeconds

/-- The request at `i` settled with a proof of possession that names the nonce: it verified
under the key resolved for the identity, with the request's own URL as audience. -/
def SettledWith (G : Runtime) (log : List Entry) (i : ℕ) (nonce sub : Text) (time : ℚ) : Prop :=
  ∃ q calls identity outcome pop key t,
    log[i]? = some (.processed q calls (.ok (.settled identity outcome)) time) ∧
    identity.sub = sub ∧ q.pop = some pop ∧ popNonce G pop = .ok nonce ∧
    KeyFor G q.paywall calls sub key ∧ PopVerifies G pop key q.resourceUrl sub nonce t

/-- The request at `j` was answered with the challenge for the nonce. -/
def ChallengedAt (log : List Entry) (j : ℕ) (nonce : Text) : Prop :=
  ∃ q calls requirements time,
    log[j]? = some (.processed q calls (.ok (.challenge requirements nonce)) time)

/-- The requests at `i` and `j` went to paywalls of the same settings, as those of one paywall
do. -/
def SameSettings (log : List Entry) (i j : ℕ) : Prop :=
  ∃ q calls r time q' calls' r' time', log[i]? = some (.processed q calls r time) ∧
    log[j]? = some (.processed q' calls' r' time') ∧ q.paywall.settings = q'.paywall.settings

def SettledAt (log : List Entry) (i : ℕ) : Prop :=
  ∃ q calls identity outcome time,
    log[i]? = some (.processed q calls (.ok (.settled identity outcome)) time)

/-- The settlement at `i` redeems the nonce issued at `j`. -/
def Redeems (G : Runtime) (log : List Entry) (i j : ℕ) (nonce : Text) : Prop :=
  ∃ sub time deadline, SettledWith G log i nonce sub time ∧ j < i ∧
    IssuedAt G log j nonce sub deadline ∧ time ≤ deadline

/-! ## Longer runs -/

theorem getElem?_concat_lt {log : List Entry} {x y : Entry} {i : ℕ} (h : log[i]? = some y) :
    (log ++ [x])[i]? = some y := by
  have hi : i < log.length := (List.getElem?_eq_some_iff.mp h).1
  rwa [List.getElem?_append_left hi]

theorem getElem?_concat {log : List Entry} {x y : Entry} {i : ℕ}
    (h : (log ++ [x])[i]? = some y) : log[i]? = some y ∨ (i = log.length ∧ x = y) := by
  rcases Nat.lt_trichotomy i log.length with hi | rfl | hi
  · rw [List.getElem?_append_left hi] at h
    exact .inl h
  · rw [List.getElem?_concat_length] at h
    exact .inr ⟨rfl, Option.some.inj h⟩
  · rw [List.getElem?_eq_none (by simp; omega)] at h
    cases h

theorem IssuedAt.concat {log : List Entry} {j : ℕ} {nonce sub : Text} {deadline : ℚ}
    (h : IssuedAt G log j nonce sub deadline) (x : Entry) :
    IssuedAt G (log ++ [x]) j nonce sub deadline := by
  obtain ⟨q, calls, time, token, hj, hrest⟩ := h
  exact ⟨q, calls, time, token, getElem?_concat_lt hj, hrest⟩

theorem IssuedAt.of_concat {log : List Entry} {x : Entry} {j : ℕ} {nonce sub : Text} {deadline : ℚ}
    (h : IssuedAt G (log ++ [x]) j nonce sub deadline) (hj : j < log.length) :
    IssuedAt G log j nonce sub deadline := by
  obtain ⟨q, calls, time, token, hget, hrest⟩ := h
  exact ⟨q, calls, time, token, (getElem?_concat hget).resolve_right fun h => by omega, hrest⟩

/-- The nonce is one the run drew. -/
theorem IssuedAt.mem {log : List Entry} {j : ℕ} {nonce sub : Text} {deadline : ℚ}
    (h : IssuedAt G log j nonce sub deadline) : nonce ∈ log.flatMap Entry.issued := by
  obtain ⟨q, calls, time, token, hj, hlast, -⟩ := h
  refine List.mem_flatMap.mpr ⟨_, List.mem_of_getElem? hj, ?_⟩
  exact List.mem_filterMap.mpr ⟨_, List.mem_of_getLast? hlast, rfl⟩

/-- A request draws one nonce at most. -/
theorem IssuedAt.unique {log : List Entry} {j : ℕ} {nonce nonce' sub sub' : Text} {d d' : ℚ}
    (h : IssuedAt G log j nonce sub d) (h' : IssuedAt G log j nonce' sub' d') : nonce = nonce' := by
  obtain ⟨q, calls, time, token, hj, hlast, -⟩ := h
  obtain ⟨q', calls', time', token', hj', hlast', -⟩ := h'
  obtain ⟨rfl, rfl, -, -⟩ := Entry.processed.inj (Option.some.inj (hj.symm.trans hj'))
  exact eq_of_heq (Sigma.mk.inj (Option.some.inj (hlast.symm.trans hlast'))).2

theorem SettledWith.concat {log : List Entry} {i : ℕ} {nonce sub : Text} {time : ℚ}
    (h : SettledWith G log i nonce sub time) (x : Entry) :
    SettledWith G (log ++ [x]) i nonce sub time := by
  obtain ⟨q, calls, identity, outcome, pop, key, t, hi, hrest⟩ := h
  exact ⟨q, calls, identity, outcome, pop, key, t, getElem?_concat_lt hi, hrest⟩

theorem SettledWith.lt {log : List Entry} {i : ℕ} {nonce sub : Text} {time : ℚ}
    (h : SettledWith G log i nonce sub time) : i < log.length := by
  obtain ⟨q, calls, identity, outcome, pop, key, t, hi, -⟩ := h
  exact (List.getElem?_eq_some_iff.mp hi).1

theorem SettledWith.of_concat {log : List Entry} {x : Entry} {i : ℕ} {nonce sub : Text} {time : ℚ}
    (h : SettledWith G (log ++ [x]) i nonce sub time) :
    SettledWith G log i nonce sub time ∨ (i = log.length ∧ ∃ q calls identity outcome pop,
      x = .processed q calls (.ok (.settled identity outcome)) time ∧ q.pop = some pop ∧
        popNonce G pop = .ok nonce) := by
  obtain ⟨q, calls, identity, outcome, pop, key, t, hi, hrest⟩ := h
  rcases getElem?_concat hi with hi | ⟨hi, hx⟩
  · exact .inl ⟨q, calls, identity, outcome, pop, key, t, hi, hrest⟩
  · exact .inr ⟨hi, q, calls, identity, outcome, pop, hx, hrest.2.1, hrest.2.2.1⟩

theorem Redeems.concat {log : List Entry} {i j : ℕ} {nonce : Text} (h : Redeems G log i j nonce)
    (x : Entry) : Redeems G (log ++ [x]) i j nonce := by
  obtain ⟨sub, time, deadline, hs, hlt, hissued, hle⟩ := h
  exact ⟨sub, time, deadline, hs.concat x, hlt, hissued.concat x, hle⟩

theorem Redeems.of_concat {log : List Entry} {x : Entry} {i j : ℕ} {nonce : Text}
    (h : Redeems G (log ++ [x]) i j nonce) :
    Redeems G log i j nonce ∨ (i = log.length ∧ ∃ q calls identity outcome pop time,
      x = .processed q calls (.ok (.settled identity outcome)) time ∧ q.pop = some pop ∧
        popNonce G pop = .ok nonce) := by
  obtain ⟨sub, time, deadline, hs, hlt, hissued, hle⟩ := h
  rcases hs.of_concat with hs | ⟨hi, q, calls, identity, outcome, pop, hx, hp⟩
  · have hj : j < log.length := hlt.trans hs.lt
    exact .inl ⟨sub, time, deadline, hs, hlt, hissued.of_concat hj, hle⟩
  · exact .inr ⟨hi, q, calls, identity, outcome, pop, time, hx, hp⟩

/-! ## The invariant -/

/-- The store holds the nonces that were issued and not redeemed, and each settlement redeemed
one of its own. -/
structure Single (G : Runtime) (log : List Entry) (s : Stores) : Prop where
  live : ∀ nonce entry, s.entries nonce = some entry →
    ∃ j sub deadline, IssuedAt G log j nonce sub deadline ∧ entry = (some sub, deadline)
  dead : ∀ i j nonce, Redeems G log i j nonce → s.entries nonce = none
  redeemed : ∀ i, SettledAt log i → ∃ j nonce, Redeems G log i j nonce
  once : ∀ i i' j j' nonce, Redeems G log i j nonce → Redeems G log i' j' nonce → i = i'

theorem SettledAt.of_concat {log : List Entry} {x : Entry} {i : ℕ} (h : SettledAt (log ++ [x]) i) :
    SettledAt log i ∨ (i = log.length ∧ ∃ q calls identity outcome time,
      x = .processed q calls (.ok (.settled identity outcome)) time) := by
  obtain ⟨q, calls, identity, outcome, time, hi⟩ := h
  rcases getElem?_concat hi with hi | ⟨hi, hx⟩
  · exact .inl ⟨q, calls, identity, outcome, time, hi⟩
  · exact .inr ⟨hi, q, calls, identity, outcome, time, hx⟩

/-- An entry that is no settlement, and a store that lost nothing but unredeemed nonces. -/
theorem Single.unsettled {log : List Entry} {s s' : Stores} {x : Entry} (h : Single G log s)
    (hx : ∀ q calls identity outcome time,
      x ≠ .processed q calls (.ok (.settled identity outcome)) time)
    (hlive : ∀ nonce entry, s'.entries nonce = some entry → s.entries nonce = some entry ∨
      ∃ j sub deadline, IssuedAt G (log ++ [x]) j nonce sub deadline ∧ entry = (some sub, deadline))
    (hdead : ∀ i j nonce, Redeems G log i j nonce → s'.entries nonce = none) :
    Single G (log ++ [x]) s' := by
  have hold : ∀ {i j nonce}, Redeems G (log ++ [x]) i j nonce → Redeems G log i j nonce := by
    intro i j nonce hr
    rcases hr.of_concat with hr | ⟨-, q, calls, identity, outcome, pop, time, heq, -⟩
    · exact hr
    · exact absurd heq (hx _ _ _ _ _)
  refine ⟨fun nonce entry he => ?_, fun i j nonce hr => hdead i j nonce (hold hr), fun i hi => ?_,
    fun i i' j j' nonce hr hr' => h.once i i' j j' nonce (hold hr) (hold hr')⟩
  · rcases hlive nonce entry he with he | hnew
    · obtain ⟨j, sub, deadline, hissued, heq⟩ := h.live nonce entry he
      exact ⟨j, sub, deadline, hissued.concat x, heq⟩
    · exact hnew
  · rcases hi.of_concat with hi | ⟨-, q, calls, identity, outcome, time, heq⟩
    · obtain ⟨j, nonce, hr⟩ := h.redeemed i hi
      exact ⟨j, nonce, hr.concat x⟩
    · exact absurd heq (hx _ _ _ _ _)

theorem issue_entries (s : Stores) (t : ℚ) (ttl : Int) (key : Option Text) (nonce : Text) :
    (s.issue G t ttl key nonce).entries =
      Function.update s.entries nonce (some (key, G.later t ttl)) := rfl

theorem pop_entries (s : Stores) (t : ℚ) (nonce : Text) :
    (s.pop t nonce).entries = Function.update s.entries nonce none := rfl

theorem entries_pop {s : Stores} {t : ℚ} {nonce n : Text} {entry : Option Text × ℚ}
    (h : (s.pop t nonce).entries n = some entry) : s.entries n = some entry := by
  by_cases hn : n = nonce
  · subst hn
    simp [pop_entries] at h
  · rwa [pop_entries, Function.update_of_ne hn] at h

theorem entries_pop_none {s : Stores} {t : ℚ} {nonce n : Text} (h : s.entries n = none) :
    (s.pop t nonce).entries n = none := by
  cases hp : (s.pop t nonce).entries n with
  | none => rfl
  | some entry => exact absurd (entries_pop hp) (by simp [h])

theorem Declined.not_settled {r : Py PaywallResult} (h : Declined r) (q : Request)
    (calls : Calls Op Ans) (time : ℚ) (q' : Request) (calls' : Calls Op Ans)
    (identity : ShadowIdentity) (outcome : SettleOutcome) (time' : ℚ) :
    Entry.processed q calls r time ≠
      .processed q' calls' (.ok (.settled identity outcome)) time' := by
  cases h <;> simp

theorem checkEntry_ok {t : ℚ} {entry : Option Text × ℚ} {key : Text}
    (h : checkEntry t entry (some key) = .ok ()) :
    t ≤ entry.2 ∧ (entry.1 = none ∨ entry.1 = some key) := by
  simp only [checkEntry, guard_eq_ok] at h
  refine ⟨not_lt.mp h.1, ?_⟩
  by_contra hne
  rw [not_or] at hne
  exact h.2.1 hne

theorem Single.process {log : List Entry} {s s' : Stores} {q : Request} {calls : Calls Op Ans}
    {r : Py PaywallResult} (h : Single G log s) (he : ProcessEffect G tick q calls s r s')
    (hfresh : FreshNonces (log ++ [.processed q calls r s'.clock])) :
    Single G (log ++ [.processed q calls r s'.clock]) s' := by
  cases he with
  | declined hr =>
    exact h.unsettled (hr.not_settled _ _ _) (fun nonce entry he => .inl he) h.dead
  | popped hr ht =>
    exact h.unsettled (hr.not_settled _ _ _)
      (fun nonce entry he => .inl (entries_pop he))
      (fun i j nonce hr => entries_pop_none (h.dead i j nonce hr))
  | @challenged token sub nonce t hcred hsub hallowed ht hlast =>
    have hissued : IssuedAt G (log ++ [.processed q calls _ t]) log.length nonce sub
        (G.later t q.paywall.settings.nonceTtlSeconds) :=
      ⟨q, calls, t, token, List.getElem?_concat_length .., hlast, hcred, hsub, rfl⟩
    refine h.unsettled (fun _ _ _ _ _ => ?_) (fun n entry he => ?_) (fun i j n hr => ?_)
    · generalize buildPaymentRequirements q.paywall.settings q.resourceUrl = req
      cases req <;> simp [Except.map]
    · by_cases hn : n = nonce
      · subst hn
        rw [issue_entries, Function.update_self] at he
        exact .inr ⟨_, _, _, hissued, (Option.some.inj he).symm⟩
      · rw [issue_entries, Function.update_of_ne hn] at he
        exact .inl he
    · -- A redeemed nonce was drawn before, so it is not the one drawn now.
      have hn : n ≠ nonce := by
        rintro rfl
        obtain ⟨sub', time, deadline, -, -, hold, -⟩ := hr
        rw [FreshNonces, List.flatMap_append] at hfresh
        refine (List.nodup_append.mp hfresh).2.2 n hold.mem n ?_ rfl
        have hmem : n ∈ (Entry.processed q calls ((buildPaymentRequirements q.paywall.settings
            q.resourceUrl).map (.challenge · n))
            (s.issue G t q.paywall.settings.nonceTtlSeconds (some sub) n).clock).issued :=
          List.mem_filterMap.mpr ⟨_, List.mem_of_getLast? hlast, rfl⟩
        simpa using hmem
      rw [issue_entries, Function.update_of_ne hn]
      exact h.dead i j n hr
  | @settled pre nonce identity outcome entry t hg hpre hentry ht hcheck hreserve _ =>
    obtain ⟨j, sub, deadline, hissued, rfl⟩ := h.live nonce entry hentry
    obtain ⟨hle, hbound⟩ := checkEntry_ok hcheck
    obtain rfl : sub = identity.sub := Option.some.inj (hbound.resolve_left nofun)
    obtain ⟨pop, key, tp, hpop, hnonce, hkey, -, hver⟩ := hg.pop
    have hj : j < log.length := by
      obtain ⟨q', calls', time, token, hget, -⟩ := hissued
      exact (List.getElem?_eq_some_iff.mp hget).1
    have hnew : Redeems G (log ++ [.processed q calls (.ok (.settled identity outcome)) t])
        log.length j nonce :=
      ⟨identity.sub, t, deadline, ⟨q, calls, identity, outcome, pop, key, tp,
        List.getElem?_concat_length .., rfl, hpop, hnonce, hkey.mono fun c hc => hpre.subset hc,
        hver⟩, hj, hissued.concat _, hle⟩
    -- What the new entry redeems is the nonce its proof of possession names.
    have hsame : ∀ {i j' n}, Redeems G (log ++ [.processed q calls
        (.ok (.settled identity outcome)) t]) i j' n →
        Redeems G log i j' n ∨ (i = log.length ∧ n = nonce) := by
      intro i j' n hr
      rcases hr.of_concat with hr | ⟨hi, q', calls', identity', outcome', pop', time, heq, hp, hn⟩
      · exact .inl hr
      · obtain ⟨rfl, -, -, -⟩ := Entry.processed.inj heq
        obtain rfl : pop = pop' := Option.some.inj (hpop.symm.trans hp)
        exact .inr ⟨hi, Except.ok.inj (hn.symm.trans hnonce)⟩
    refine ⟨fun n e he => ?_, fun i j' n hr => ?_, fun i hi => ?_, fun i i' j₁ j₂ n hr hr' => ?_⟩
    · obtain ⟨j', sub', d', hi, heq⟩ := h.live n e (@entries_pop s t nonce n e he)
      exact ⟨j', sub', d', hi.concat _, heq⟩
    · rcases hsame hr with hr | ⟨-, rfl⟩
      · exact @entries_pop_none s t nonce n (h.dead i j' n hr)
      · exact Function.update_self ..
    · rcases hi.of_concat with hi | ⟨rfl, -⟩
      · obtain ⟨j', n, hr⟩ := h.redeemed i hi
        exact ⟨j', n, hr.concat _⟩
      · exact ⟨j, nonce, hnew⟩
    · have hlive : ∀ {i j' : ℕ}, ¬ Redeems G log i j' nonce := by
        intro i j' hr
        rw [h.dead i j' nonce hr] at hentry
        cases hentry
      rcases hsame hr with hold | ⟨hi, rfl⟩
      · rcases hsame hr' with hold' | ⟨-, rfl⟩
        · exact h.once i i' j₁ j₂ n hold hold'
        · exact absurd hold hlive
      · rcases hsame hr' with hold' | ⟨hi', -⟩
        · exact absurd hold' hlive
        · rw [hi, hi']

theorem FreshNonces.prefix {log : List Entry} {x : Entry} (h : FreshNonces (log ++ [x])) :
    FreshNonces log := by
  rw [FreshNonces, List.flatMap_append] at h
  exact (List.nodup_append.mp h).1

theorem Single.operator {log : List Entry} {s s' : Stores} {x : Entry} (h : Single G log s)
    (hx : ∀ q calls r time, x ≠ .processed q calls r time) (hs : s'.entries = s.entries) :
    Single G (log ++ [x]) s' := by
  refine h.unsettled (fun _ _ _ _ _ => hx _ _ _ _) (fun nonce entry he => ?_)
    (fun i j nonce hr => ?_)
  · exact .inl (hs ▸ he)
  · rw [hs]
    exact h.dead i j nonce hr

theorem Served.single {t : ℚ} {cap : Int} {log : List Entry} {s : Stores}
    (h : Served G tick (.fresh t cap) log s) (hfresh : FreshNonces log) : Single G log s := by
  induction h with
  | start =>
    refine ⟨fun nonce entry he => (nomatch he), fun i j nonce hr => rfl, fun i hi => ?_,
      fun i i' j j' nonce hr => ?_⟩
    · obtain ⟨q, calls, identity, outcome, time, hget⟩ := hi
      rw [List.getElem?_nil] at hget
      cases hget
    · obtain ⟨sub, time, deadline, hs, -⟩ := hr
      exact absurd hs.lt (Nat.not_lt_zero i)
  | process h hp he ih => exact (ih hfresh.prefix).process (process_effect hp he) hfresh
  | revoke key h ih => exact (ih hfresh.prefix).operator (fun _ _ _ _ => by simp) rfl
  | restore key h ih => exact (ih hfresh.prefix).operator (fun _ _ _ _ => by simp) rfl

/-- A paywall that settled has somebody to pay. -/
theorem Served.pays {s₀ s : Stores} {log : List Entry} (h : Served G tick s₀ log s) {i : ℕ}
    {q : Request} {calls : Calls Op Ans} {identity : ShadowIdentity} {outcome : SettleOutcome}
    {time : ℚ} (hi : log[i]? = some (.processed q calls (.ok (.settled identity outcome)) time)) :
    q.paywall.settings.payTo ≠ none := by
  induction h with
  | start => simp at hi
  | @process log s s' q' calls' r h hp he ih =>
    rcases getElem?_concat hi with hi | ⟨-, hx⟩
    · exact ih hi
    · obtain ⟨rfl, rfl, rfl, -⟩ := Entry.processed.inj hx
      generalize hr : (Except.ok (.settled identity outcome) : Py PaywallResult) = r at hp
      cases process_effect hp he with
      | declined hd => cases hd <;> cases hr
      | popped hd _ => cases hd <;> cases hr
      | challenged _ _ _ _ _ =>
        generalize buildPaymentRequirements q'.paywall.settings q'.resourceUrl = req at hr
        cases req <;> cases hr
      | settled _ _ _ _ _ _ hpay => exact hpay
  | revoke key h ih =>
    rcases getElem?_concat hi with hi | ⟨-, hx⟩
    · exact ih hi
    · cases hx
  | restore key h ih =>
    rcases getElem?_concat hi with hi | ⟨-, hx⟩
    · exact ih hi
    · cases hx

/-- What a settlement redeems was quoted by the same paywall. -/
theorem Redeems.challenged {s₀ s : Stores} {log : List Entry} (h : Served G tick s₀ log s)
    {i j : ℕ} {nonce : Text} (hr : Redeems G log i j nonce) (hsame : SameSettings log i j) :
    ChallengedAt log j nonce := by
  obtain ⟨sub, time, deadline, ⟨q, calls, identity, outcome, pop, key, t, hi, -⟩, -,
    ⟨q', calls', time', token, hj, -⟩, -⟩ := hr
  obtain ⟨q₁, calls₁, r₁, t₁, q₂, calls₂, r₂, t₂, hi', hj', hsettings⟩ := hsame
  obtain ⟨rfl, -, -, -⟩ := Entry.processed.inj (Option.some.inj (hi.symm.trans hi'))
  obtain ⟨rfl, -, -, -⟩ := Entry.processed.inj (Option.some.inj (hj.symm.trans hj'))
  obtain ⟨req, hreq⟩ := buildPaymentRequirements_ok (hsettings ▸ h.pays hi) q'.resourceUrl
  rw [hreq] at hj
  exact ⟨q', calls', req, time', hj⟩

end Shadownet.X402
