import Shadownet.Issuer.Authz

/-!
# The delegate cache under concurrency

Any number of `Authorize` calls share the two maps. Each locked section is one call, the lookups
between them take any time and answer anything, and the clock does not go back.

Every entry of the positive map was put there by a call that had read its clock, missed the
cache and then had a successful lookup (`Provenance`), and its expiry is that clock reading plus
the TTL. So a hit is never older than the TTL, and a call whose lookup failed, or that met a
negative entry, does not accept (`delegates_fresh`). A hit can be younger than the clock reading
of the call that hits it (`hit_from_the_future`).
-/

namespace Shadownet.Issuer

open Foundation Go

/-! ## The system -/

structure AuthzWorld where
  cache : DelegateCache
  clock : Time

/-- What a call may answer and do. -/
inductive AuthzHandle : AuthzWorld → (o : AuthzOp) → AuthzAns o → AuthzWorld → Prop
  | now (w : AuthzWorld) (t : Time) (ht : w.clock.nanos ≤ t.nanos) :
      AuthzHandle w .now t { w with clock := t }
  | readCache (w : AuthzWorld) (org : Bytes) :
      AuthzHandle w (.readCache org) (w.cache.pos org, w.cache.neg org) w
  | lookupTXT (w : AuthzWorld) (name : Bytes) (a : GoM (List Bytes)) :
      AuthzHandle w (.lookupTXT name) a w
  | putNeg (w : AuthzWorld) (org : Bytes) (expiry : Time) :
      AuthzHandle w (.putNeg org expiry) ()
        { w with cache := { w.cache with neg := Function.update w.cache.neg org (some expiry) } }
  | putPos (w : AuthzWorld) (org : Bytes) (entry : CacheEntry) :
      AuthzHandle w (.putPos org entry) ()
        { w with cache := { w.cache with pos := Function.update w.cache.pos org (some entry) } }

abbrev AuthzEvent (ι : Type) := Event ι AuthzOp AuthzAns

/-- The runs of a pool of `Authorize` calls from the empty maps. -/
abbrev AuthzRun {ι : Type} [DecidableEq ι] (G : Runtime) (cfg : AuthzConfig) (start : Time)
    (iss org : ι → Bytes) :=
  Run AuthzHandle (fun _ _ => False) ⟨.empty, start⟩ fun i => authorizer G cfg (iss i) (org i)

/-! ## The ways through one call -/

section
variable {G : Runtime} {cfg : AuthzConfig} {iss org : Bytes}

/-- The calls of `lookupDelegates` on a domain, and what it returns. -/
inductive DelegateCalls (cfg : AuthzConfig) (d : Bytes) (t : Time)
    (cached : Option CacheEntry × Option Time) :
    Calls AuthzOp AuthzAns → GoM (List Bytes) → Prop
  | hit (e : CacheEntry) (he : cached.1 = some e) (hfresh : e.expiresAt.after t = true) :
      DelegateCalls cfg d t cached [⟨.now, t⟩, ⟨.readCache d, cached⟩] (.ok e.delegates)
  | negative (msg : Bytes) (hneg : cached.2.any (·.after t) = true) :
      DelegateCalls cfg d t cached [⟨.now, t⟩, ⟨.readCache d, cached⟩] (.error msg)
  | failed (msg : Bytes) :
      DelegateCalls cfg d t cached
        [⟨.now, t⟩, ⟨.readCache d, cached⟩, ⟨.lookupTXT (shadownetName d), .error msg⟩,
          ⟨.putNeg d (t.add cfg.negativeCacheTTL), ()⟩] (.error msg)
  | looked (txt : List Bytes) (hnone : cached.2.any (·.after t) = false) :
      DelegateCalls cfg d t cached
        [⟨.now, t⟩, ⟨.readCache d, cached⟩, ⟨.lookupTXT (shadownetName d), .ok txt⟩,
          ⟨.putPos d ⟨extractDelegates txt, t.add cfg.positiveCacheTTL⟩, ()⟩]
        (.ok (extractDelegates txt))

theorem lookupDelegates_path {calls : Calls AuthzOp AuthzAns} {r : GoM (List Bytes)}
    (h : Prog.Path (lookupDelegates G cfg org) calls r) :
    (calls = [] ∧ ∃ e, r = .error e) ∨
      ∃ d t cached, canonicalDomain G org = .ok d ∧ DelegateCalls cfg d t cached calls r := by
  rw [lookupDelegates] at h
  cases hd : canonicalDomain G org with
  | error e =>
    rw [hd] at h
    obtain ⟨rfl, rfl⟩ := Prog.path_ret.mp h
    exact .inl ⟨rfl, e, rfl⟩
  | ok d =>
    rw [hd] at h
    obtain ⟨t, _, rfl, h₁⟩ := Prog.path_call.mp h
    obtain ⟨cached, _, rfl, h₂⟩ := Prog.path_call.mp h₁
    refine .inr ⟨d, t, cached, rfl, ?_⟩
    have h₃ : Prog.Path (afterCache cfg d t cached) _ r := h₂
    rw [afterCache] at h₃
    split at h₃
    · next e he =>
      obtain ⟨he, hfresh⟩ := Option.filter_eq_some_iff.mp he
      obtain ⟨rfl, rfl⟩ := Prog.path_ret.mp h₃
      exact .hit e he hfresh
    · split_ifs at h₃ with hneg
      · obtain ⟨rfl, rfl⟩ := Prog.path_ret.mp h₃
        exact .negative _ hneg
      · obtain ⟨txt, _, rfl, h₄⟩ := Prog.path_call.mp h₃
        cases txt with
        | error msg =>
          obtain ⟨⟨⟩, _, rfl, h₅⟩ := Prog.path_call.mp h₄
          obtain ⟨rfl, rfl⟩ := Prog.path_ret.mp h₅
          exact .failed msg
        | ok txt =>
          obtain ⟨⟨⟩, _, rfl, h₅⟩ := Prog.path_call.mp h₄
          obtain ⟨rfl, rfl⟩ := Prog.path_ret.mp h₅
          exact .looked txt (by simpa using hneg)

/-- The lookup of a call failed, or the call found only a negative entry in force. -/
def LookupFailed (calls : Calls AuthzOp AuthzAns) : Prop :=
  (∃ name e, ⟨.lookupTXT name, .error e⟩ ∈ calls) ∨
    ∃ t d cached, ⟨.now, t⟩ ∈ calls ∧ ⟨.readCache d, cached⟩ ∈ calls ∧
      cached.1.filter (·.expiresAt.after t) = none ∧ cached.2.any (·.after t) = true

theorem DelegateCalls.not_failed {d : Bytes} {t : Time} {cached : Option CacheEntry × Option Time}
    {calls : Calls AuthzOp AuthzAns} {delegates : List Bytes}
    (h : DelegateCalls cfg d t cached calls (.ok delegates)) : ¬ LookupFailed calls := by
  cases h with
  | hit e he hfresh =>
    rintro (⟨name, msg, hmem⟩ | ⟨t', d', cached', hnow, hread, hnone, -⟩)
    · simp at hmem
    · have ht : t' = t := by simpa using hnow
      have hcached : d' = d ∧ cached' = cached := by simpa using hread
      rw [hcached.2, he, ht, Option.filter_some, if_pos hfresh] at hnone
      cases hnone
  | looked txt hnone =>
    rintro (⟨name, msg, hmem⟩ | ⟨t', d', cached', hnow, hread, -, hneg⟩)
    · simp at hmem
    · have ht : t' = t := by simpa using hnow
      have hcached : d' = d ∧ cached' = cached := by simpa using hread
      rw [hcached.2, ht, hnone] at hneg
      cases hneg

/-- A call makes no calls at all, or looks up the delegates and acts on them. -/
theorem authorizer_path {calls : Calls AuthzOp AuthzAns} {r : GoM Unit}
    (h : Prog.Path (authorizer G cfg iss org) calls r) :
    (calls = [] ∧ (r = .ok () → classify G iss = .domain → classify G org = .domain →
      isSubdomainOf G iss org = true)) ∨
      ∃ d t cached x, canonicalDomain G org = .ok d ∧ DelegateCalls cfg d t cached calls x ∧
        r = afterDelegates G iss org x := by
  rw [authorizer] at h
  split_ifs at h with hunknown hmatch hkey hsub
  · obtain ⟨rfl, rfl⟩ := Prog.path_ret.mp h
    exact .inl ⟨rfl, fun hr => (throw_eq_ok.mp hr).elim⟩
  · obtain ⟨rfl, rfl⟩ := Prog.path_ret.mp h
    refine .inl ⟨rfl, fun _ hi ho => ?_⟩
    rw [hi, ho] at hmatch
    obtain ⟨d, hd, hd'⟩ := matchesIssEqOrg_domain.mp hmatch
    rw [isSubdomainOf, hd, hd']
    simp
  · obtain ⟨rfl, rfl⟩ := Prog.path_ret.mp h
    exact .inl ⟨rfl, fun hr => (throw_eq_ok.mp hr).elim⟩
  · obtain ⟨rfl, rfl⟩ := Prog.path_ret.mp h
    exact .inl ⟨rfl, fun _ _ _ => hsub⟩
  · obtain ⟨c₁, c₂, x, rfl, hx, hr⟩ := Prog.path_bind.mp h
    obtain ⟨rfl, rfl⟩ := Prog.path_ret.mp hr
    rw [List.append_nil]
    rcases lookupDelegates_path hx with ⟨rfl, e, rfl⟩ | ⟨d, t, cached, hd, hcalls⟩
    · exact .inl ⟨rfl, fun hr => (throw_eq_ok.mp hr).elim⟩
    · exact .inr ⟨d, t, cached, x, hd, hcalls, rfl⟩

/-- For domains that are not related the call is the delegate rule. -/
theorem authorizer_eq (hiss : classify G iss = .domain) (horg : classify G org = .domain)
    (hsub : isSubdomainOf G iss org = false) :
    authorizer G cfg iss org =
      lookupDelegates G cfg org >>= fun x => pure (afterDelegates G iss org x) := by
  have hmatch : ¬ matchesIssEqOrg G iss .domain org .domain = true := by
    intro h
    obtain ⟨d, hd, hd'⟩ := matchesIssEqOrg_domain.mp h
    rw [isSubdomainOf, hd, hd'] at hsub
    simp at hsub
  rw [authorizer, hiss, horg]
  simp only [hmatch, hsub]
  rfl

/-- A call that hits the cache. -/
theorem hit_path (hiss : classify G iss = .domain) (horg : classify G org = .domain)
    (hsub : isSubdomainOf G iss org = false) {d : Bytes} (hd : canonicalDomain G org = .ok d)
    {t : Time} {e : CacheEntry} {neg : Option Time} (hfresh : e.expiresAt.after t = true)
    (hlisted : listed G iss e.delegates = true) :
    Prog.Path (authorizer G cfg iss org) [⟨.now, t⟩, ⟨.readCache d, (some e, neg)⟩] (.ok ()) := by
  rw [authorizer_eq hiss horg hsub, lookupDelegates, hd]
  refine Prog.path_call.mpr ⟨t, _, rfl, Prog.path_call.mpr ⟨(some e, neg), _, rfl, ?_⟩⟩
  show Prog.Path (afterCache cfg d t (some e, neg) >>= _) [] _
  have hkeep : (some e).filter (·.expiresAt.after t) = some e := by
    rw [Option.filter_some, if_pos hfresh]
  rw [afterCache, hkeep]
  refine Prog.path_ret.mpr ⟨rfl, ?_⟩
  exact (afterDelegates_eq_ok.mpr ⟨_, rfl, hlisted⟩).symm

/-- A call that finds nothing in the cache and has an answer. -/
theorem looked_path (hiss : classify G iss = .domain) (horg : classify G org = .domain)
    (hsub : isSubdomainOf G iss org = false) {d : Bytes} (hd : canonicalDomain G org = .ok d)
    {t : Time} {txt : List Bytes} (hlisted : listed G iss (extractDelegates txt) = true) :
    Prog.Path (authorizer G cfg iss org)
      [⟨.now, t⟩, ⟨.readCache d, (none, none)⟩, ⟨.lookupTXT (shadownetName d), .ok txt⟩,
        ⟨.putPos d ⟨extractDelegates txt, t.add cfg.positiveCacheTTL⟩, ()⟩] (.ok ()) := by
  rw [authorizer_eq hiss horg hsub, lookupDelegates, hd]
  refine Prog.path_call.mpr ⟨t, _, rfl, Prog.path_call.mpr ⟨(none, none), _, rfl, ?_⟩⟩
  refine Prog.path_call.mpr ⟨.ok txt, _, rfl, Prog.path_call.mpr ⟨(), _, rfl, ?_⟩⟩
  refine Prog.path_ret.mpr ⟨rfl, ?_⟩
  exact (afterDelegates_eq_ok.mpr ⟨_, rfl, hlisted⟩).symm

end

/-! ## Where an entry comes from -/

section
variable {ι : Type} [DecidableEq ι] {G : Runtime} {cfg : AuthzConfig} {start : Time}
  {iss org : ι → Bytes} {tr : List (AuthzEvent ι)} {w : AuthzWorld}
    {pool : ι → AuthzProg (GoM Unit)}

/-- The call `j` read its clock at `t₀`, looked into the cache for `d`, and then had the answer
`txt`. -/
def LookedUp (tr : List (AuthzEvent ι)) (j : ι) (t₀ : Time) (d : Bytes) (txt : List Bytes) : Prop :=
  ∃ cached rest, callsOf j tr = ⟨.now, t₀⟩ :: ⟨.readCache d, cached⟩ ::
    ⟨.lookupTXT (shadownetName d), .ok txt⟩ :: rest

theorem LookedUp.append {j : ι} {t₀ : Time} {d : Bytes} {txt : List Bytes}
    (h : LookedUp tr j t₀ d txt) (tr' : List (AuthzEvent ι)) : LookedUp (tr ++ tr') j t₀ d txt := by
  obtain ⟨cached, rest, h⟩ := h
  refine ⟨cached, rest ++ callsOf j tr', ?_⟩
  rw [callsOf_append, h]
  rfl

/-- The entry is the answer some call had, kept for the TTL from its clock reading. -/
def Provenance (cfg : AuthzConfig) (tr : List (AuthzEvent ι)) (d : Bytes) (e : CacheEntry) : Prop :=
  ∃ j t₀ txt, LookedUp tr j t₀ d txt ∧
    e = ⟨extractDelegates txt, t₀.add cfg.positiveCacheTTL⟩

/-- A hit of an event has a provenance in what came before. -/
def HitProvenance (cfg : AuthzConfig) (pre : List (AuthzEvent ι)) (ev : AuthzEvent ι) : Prop :=
  ∀ i d e neg, ev = ⟨i, .readCache d, (some e, neg)⟩ → Provenance cfg pre d e

/-- What a call writes into the positive map is what it has looked up. -/
theorem putPos_provenance (hr : AuthzRun G cfg start iss org tr w pool) {j : ι} {d : Bytes}
    {e : CacheEntry} {k : Unit → AuthzProg (GoM Unit)} (hc : pool j = .call (.putPos d e) k) :
    Provenance cfg tr d e := by
  have hA : ∀ o, Nonempty (AuthzAns o) := by
    intro o
    cases o with
    | now => exact ⟨start⟩
    | readCache d => exact ⟨(none, none)⟩
    | lookupTXT name => exact ⟨.ok []⟩
    | putNeg d t => exact ⟨()⟩
    | putPos d e => exact ⟨()⟩
  obtain ⟨rest, r, hrest⟩ := Prog.exists_path hA (k ())
  have hpath : Prog.Path (pool j) (⟨.putPos d e, ()⟩ :: rest) r := by
    rw [hc]
    exact Prog.path_call.mpr ⟨(), rest, rfl, hrest⟩
  rcases authorizer_path (hr.path hpath) with ⟨hnil, -⟩ | ⟨d', t, cached, x, -, hcalls, -⟩
  · simp at hnil
  · generalize hl : callsOf j tr = l at hcalls
    generalize hput : l ++ ⟨.putPos d e, ()⟩ :: rest = all at hcalls
    have hmem : (⟨.putPos d e, ()⟩ : (o : AuthzOp) × AuthzAns o) ∈ all := by
      rw [← hput]
      simp
    cases hcalls with
    | hit e' he hfresh => simp at hmem
    | negative msg hneg => simp at hmem
    | failed msg => simp at hmem
    | looked txt hnone =>
      match l, hput with
      | [_, _, _], hput =>
        simp only [List.cons_append, List.nil_append, List.cons.injEq, Sigma.mk.injEq,
          AuthzOp.putPos.injEq] at hput
        obtain ⟨rfl, rfl, rfl, ⟨⟨rfl, rfl⟩, -⟩, -⟩ := hput
        exact ⟨j, t, txt, ⟨cached, [], hl⟩, rfl⟩
      | [], hput => simp at hput
      | [_], hput => simp at hput
      | [_, _], hput => simp at hput
      | _ :: _ :: _ :: _ :: _, hput => simp at hput

/-- Every entry, and every hit, comes from a successful lookup. -/
theorem cache_provenance (hr : AuthzRun G cfg start iss org tr w pool) :
    (∀ d e, w.cache.pos d = some e → Provenance cfg tr d e) ∧ Admits (HitProvenance cfg) tr := by
  induction hr with
  | start =>
    refine ⟨?_, ?_⟩
    · rintro d e ⟨⟩
    · rintro pre ev post heq
      simp at heq
  | env hr he ih => exact he.elim
  | @step tr w w' pool j o k a hr hc hs ih =>
    obtain ⟨hpos, hadmits⟩ := ih
    have hold : ∀ d e, w.cache.pos d = some e → Provenance cfg (tr ++ [⟨j, o, a⟩]) d e := by
      intro d e he
      obtain ⟨i, t₀, txt, hlooked, heq⟩ := hpos d e he
      exact ⟨i, t₀, txt, hlooked.append _, heq⟩
    cases hs with
    | now t ht =>
      refine ⟨hold, hadmits.concat ?_⟩
      rintro i d e neg ⟨⟩
    | readCache d' =>
      refine ⟨hold, hadmits.concat ?_⟩
      intro i d e neg heq
      obtain ⟨rfl, hd, hans⟩ := Event.mk.inj heq
      cases hd
      exact hpos d' e (Prod.mk.inj (eq_of_heq hans)).1
    | lookupTXT name a =>
      refine ⟨hold, hadmits.concat ?_⟩
      rintro i d e neg ⟨⟩
    | putNeg d' expiry =>
      refine ⟨hold, hadmits.concat ?_⟩
      rintro i d e neg ⟨⟩
    | putPos d' entry =>
      refine ⟨fun d e he => ?_, hadmits.concat (by rintro i d e neg ⟨⟩)⟩
      change Function.update w.cache.pos d' (some entry) d = some e at he
      by_cases hd : d = d'
      · subst hd
        rw [Function.update_self, Option.some.injEq] at he
        subst he
        obtain ⟨i, t₀, txt, hlooked, heq⟩ := putPos_provenance hr hc
        exact ⟨i, t₀, txt, hlooked.append _, heq⟩
      · rw [Function.update_of_ne hd] at he
        exact hold d e he

/-- A call that accepts by the delegate rule used an answer of its own, or one from a call that
had read its clock less than the TTL before and had stored it by then; and no call accepts after
a failed lookup or on a negative entry. -/
theorem delegates_fresh (G : Runtime) (cfg : AuthzConfig) (start : Time) (iss org : ι → Bytes)
    (tr : List (AuthzEvent ι)) (w : AuthzWorld) (pool : ι → AuthzProg (GoM Unit))
    (hr : AuthzRun G cfg start iss org tr w pool) (i : ι) (hret : pool i = .ret (.ok ()))
    (hiss : classify G (iss i) = .domain) (horg : classify G (org i) = .domain)
    (hsub : isSubdomainOf G (iss i) (org i) = false) :
    (∃ d t rest, canonicalDomain G (org i) = .ok d ∧ callsOf i tr = ⟨.now, t⟩ :: rest ∧
      ∃ j t₀ txt, listed G (iss i) (extractDelegates txt) = true ∧
        ((j = i ∧ t₀ = t ∧ LookedUp tr j t₀ d txt) ∨
          (t.nanos - cfg.positiveCacheTTL < t₀.nanos ∧ ∃ pre cached post,
            tr = pre ++ ⟨i, .readCache d, cached⟩ :: post ∧ LookedUp pre j t₀ d txt))) ∧
    ¬ LookupFailed (callsOf i tr) := by
  have hpath : Prog.Path (authorizer G cfg (iss i) (org i)) (callsOf i tr) (.ok ()) := by
    have hdone : Prog.Path (pool i) [] (.ok ()) := by
      rw [hret]
      exact .ret _
    simpa using hr.path hdone
  rcases authorizer_path hpath with ⟨-, hrule⟩ | ⟨d, t, cached, x, hd, hcalls, hx⟩
  · rw [hrule rfl hiss horg] at hsub
    cases hsub
  · obtain ⟨delegates, rfl, hlisted⟩ := afterDelegates_eq_ok.mp hx.symm
    refine ⟨?_, hcalls.not_failed⟩
    generalize hl : callsOf i tr = l at hcalls
    cases hcalls with
    | hit e he hfresh =>
      -- The hit was an entry with a provenance when the cache was read.
      have hmem : (⟨i, .readCache d, cached⟩ : AuthzEvent ι) ∈ tr := by
        rw [← mem_callsOf, hl]
        simp
      obtain ⟨pre, post, rfl⟩ := List.append_of_mem hmem
      obtain ⟨j, t₀, txt, hlooked, rfl⟩ := (cache_provenance hr).2 pre _ post rfl i d e cached.2
        (by rw [← he])
      rw [Time.after_iff, Time.nanos_add] at hfresh
      exact ⟨d, t, _, hd, rfl, j, t₀, txt, hlisted, .inr
        ⟨by omega, pre, cached, post, rfl, hlooked⟩⟩
    | looked txt hnone =>
      exact ⟨d, t, _, hd, rfl, i, t, txt, hlisted, .inl ⟨rfl, rfl, cached, _, hl⟩⟩

end

/-! ### Two calls for `b.co` and `a.co`

The first reads its clock at 0 and waits for the lock; the second reads its clock at 5, looks up
the delegates and stores them. -/

def cacheAnswer : List Bytes := [bytes "delegate=b.co"]

def cacheHit : CacheEntry := ⟨extractDelegates cacheAnswer, (Time.ofUnix 5).add 60000000000⟩

/-- The calls of the run, in order. -/
def cacheTrace : List (AuthzEvent Bool) :=
  [⟨false, .now, Time.ofUnix 0⟩, ⟨true, .now, Time.ofUnix 5⟩,
   ⟨true, .readCache (bytes "a.co"), (none, none)⟩,
   ⟨true, .lookupTXT (shadownetName (bytes "a.co")), .ok cacheAnswer⟩,
   ⟨true, .putPos (bytes "a.co") cacheHit, ()⟩,
   ⟨false, .readCache (bytes "a.co"), (some cacheHit, none)⟩]

/-- The maps after the second call. -/
def cacheWorld : AuthzWorld :=
  ⟨⟨Function.update (fun _ => none) (bytes "a.co") (some cacheHit), fun _ => none⟩, Time.ofUnix 5⟩

theorem cacheRace_run : ∃ w pool, AuthzRun plainRuntime (newAuthorizer 0 0) (Time.ofUnix 0)
    (fun _ : Bool => bytes "b.co") (fun _ => bytes "a.co") cacheTrace w pool ∧
    pool false = .ret (.ok ()) := by
  have hiss : classify plainRuntime (bytes "b.co") = .domain := by decide
  have horg : classify plainRuntime (bytes "a.co") = .domain := by decide
  have hsub : isSubdomainOf plainRuntime (bytes "b.co") (bytes "a.co") = false := by decide
  have hd : canonicalDomain plainRuntime (bytes "a.co") = .ok (bytes "a.co") := by decide
  have hlisted : listed plainRuntime (bytes "b.co") (extractDelegates cacheAnswer) = true := by
    decide
  have hhit : Prog.Path (authorizer plainRuntime (newAuthorizer 0 0) (bytes "b.co") (bytes "a.co"))
      ([⟨.now, Time.ofUnix 0⟩] ++ [⟨.readCache (bytes "a.co"), (some cacheHit, none)⟩]) (.ok ()) :=
    hit_path hiss horg hsub hd (by decide) hlisted
  have hlook : Prog.Path (authorizer plainRuntime (newAuthorizer 0 0) (bytes "b.co") (bytes "a.co"))
      ([⟨.now, Time.ofUnix 5⟩, ⟨.readCache (bytes "a.co"), (none, none)⟩,
        ⟨.lookupTXT (shadownetName (bytes "a.co")), .ok cacheAnswer⟩,
        ⟨.putPos (bytes "a.co") cacheHit, ()⟩] ++ []) (.ok ()) :=
    looked_path hiss horg hsub hd hlisted
  have hstart : AuthzRun plainRuntime (newAuthorizer 0 0) (Time.ofUnix 0)
      (fun _ : Bool => bytes "b.co") (fun _ => bytes "a.co") [] _ _ := .start
  -- The first call reads its clock.
  have he₁ : Evolves AuthzHandle ⟨.empty, Time.ofUnix 0⟩ [⟨.now, Time.ofUnix 0⟩]
      ⟨.empty, Time.ofUnix 0⟩ := .cons (.now _ _ le_rfl) (.nil _)
  -- The second runs from its clock reading to the write.
  have he₂ : Evolves AuthzHandle ⟨.empty, Time.ofUnix 0⟩
      [⟨.now, Time.ofUnix 5⟩, ⟨.readCache (bytes "a.co"), (none, none)⟩,
        ⟨.lookupTXT (shadownetName (bytes "a.co")), .ok cacheAnswer⟩,
        ⟨.putPos (bytes "a.co") cacheHit, ()⟩] cacheWorld :=
    .cons (.now _ _ (by decide)) (.cons (.readCache _ _) (.cons (.lookupTXT _ _ _)
      (.cons (.putPos _ _ _) (.nil _))))
  -- The first finds what the second wrote.
  have hread : cacheWorld.cache.pos (bytes "a.co") = some cacheHit := by
    show Function.update (fun _ => none) (bytes "a.co") (some cacheHit) (bytes "a.co") = _
    rw [Function.update_self]
  have he₃ : Evolves AuthzHandle cacheWorld
      [⟨.readCache (bytes "a.co"), (some cacheHit, none)⟩] cacheWorld := by
    rw [← hread]
    exact .cons (.readCache cacheWorld (bytes "a.co")) (.nil _)
  obtain ⟨pool, hr, hfalse, -⟩ := hstart.overlap (i := false) (j := true) (by decide) hhit hlook
    he₁ he₂ he₃ (.nil _)
  exact ⟨_, pool, hr, hfalse⟩

theorem hit_from_the_future :
    ∃ tr w pool, AuthzRun plainRuntime (newAuthorizer 0 0) (Time.ofUnix 0)
        (fun _ : Bool => bytes "b.co") (fun _ => bytes "a.co") tr w pool ∧
      pool false = .ret (.ok ()) ∧ classify plainRuntime (bytes "b.co") = .domain ∧
      classify plainRuntime (bytes "a.co") = .domain ∧
      isSubdomainOf plainRuntime (bytes "b.co") (bytes "a.co") = false ∧
      ¬ ∃ d t rest, canonicalDomain plainRuntime (bytes "a.co") = .ok d ∧
        callsOf false tr = ⟨.now, t⟩ :: rest ∧
        ∃ j t₀ txt, LookedUp tr j t₀ d txt ∧
          t.nanos - (newAuthorizer 0 0).positiveCacheTTL < t₀.nanos ∧ t₀.nanos ≤ t.nanos ∧
          listed plainRuntime (bytes "b.co") (extractDelegates txt) = true := by
  obtain ⟨w, pool, hr, hret⟩ := cacheRace_run
  refine ⟨cacheTrace, w, pool, hr, hret, by decide, by decide, by decide, ?_⟩
  rintro ⟨d, t, rest, -, hcalls, j, t₀, txt, ⟨cached, rest', hlooked⟩, -, hle, -⟩
  have hfalse : callsOf false cacheTrace = [⟨.now, Time.ofUnix 0⟩,
      ⟨.readCache (bytes "a.co"), (some cacheHit, none)⟩] := rfl
  have htrue : callsOf true cacheTrace = [⟨.now, Time.ofUnix 5⟩,
      ⟨.readCache (bytes "a.co"), (none, none)⟩,
      ⟨.lookupTXT (shadownetName (bytes "a.co")), .ok cacheAnswer⟩,
      ⟨.putPos (bytes "a.co") cacheHit, ()⟩] := rfl
  have ht : t = Time.ofUnix 0 := by
    rw [hfalse] at hcalls
    exact (eq_of_heq (Sigma.mk.inj (List.cons.inj hcalls).1).2).symm
  cases j with
  | false =>
    rw [hfalse] at hlooked
    simp at hlooked
  | true =>
    rw [htrue] at hlooked
    have ht₀ : t₀ = Time.ofUnix 5 := (eq_of_heq (Sigma.mk.inj (List.cons.inj hlooked).1).2).symm
    rw [ht, ht₀] at hle
    exact absurd hle (by decide)

/-- The first of the two calls, by the general result. -/
theorem delegates_fresh_race :
    ∃ w pool, AuthzRun plainRuntime (newAuthorizer 0 0) (Time.ofUnix 0)
        (fun _ : Bool => bytes "b.co") (fun _ => bytes "a.co") cacheTrace w pool ∧
      (∃ d t rest, canonicalDomain plainRuntime (bytes "a.co") = .ok d ∧
        callsOf false cacheTrace = ⟨.now, t⟩ :: rest ∧
        ∃ j t₀ txt, listed plainRuntime (bytes "b.co") (extractDelegates txt) = true ∧
          ((j = false ∧ t₀ = t ∧ LookedUp cacheTrace j t₀ d txt) ∨
            (t.nanos - (newAuthorizer 0 0).positiveCacheTTL < t₀.nanos ∧ ∃ pre cached post,
              cacheTrace = pre ++ ⟨false, .readCache d, cached⟩ :: post ∧
              LookedUp pre j t₀ d txt))) ∧
      ¬ LookupFailed (callsOf false cacheTrace) := by
  obtain ⟨w, pool, hr, hret⟩ := cacheRace_run
  exact ⟨w, pool, hr, delegates_fresh plainRuntime (newAuthorizer 0 0) (Time.ofUnix 0) _ _
    cacheTrace
    w pool hr false hret (by decide) (by decide) (by decide)⟩

end Shadownet.Issuer
