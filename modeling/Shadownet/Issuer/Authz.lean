import Shadownet.Foundation.Fallible
import Shadownet.Go.Ascii
import Shadownet.Issuer.Possession

/-!
# Who may issue for an organisation

`core/internal/issuer/authz.go`: an issuer may issue for itself, for a parent domain, or for a
domain that lists it as a delegate in DNS. The delegates of a domain are cached; the two maps of
the cache are read and written under a mutex, the lookup runs outside it. `authorize` is a
program over these calls.

* `authorize_sound_iff`: when acceptance means one of the three rules.
-/

namespace Shadownet.Issuer

open Foundation Go

/-! ## The delegates in a TXT answer -/

/-- `strings.Split(s, ";")`, each part trimmed, the empty ones dropped. -/
def splitTokens (s : Bytes) : List Bytes :=
  ((s.splitOn 0x3B).map trimSpace).filter (· ≠ [])

def delegateOf (token : Bytes) : Option Bytes :=
  if (bytes "delegate=").isPrefixOf token then some (token.drop 9) else none

def extractDelegates (txt : List Bytes) : List Bytes :=
  txt.flatMap fun line => (splitTokens line).filterMap delegateOf

/-! ## The calls -/

/-- `AuthzConfig` with its defaults filled in; durations in nanoseconds. -/
structure AuthzConfig where
  positiveCacheTTL : Int
  negativeCacheTTL : Int

/-- The durations `NewAuthorizer` fills in. -/
def newAuthorizer (positiveCacheTTL negativeCacheTTL : Int) : AuthzConfig where
  positiveCacheTTL := if positiveCacheTTL = 0 then 60000000000 else positiveCacheTTL
  negativeCacheTTL := if negativeCacheTTL = 0 then 10000000000 else negativeCacheTTL

structure CacheEntry where
  delegates : List Bytes
  expiresAt : Time

inductive AuthzOp where
  | now
  /-- The entries of the two maps for a domain, read in one locked section. -/
  | readCache (org : Bytes)
  | lookupTXT (name : Bytes)
  | putNeg (org : Bytes) (expiry : Time)
  | putPos (org : Bytes) (entry : CacheEntry)

@[reducible] def AuthzAns : AuthzOp → Type
  | .now => Time
  | .readCache _ => Option CacheEntry × Option Time
  | .lookupTXT _ => GoM (List Bytes)
  | .putNeg _ _ => Unit
  | .putPos _ _ => Unit

abbrev AuthzProg (α : Type) := Prog AuthzOp AuthzAns α

/-! ## Looking up the delegates -/

def shadownetName (org : Bytes) : Bytes := bytes "_shadownet." ++ org

/-- `lookupDelegates` on the answer of the resolver. -/
def afterTXT (cfg : AuthzConfig) (org : Bytes) (now : Time) :
    GoM (List Bytes) → AuthzProg (GoM (List Bytes))
  | .error e => do
    let _ ← Prog.op (AuthzOp.putNeg org (now.add cfg.negativeCacheTTL))
    pure (.error e)
  | .ok txt => do
    let delegates := extractDelegates txt
    let _ ← Prog.op (AuthzOp.putPos org ⟨delegates, now.add cfg.positiveCacheTTL⟩)
    pure (.ok delegates)

/-- `lookupDelegates` on what the cache has. -/
def afterCache (cfg : AuthzConfig) (org : Bytes) (now : Time)
    (cached : Option CacheEntry × Option Time) : AuthzProg (GoM (List Bytes)) :=
  match cached.1.filter (·.expiresAt.after now) with
  | some entry => pure (.ok entry.delegates)
  | none =>
    if cached.2.any (·.after now) then
      pure (.error (bytes "recent negative cache: no delegates / lookup failed"))
    else do
      let txt ← Prog.op (AuthzOp.lookupTXT (shadownetName org))
      afterTXT cfg org now txt

/-- `lookupDelegates`. -/
def lookupDelegates (G : Runtime) (cfg : AuthzConfig) (org : Bytes) :
    AuthzProg (GoM (List Bytes)) :=
  match canonicalDomain G org with
  | .error e => pure (.error e)
  | .ok canonicalOrg => do
    let now ← Prog.op AuthzOp.now
    let cached ← Prog.op (AuthzOp.readCache canonicalOrg)
    afterCache cfg canonicalOrg now cached

/-! ## Authorize -/

/-- `ErrNotAuthorized` with the detail after it. -/
def notAuthorized (detail : Bytes) : Bytes :=
  bytes "issuer: iss not authorized for org per §6.6: " ++ detail

def matchesIssEqOrg (G : Runtime) (iss : Bytes) (issClass : Go.Class) (org : Bytes)
    (orgClass : Go.Class) : Bool :=
  if issClass ≠ orgClass then false
  else
    match issClass with
    | .domain =>
      match canonicalDomain G iss, canonicalDomain G org with
      | .ok c₁, .ok c₂ => c₁ == c₂
      | _, _ => false
    | .pubKey => iss == org
    | _ => false

/-- The comparison of the loop over the delegates. -/
def listed (G : Runtime) (iss : Bytes) (delegates : List Bytes) : Bool :=
  delegates.any fun d => G.lower (trimDot d) == G.lower (trimDot iss)

/-- `Authorize` on the delegates. -/
def afterDelegates (G : Runtime) (iss org : Bytes) : GoM (List Bytes) → GoM Unit
  | .error e => throw (notAuthorized (bytes "delegate lookup: " ++ e))
  | .ok delegates =>
    if listed G iss delegates then pure ()
    else throw (notAuthorized (bytes "iss=" ++ G.quote iss ++ bytes " org=" ++ G.quote org))

/-- `Authorizer.Authorize`. -/
def authorizer (G : Runtime) (cfg : AuthzConfig) (iss org : Bytes) : AuthzProg (GoM Unit) :=
  let issClass := classify G iss
  let orgClass := classify G org
  if issClass = .unknown ∨ orgClass = .unknown then
    pure (throw (notAuthorized (bytes "unknown identifier class (iss=" ++ bytes issClass.string ++
      bytes " org=" ++ bytes orgClass.string ++ bytes ")")))
  else if matchesIssEqOrg G iss issClass org orgClass then pure (pure ())
  else if issClass = .pubKey ∨ orgClass = .pubKey then
    pure (throw (notAuthorized (bytes "keyed issuer requires iss == org")))
  else if isSubdomainOf G iss org then pure (pure ())
  else do
    let delegates ← lookupDelegates G cfg org
    pure (afterDelegates G iss org delegates)

/-! ## One call -/

/-- The maps of an `Authorizer`. -/
structure DelegateCache where
  pos : Bytes → Option CacheEntry
  neg : Bytes → Option Time

/-- The maps `NewAuthorizer` makes. -/
def DelegateCache.empty : DelegateCache := ⟨fun _ => none, fun _ => none⟩

/-- The calls of one `Authorize` at one clock reading, with a resolver. -/
def DelegateCache.answer (now : Time) (resolver : Bytes → GoM (List Bytes)) (c : DelegateCache) :
    (o : AuthzOp) → AuthzAns o × DelegateCache
  | .now => (now, c)
  | .readCache org => ((c.pos org, c.neg org), c)
  | .lookupTXT name => (resolver name, c)
  | .putNeg org expiry => ((), { c with neg := Function.update c.neg org (some expiry) })
  | .putPos org entry => ((), { c with pos := Function.update c.pos org (some entry) })

/-- `Authorize` on a cache, at a clock reading, with a resolver. -/
def authorizeWith (G : Runtime) (cfg : AuthzConfig) (c : DelegateCache) (now : Time)
    (resolver : Bytes → GoM (List Bytes)) (iss org : Bytes) : GoM Unit :=
  ((authorizer G cfg iss org).execute (DelegateCache.answer now resolver) c).1

/-- The delegates of a domain in its canonical form: those of an unexpired entry, or else those
of the TXT answer unless a failure is remembered. -/
def delegatesInForce (c : DelegateCache) (now : Time) (resolver : Bytes → GoM (List Bytes))
    (org : Bytes) : GoM (List Bytes) :=
  match (c.pos org).filter (·.expiresAt.after now) with
  | some entry => .ok entry.delegates
  | none =>
    if (c.neg org).any (·.after now) then
      .error (bytes "recent negative cache: no delegates / lookup failed")
    else (resolver (shadownetName org)).map extractDelegates

section
variable (G : Runtime) (cfg : AuthzConfig) (c : DelegateCache) (now : Time)
  (resolver : Bytes → GoM (List Bytes)) (iss org : Bytes)

theorem execute_lookupDelegates :
    ((lookupDelegates G cfg org).execute (DelegateCache.answer now resolver) c).1 =
      canonicalDomain G org >>= delegatesInForce c now resolver := by
  rw [lookupDelegates]
  cases canonicalDomain G org with
  | error e => rfl
  | ok canonicalOrg =>
    rw [ok_bind, delegatesInForce]
    show ((afterCache cfg canonicalOrg now (c.pos canonicalOrg, c.neg canonicalOrg)).execute _
      c).1 = _
    rw [afterCache]
    cases (c.pos canonicalOrg).filter (·.expiresAt.after now) with
    | some entry => rfl
    | none =>
      dsimp only
      split_ifs
      · rfl
      · show ((afterTXT cfg canonicalOrg now (resolver (shadownetName canonicalOrg))).execute _ c).1
          = _
        cases resolver (shadownetName canonicalOrg) <;> rfl

/-- `Authorize`, without its calls. -/
theorem authorizeWith_eq :
    authorizeWith G cfg c now resolver iss org =
      if classify G iss = .unknown ∨ classify G org = .unknown then
        throw (notAuthorized (bytes "unknown identifier class (iss=" ++
          bytes (classify G iss).string ++ bytes " org=" ++ bytes (classify G org).string ++
          bytes ")"))
      else if matchesIssEqOrg G iss (classify G iss) org (classify G org) then pure ()
      else if classify G iss = .pubKey ∨ classify G org = .pubKey then
        throw (notAuthorized (bytes "keyed issuer requires iss == org"))
      else if isSubdomainOf G iss org then pure ()
      else afterDelegates G iss org (canonicalDomain G org >>=
        delegatesInForce c now resolver) := by
  rw [authorizeWith, authorizer]
  split_ifs
  · rfl
  · rfl
  · rfl
  · rfl
  · rw [Prog.execute_bind, execute_lookupDelegates]
    rfl

/-- One of the three rules of the authorisation. -/
def AuthorizedFor : Prop :=
  (classify G iss = .pubKey ∧ classify G org = .pubKey ∧ iss = org) ∨
    (classify G iss = .domain ∧ classify G org = .domain ∧
      ((∃ d, canonicalDomain G iss = .ok d ∧ canonicalDomain G org = .ok d) ∨
        isSubdomainOf G iss org = true ∨
        ∃ d delegates, canonicalDomain G org = .ok d ∧
          delegatesInForce c now resolver d = .ok delegates ∧ listed G iss delegates = true))

/-- The issuer is a Shadowname and the domain lists it. -/
def ShadownameListed : Prop :=
  classify G iss = .shadowname ∧ classify G org = .domain ∧
    ∃ d delegates, canonicalDomain G org = .ok d ∧
      delegatesInForce c now resolver d = .ok delegates ∧ listed G iss delegates = true

variable {G cfg c now resolver iss org}

theorem afterDelegates_eq_ok {x : GoM (List Bytes)} :
    afterDelegates G iss org x = .ok () ↔ ∃ delegates, x = .ok delegates ∧
      listed G iss delegates = true := by
  cases x with
  | error e => simp [afterDelegates]
  | ok delegates =>
    simp only [afterDelegates, Except.ok.injEq, exists_eq_left']
    split_ifs with h <;> simp [h]

theorem delegates_eq_ok {delegates : List Bytes} :
    (canonicalDomain G org >>= delegatesInForce c now resolver) = .ok delegates ↔
      ∃ d, canonicalDomain G org = .ok d ∧ delegatesInForce c now resolver d = .ok delegates :=
  bind_eq_ok

theorem isSubdomainOf_of_shadowname
    (h : classify G iss = .shadowname ∨ classify G org = .shadowname) :
    isSubdomainOf G iss org = false := by
  rw [isSubdomainOf]
  rcases h with h | h
  · obtain ⟨e, he⟩ := canonicalDomain_of_shadowname h
    rw [he]
  · obtain ⟨e, he⟩ := canonicalDomain_of_shadowname h
    rw [he]
    cases canonicalDomain G iss <;> rfl

/-- The delegate rule for a domain. -/
theorem afterDelegates_delegates_eq_ok :
    afterDelegates G iss org (canonicalDomain G org >>= delegatesInForce c now resolver) = .ok () ↔
      ∃ d delegates, canonicalDomain G org = .ok d ∧
        delegatesInForce c now resolver d = .ok delegates ∧ listed G iss delegates = true := by
  simp only [afterDelegates_eq_ok, delegates_eq_ok]
  constructor
  · rintro ⟨delegates, ⟨d, hd, hforce⟩, hlisted⟩
    exact ⟨d, delegates, hd, hforce, hlisted⟩
  · rintro ⟨d, delegates, hd, hforce, hlisted⟩
    exact ⟨delegates, ⟨d, hd, hforce⟩, hlisted⟩

/-- A Shadowname has no delegates. -/
theorem afterDelegates_of_shadowname (h : classify G org = .shadowname) :
    afterDelegates G iss org (canonicalDomain G org >>= delegatesInForce c now resolver) ≠
      .ok () := by
  rw [Ne, afterDelegates_delegates_eq_ok]
  rintro ⟨d, delegates, hd, -⟩
  obtain ⟨e, he⟩ := canonicalDomain_of_shadowname h
  rw [he] at hd
  cases hd

theorem matchesIssEqOrg_domain :
    matchesIssEqOrg G iss .domain org .domain = true ↔
      ∃ d, canonicalDomain G iss = .ok d ∧ canonicalDomain G org = .ok d := by
  rw [matchesIssEqOrg, if_neg (by simp)]
  cases canonicalDomain G iss with
  | error e => simp
  | ok d =>
    cases canonicalDomain G org with
    | error e => simp
    | ok d' =>
      simp only [beq_iff_eq, Except.ok.injEq]
      exact ⟨fun h => ⟨d, rfl, h.symm⟩, fun ⟨_, h, h'⟩ => h.trans h'.symm⟩

/-- What acceptance amounts to: one of the rules, or a listed Shadowname. -/
theorem authorizeWith_eq_ok :
    authorizeWith G cfg c now resolver iss org = .ok () ↔
      AuthorizedFor G c now resolver iss org ∨ ShadownameListed G c now resolver iss org := by
  rw [authorizeWith_eq, AuthorizedFor, ShadownameListed]
  cases hi : classify G iss with
  | unknown => simp
  | pubKey =>
    cases ho : classify G org with
    | pubKey =>
      by_cases heq : iss = org
      · simp [matchesIssEqOrg, heq]
      · simp [matchesIssEqOrg, heq]
    | _ => simp [matchesIssEqOrg]
  | domain =>
    cases ho : classify G org with
    | domain =>
      simp only [← matchesIssEqOrg_domain, ← afterDelegates_delegates_eq_ok]
      by_cases hmatch : matchesIssEqOrg G iss .domain org .domain = true
      · simp [hmatch]
      · by_cases hsub : isSubdomainOf G iss org = true
        · simp [hmatch, hsub]
        · simp [hmatch, hsub]
    | shadowname =>
      simp [matchesIssEqOrg, isSubdomainOf_of_shadowname (.inr ho), afterDelegates_of_shadowname ho]
    | _ => simp [matchesIssEqOrg]
  | shadowname =>
    cases ho : classify G org with
    | domain =>
      simp only [← afterDelegates_delegates_eq_ok]
      simp [matchesIssEqOrg, isSubdomainOf_of_shadowname (.inl hi)]
    | shadowname =>
      simp [matchesIssEqOrg, isSubdomainOf_of_shadowname (.inl hi), afterDelegates_of_shadowname ho]
    | _ => simp [matchesIssEqOrg]

end

/-- `Authorize` accepts by one of the rules only, exactly when the issuer is not a Shadowname
that the domain lists. -/
theorem authorize_sound_iff (G : Runtime) (cfg : AuthzConfig) (c : DelegateCache) (now : Time)
    (resolver : Bytes → GoM (List Bytes)) (iss org : Bytes) :
    (authorizeWith G cfg c now resolver iss org = .ok () →
      AuthorizedFor G c now resolver iss org) ↔ ¬ ShadownameListed G c now resolver iss org := by
  rw [authorizeWith_eq_ok]
  constructor
  · intro h hlisted
    rcases h (.inr hlisted) with ⟨hkey, -⟩ | ⟨hdomain, -⟩
    · rw [hlisted.1] at hkey
      cases hkey
    · rw [hlisted.1] at hdomain
      cases hdomain
  · rintro h (hrule | hlisted)
    · exact hrule
    · exact absurd hlisted h

/-! ### A domain that lists a Shadowname -/

/-- The TXT answer of `a.co`. -/
def aliceResolver (name : Bytes) : GoM (List Bytes) :=
  if name = bytes "_shadownet.a.co" then .ok [bytes "v=0.2; delegate=alice@a.co"]
  else .error (bytes "no such host")

theorem shadowname_authorized :
    ¬ (authorizeWith plainRuntime (newAuthorizer 0 0) .empty (Time.ofUnix 0) aliceResolver
        (bytes "alice@a.co") (bytes "a.co") = .ok () →
      AuthorizedFor plainRuntime .empty (Time.ofUnix 0) aliceResolver (bytes "alice@a.co")
        (bytes "a.co")) := by
  rw [authorizeWith_eq_ok]
  have hiss : classify plainRuntime (bytes "alice@a.co") = .shadowname := by decide
  have hlisted : ShadownameListed plainRuntime .empty (Time.ofUnix 0) aliceResolver
      (bytes "alice@a.co") (bytes "a.co") :=
    ⟨hiss, by decide, bytes "a.co", [bytes "alice@a.co"], by decide,
      by decide, by decide⟩
  intro h
  rcases h (.inr hlisted) with ⟨hkey, -⟩ | ⟨hdomain, -⟩
  · rw [hiss] at hkey
    cases hkey
  · rw [hiss] at hdomain
    cases hdomain

end Shadownet.Issuer
