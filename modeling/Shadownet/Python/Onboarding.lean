import Shadownet.Python.Addressing
import Shadownet.Python.Binding

/-!
# Connect URIs

`parse_connect_uri` of `shadownet/onboarding.py`, and which exceptions it and
`parse_shadow_address` raise. Neither catches what `urlparse`, `.port` and `parse_qsl` raise.

* `raises_own_errors_iff`: the texts for which nothing but the parser's own error is raised.
-/

namespace Shadownet.Python

open Foundation

def connectURIError (msg : Text) : Exc := ⟨.connectURIError, msg⟩

/-- `ConnectURI`. -/
structure ConnectURI where
  mcpEndpoint : Text
  accessToken : Option Text
  handoffCode : Option Text
  deriving DecidableEq

/-- `_HANDOFF_PATTERN.match`. -/
def handoffRe (s : Text) : Bool :=
  matchesBeforeEnd (fun s => 16 ≤ s.length && s.length ≤ 128 &&
    s.all fun c => isAlnum c || c == 46 || c == 95 || c == 45) s

/-- `_LOOPBACK_PREFIXES`. -/
def loopbackPrefixes : List Text :=
  [text "http://localhost", text "http://127.0.0.1", text "http://[::1]"]

/-- The loop over the pairs of the query; `seen` is a `dict`. -/
def collectPairs (G : Runtime) : List (Text × Text) → List (Text × Text) → Py (List (Text × Text))
  | seen, [] => pure seen
  | seen, (key, value) :: pairs =>
    if (seen.lookup key).isSome then
      throw (connectURIError (text "duplicate query parameter " ++ G.reprStr key))
    else collectPairs G (seen ++ [(key, value)]) pairs

/-- The checks of the parameters. -/
def connectUriFrom (G : Runtime) (seen : List (Text × Text)) : Py ConnectURI :=
  let mcpEndpoint := (seen.lookup (text "mcp")).getD []
  let accessToken := seen.lookup (text "token")
  let handoffCode := seen.lookup (text "handoff")
  if mcpEndpoint = [] then
    throw (connectURIError (text "missing required parameter 'mcp'"))
  else if ¬ (text "https://").isPrefixOf mcpEndpoint ∧
      ¬ loopbackPrefixes.any (·.isPrefixOf mcpEndpoint) then
    throw (connectURIError (text "mcp endpoint must be https:// (or loopback http://), got " ++
      G.reprStr mcpEndpoint))
  else if accessToken.isNone = handoffCode.isNone then
    throw (connectURIError (
      text "exactly one of 'token' or 'handoff' MUST be present (got both or neither)"))
  else if ¬ handoffCode.all handoffRe then
    throw (connectURIError (text "handoff code does not match 16*128(ALPHA / DIGIT / '._-'): " ++
      G.reprStr (handoffCode.getD [])))
  else pure ⟨mcpEndpoint, accessToken, handoffCode⟩

/-- `parse_connect_uri` after the URL is split. -/
def connectUriOf (G : Runtime) (parts : ParseResult) : Py ConnectURI :=
  if parts.scheme ≠ text "shadow" then
    throw (connectURIError (text "URI scheme must be " ++ G.reprStr (text "shadow") ++
      text ", got " ++ G.reprStr parts.scheme))
  else if parts.netloc ≠ text "connect" then
    throw (connectURIError (text "URI authority must be " ++ G.reprStr (text "connect") ++
      text ", got " ++ G.reprStr parts.netloc))
  else if parts.path ≠ [] ∧ parts.path ≠ [47] then
    throw (connectURIError (text "URI path must be empty or '/', got " ++ G.reprStr parts.path))
  else if parts.fragment ≠ [] then
    throw (connectURIError (text "URI MUST NOT carry a fragment"))
  else do
    let pairs ← parseQsl G parts.query
    let seen ← collectPairs G [] pairs
    connectUriFrom G seen

def parseConnectUri (G : Runtime) (nfkc : Text → Text) (uri : Text) : Py ConnectURI := do
  let parts ← urlparse G nfkc uri
  connectUriOf G parts

/-! ## Exceptions of a computation -/

/-- Whether a computation ends in a bare `ValueError`. -/
def raisesValueError {α : Type} : Py α → Bool
  | .ok _ => false
  | .error e => decide (e.cls = .valueError)

theorem exists_of_raises {α : Type} {x : Py α} (h : raisesValueError x = true) :
    ∃ e, x = .error e ∧ e.cls = .valueError := by
  cases x with
  | ok a => cases h
  | error e => exact ⟨e, rfl, of_decide_eq_true h⟩

theorem cls_shadowAddressError (msg : Text) :
    (shadowAddressError msg).cls = .shadowAddressError := rfl

theorem cls_connectURIError (msg : Text) : (connectURIError msg).cls = .connectURIError := rfl

/-! ## What the pieces raise -/

theorem urlparse_ok {G : Runtime} {nfkc : Text → Text} {url : Text}
    (h : authorityOk nfkc (splitUrl url).netloc = true) :
    urlparse G nfkc url = .ok (splitUrl url) := by
  rw [urlparse]
  exact if_neg (not_not.mpr h)

theorem urlparse_error {G : Runtime} {nfkc : Text → Text} {url : Text}
    (h : ¬ authorityOk nfkc (splitUrl url).netloc = true) :
    ∃ e, urlparse G nfkc url = .error e ∧ e.cls = .valueError := by
  rw [urlparse]
  exact ⟨_, if_pos h, rfl⟩

theorem port_ok {G : Runtime} {p : ParseResult} (h : p.portOk = true) : ∃ n, p.port G = .ok n := by
  simp only [ParseResult.portOk, Bool.and_eq_true, decide_eq_true_eq] at h
  obtain ⟨⟨hdigits, hlen⟩, hval⟩ := h
  rw [ParseResult.port]
  by_cases hempty : (hostinfo p.netloc).2 = []
  · exact ⟨none, if_pos hempty⟩
  · rw [if_neg hempty, if_neg (not_not.mpr hdigits), if_neg (by omega), if_neg (by omega)]
    exact ⟨_, rfl⟩

theorem port_error {G : Runtime} {p : ParseResult} (h : ¬ p.portOk = true) :
    ∃ e, p.port G = .error e ∧ e.cls = .valueError := by
  simp only [ParseResult.portOk, Bool.and_eq_true, decide_eq_true_eq, not_and] at h
  rw [ParseResult.port]
  by_cases hempty : (hostinfo p.netloc).2 = []
  · rw [hempty] at h
    exact absurd (by decide) (h ⟨rfl, by decide⟩)
  · rw [if_neg hempty]
    by_cases hdigits : (hostinfo p.netloc).2.all isAsciiDigit = true
    · rw [if_neg (not_not.mpr hdigits)]
      by_cases hlen : 4300 < (hostinfo p.netloc).2.length
      · rw [if_pos hlen]
        exact ⟨_, rfl, rfl⟩
      · have hval := h ⟨hdigits, by omega⟩
        rw [if_neg hlen, if_pos (by omega)]
        exact ⟨_, rfl, rfl⟩
    · rw [if_pos hdigits]
      exact ⟨_, rfl, rfl⟩

/-- Each field of a query has an equals sign. -/
def FieldsOk (query : Text) : Prop :=
  query = [] ∨ ∀ field ∈ query.splitOn 38, (61 : CodePoint) ∈ field

theorem parseFields_ok {G : Runtime} {fields : List Text}
    (h : ∀ field ∈ fields, (61 : CodePoint) ∈ field) :
    ∃ pairs, parseFields G fields = .ok pairs := by
  induction fields with
  | nil => exact ⟨[], rfl⟩
  | cons field fields ih =>
    rw [List.forall_mem_cons] at h
    obtain ⟨pairs, hpairs⟩ := ih h.2
    obtain ⟨name, value, rfl, hname⟩ := List.eq_append_cons_of_mem h.1
    rw [parseFields, partition_append hname]
    simp only [not_true_eq_false, if_false, hpairs]
    exact ⟨_, rfl⟩

theorem parseFields_error {G : Runtime} {fields : List Text}
    (h : ¬ ∀ field ∈ fields, (61 : CodePoint) ∈ field) :
    ∃ e, parseFields G fields = .error e ∧ e.cls = .valueError := by
  induction fields with
  | nil => exact absurd nofun h
  | cons field fields ih =>
    rw [List.forall_mem_cons, not_and] at h
    rw [parseFields]
    by_cases hfield : (61 : CodePoint) ∈ field
    · obtain ⟨e, he, hcls⟩ := ih (h hfield)
      obtain ⟨name, value, rfl, hname⟩ := List.eq_append_cons_of_mem hfield
      rw [partition_append hname]
      simp only [not_true_eq_false, if_false, he]
      exact ⟨e, rfl, hcls⟩
    · rw [partition_self hfield]
      simp only [Bool.false_eq_true, not_false_eq_true, if_true]
      exact ⟨_, rfl, rfl⟩

theorem parseQsl_ok {G : Runtime} {query : Text} (h : FieldsOk query) :
    ∃ pairs, parseQsl G query = .ok pairs := by
  rw [parseQsl]
  by_cases hempty : query = []
  · exact ⟨[], if_pos hempty⟩
  · rw [if_neg hempty]
    exact parseFields_ok (h.resolve_left hempty)

theorem parseQsl_error {G : Runtime} {query : Text} (h : ¬ FieldsOk query) :
    ∃ e, parseQsl G query = .error e ∧ e.cls = .valueError := by
  obtain ⟨hempty, hfields⟩ := not_or.mp h
  rw [parseQsl, if_neg hempty]
  exact parseFields_error hfields

/-! ## Addresses -/

theorem raises_canonicalShadowname {G : Runtime} (v : Text) :
    Raises .shadowAddressError (canonicalShadowname G v) :=
  .reraise (.ite (.throw _) (.ite (.throw _) (.bind (raises_validateDomain _) fun _ => .pure _)))
    (by decide) fun _ => rfl

theorem raises_parseTlsPin {G : Runtime} (fragment : Text) :
    Raises .shadowAddressError (parseTlsPin G fragment) := by
  have hdecode : ∀ s e, urlsafeB64decode s = .error e →
      [ExcClass.valueError].any e.cls.isA = true := by
    intro s e h
    rw [List.any_cons, urlsafeB64decode_error h, Bool.true_or]
  exact .ite (.throw _) (.bind (raises_reraise_all (hdecode _) fun _ => rfl) fun digest =>
    .ite (.throw _) (.pure _))

/-- The URI gets as far as its port. -/
def ReadsPort (G : Runtime) (p : ParseResult) : Prop :=
  p.scheme.map lowerAscii = shadowScheme ∧ p.netloc ≠ [] ∧ (p.path = [] ∨ p.path = [47]) ∧
    p.query = [] ∧ p.hostname G ≠ [] ∧ ∃ username, p.username = some username ∧
    if G.lower username = text "key" then
      ∃ password key, p.password = some password ∧ canonicalizeIdentifier G password = .ok key ∧
        isPublicKeyIdentifier key = true
    else p.password = none ∧ username ≠ []

theorem raises_port_iff {β : Type} {G : Runtime} {p : ParseResult} {f : Option Nat → Py β}
    (hf : ∀ n, Raises .shadowAddressError (f n)) :
    Raises .shadowAddressError (p.port G >>= f) ↔ p.portOk = true := by
  refine raises_bind_iff_of_step port_ok (fun h => ?_) hf
  obtain ⟨e, he, hcls⟩ := port_error h
  exact ⟨e, he, by rw [hcls]; decide⟩

theorem raises_parseDirect_iff {G : Runtime} {p : ParseResult} :
    Raises .shadowAddressError (parseDirect G p) ↔
      ((∃ password key, p.password = some password ∧ canonicalizeIdentifier G password = .ok key ∧
        isPublicKeyIdentifier key = true) → p.hostname G ≠ [] → p.portOk = true) := by
  rw [parseDirect]
  cases p.password with
  | none => exact iff_of_true (.throw _) nofun
  | some password =>
    have htail : ∀ (key : Text) (n : Option Nat), Raises .shadowAddressError (do
        let pin ← fragmentPin G p.fragment
        pure ({ publicKey := key, host := p.hostname G, port := n.getD 443
                tlsPinSha256 := pin } : DirectAddress)) := fun key n =>
      .bind (.ite (.pure _) (.bind (raises_parseTlsPin _) fun _ => .pure _)) fun _ => .pure _
    have hkey : Raises .shadowAddressError (reraise [.invalidIdentifierError]
        (fun exc => shadowAddressError (text "invalid pubkey in direct URI: " ++ exc.msg))
        (canonicalizeIdentifier G password)) :=
      .reraise (raises_canonicalizeIdentifier _) (by decide) fun _ => rfl
    refine (raises_bind_iff hkey).trans ?_
    simp only [reraise_eq_ok]
    constructor
    · rintro h ⟨_, key, ⟨⟩, hok, hpub⟩ hhost
      have hnamed := (raises_guard_iff cls_shadowAddressError).mp (h key hok) (not_not.mpr hpub)
      exact (raises_port_iff (htail key)).mp
        ((raises_guard_iff cls_shadowAddressError).mp hnamed hhost)
    · intro h key hok
      refine (raises_guard_iff cls_shadowAddressError).mpr fun hpub =>
        (raises_guard_iff cls_shadowAddressError).mpr fun hhost => ?_
      exact (raises_port_iff (htail key)).mpr (h ⟨password, key, rfl, hok, not_not.mp hpub⟩ hhost)

theorem raises_parseShadownameUri_iff {G : Runtime} {p : ParseResult} :
    Raises .shadowAddressError (parseShadownameUri G p) ↔
      (p.username.getD [] ≠ [] → p.hostname G ≠ [] → p.portOk = true) := by
  have htail : ∀ n : Option Nat, Raises .shadowAddressError (
      if n ≠ none then
        throw (shadowAddressError
          (text "Shadowname URI MUST NOT carry a port (the provider is the resolver)"))
      else if p.fragment ≠ [] then
        throw (shadowAddressError (text "Shadowname URI MUST NOT carry a TLS pin fragment"))
      else canonicalShadowname G (p.username.getD [] ++ 64 :: p.hostname G)) := fun n =>
    .ite (.throw _) (.ite (.throw _) (raises_canonicalShadowname _))
  refine (raises_guard_iff cls_shadowAddressError).trans ?_
  rw [not_or, raises_port_iff htail]
  exact ⟨fun h hname hhost => h ⟨hname, hhost⟩, fun h hboth => h hboth.1 hboth.2⟩

theorem raises_map_iff {α β : Type} {c : ExcClass} {x : Py α} {f : α → β} :
    Raises c (do
      let a ← x
      pure (f a)) ↔ Raises c x := by
  cases x with
  | error e =>
    exact ⟨fun h e' he => h e' (by cases he; rfl), fun h e' he => h e' (by cases he; rfl)⟩
  | ok a => exact iff_of_true nofun nofun

/-- After the URL is split, only the port can raise another exception. -/
theorem raises_shadowAddressOf_iff {G : Runtime} {p : ParseResult} :
    Raises .shadowAddressError (shadowAddressOf G p) ↔ (ReadsPort G p → p.portOk = true) := by
  have hname : ∀ username, p.username = some username →
      (Raises .shadowAddressError (if G.lower username = text "key" then do
          let address ← parseDirect G p
          pure (ShadowAddress.direct address)
        else if p.password ≠ none then
          throw (shadowAddressError (text "unrecognized userinfo type tag " ++
            G.reprStr username ++ text " (only 'key:' is defined)"))
        else do
          let name ← parseShadownameUri G p
          pure (.shadowname name)) ↔
      ((if G.lower username = text "key" then
          ∃ password key, p.password = some password ∧
            canonicalizeIdentifier G password = .ok key ∧ isPublicKeyIdentifier key = true
        else p.password = none ∧ username ≠ []) → p.hostname G ≠ [] → p.portOk = true)) := by
    intro username husername
    by_cases hkey : G.lower username = text "key"
    · rw [if_pos hkey, if_pos hkey, raises_map_iff, raises_parseDirect_iff]
    · rw [if_neg hkey, if_neg hkey]
      rw [raises_guard_iff cls_shadowAddressError, raises_map_iff, raises_parseShadownameUri_iff,
        husername, Option.getD_some, not_not, and_imp]
  have hcls := cls_shadowAddressError
  rw [shadowAddressOf, raises_guard_iff hcls, raises_guard_iff hcls, raises_guard_iff hcls,
    raises_guard_iff hcls, not_not, not_not, not_and_or, not_not, not_not]
  constructor
  · rintro h ⟨hscheme, hnetloc, hpath, hquery, hhost, username, husername, hcase⟩
    have hnamed := h hscheme hnetloc hpath hquery
    rw [husername] at hnamed
    exact (hname username husername).mp hnamed hcase hhost
  · intro h hscheme hnetloc hpath hquery
    cases husername : p.username with
    | none => exact .throw _
    | some username =>
      exact (hname username husername).mpr fun hcase hhost =>
        h ⟨hscheme, hnetloc, hpath, hquery, hhost, username, husername, hcase⟩

theorem raises_parseShadowAddress_iff {G : Runtime} {nfkc : Text → Text} {s : Text} :
    Raises .shadowAddressError (parseShadowAddress G nfkc s) ↔
      ((text "://") <:+: strip s → authorityOk nfkc (splitUrl (strip s)).netloc = true ∧
        (ReadsPort G (splitUrl (strip s)) → (splitUrl (strip s)).portOk = true)) := by
  rw [parseShadowAddress, raises_guard_iff cls_shadowAddressError]
  by_cases hbare : (text "://") <:+: strip s
  · rw [if_neg (not_not.mpr hbare)]
    by_cases hauthority : authorityOk nfkc (splitUrl (strip s)).netloc = true
    · have hne : strip s ≠ [] := by
        intro hnil
        rw [hnil, List.infix_nil] at hbare
        exact absurd hbare (by decide)
      rw [urlparse_ok hauthority, ok_bind, raises_shadowAddressOf_iff]
      exact ⟨fun h _ => ⟨hauthority, h hne⟩, fun h _ => (h hbare).2⟩
    · obtain ⟨e, he, hcls⟩ := @urlparse_error G _ _ hauthority
      refine iff_of_false (fun h => ?_) fun h => hauthority (h hbare).1
      have hraised := h (fun hnil => by rw [hnil, List.infix_nil] at hbare; cases hbare) e
        (by rw [he]; rfl)
      rw [hcls] at hraised
      cases hraised
  · rw [if_pos hbare]
    exact iff_of_true (fun _ => raises_map_iff.mpr (raises_canonicalShadowname _)) (absurd · hbare)

/-! ## Connect URIs -/

/-- The URI gets as far as its query. -/
def ReadsQuery (p : ParseResult) : Prop :=
  p.scheme = text "shadow" ∧ p.netloc = text "connect" ∧ (p.path = [] ∨ p.path = [47]) ∧
    p.fragment = []

theorem raises_collectPairs {G : Runtime} (seen pairs : List (Text × Text)) :
    Raises .connectURIError (collectPairs G seen pairs) := by
  induction pairs generalizing seen with
  | nil => exact .pure _
  | cons pair pairs ih => exact .ite (.throw _) (ih _)

theorem raises_connectUriFrom {G : Runtime} (seen : List (Text × Text)) :
    Raises .connectURIError (connectUriFrom G seen) :=
  .ite (.throw _) (.ite (.throw _) (.ite (.throw _) (.ite (.throw _) (.pure _))))

/-- After the URL is split, only the query can raise another exception. -/
theorem raises_connectUriOf_iff {G : Runtime} {p : ParseResult} :
    Raises .connectURIError (connectUriOf G p) ↔ (ReadsQuery p → FieldsOk p.query) := by
  have hquery : Raises .connectURIError (do
      let pairs ← parseQsl G p.query
      let seen ← collectPairs G [] pairs
      connectUriFrom G seen) ↔ FieldsOk p.query := by
    refine raises_bind_iff_of_step parseQsl_ok (fun h => ?_) fun pairs =>
      .bind (raises_collectPairs _ _) raises_connectUriFrom
    obtain ⟨e, he, hcls⟩ := @parseQsl_error G _ h
    exact ⟨e, he, by rw [hcls]; decide⟩
  have hcls := cls_connectURIError
  rw [connectUriOf, raises_guard_iff hcls, raises_guard_iff hcls, raises_guard_iff hcls,
    raises_guard_iff hcls, hquery, not_not, not_not, not_and_or, not_not, not_not, not_not]
  constructor
  · rintro h ⟨hscheme, hnetloc, hpath, hfragment⟩
    exact h hscheme hnetloc hpath hfragment
  · intro h hscheme hnetloc hpath hfragment
    exact h ⟨hscheme, hnetloc, hpath, hfragment⟩

theorem raises_parseConnectUri_iff {G : Runtime} {nfkc : Text → Text} {s : Text} :
    Raises .connectURIError (parseConnectUri G nfkc s) ↔
      authorityOk nfkc (splitUrl s).netloc = true ∧
        (ReadsQuery (splitUrl s) → FieldsOk (splitUrl s).query) := by
  rw [parseConnectUri]
  by_cases hauthority : authorityOk nfkc (splitUrl s).netloc = true
  · rw [urlparse_ok hauthority, ok_bind, raises_connectUriOf_iff]
    exact (and_iff_right hauthority).symm
  · obtain ⟨e, he, hcls⟩ := @urlparse_error G _ _ hauthority
    refine iff_of_false (fun h => ?_) fun h => hauthority h.1
    have hraised := h e (by rw [he]; rfl)
    rw [hcls] at hraised
    cases hraised

/-! ## Both parsers -/

/-- The texts for which nothing but the parser's own error is raised: the authority must satisfy
`urlparse`, and the port and the query must be well formed wherever they are read. -/
theorem raises_own_errors_iff (G : Runtime) (nfkc : Text → Text) (s : Text) :
    (Raises .shadowAddressError (parseShadowAddress G nfkc s) ↔
      ((text "://") <:+: strip s → authorityOk nfkc (splitUrl (strip s)).netloc = true ∧
        (ReadsPort G (splitUrl (strip s)) → (splitUrl (strip s)).portOk = true))) ∧
    (Raises .connectURIError (parseConnectUri G nfkc s) ↔
      authorityOk nfkc (splitUrl s).netloc = true ∧
        (ReadsQuery (splitUrl s) → FieldsOk (splitUrl s).query)) :=
  ⟨raises_parseShadowAddress_iff, raises_parseConnectUri_iff⟩

/-- A port that is no number, a bracket that is not closed and a field without an equals sign. -/
theorem other_errors_escape :
    (∃ e, parseShadowAddress bareRuntime id (text "shadow://a@b.co:9x") = .error e ∧
      e.cls = .valueError) ∧
    (∃ e, parseConnectUri bareRuntime id (text "shadow://[connect") = .error e ∧
      e.cls = .valueError) ∧
    (∃ e, parseConnectUri bareRuntime id (text "shadow://connect?mcp") = .error e ∧
      e.cls = .valueError) := by
  have hport : raisesValueError (parseShadowAddress bareRuntime id (text "shadow://a@b.co:9x")) =
      true := by decide
  have hbracket : raisesValueError (parseConnectUri bareRuntime id (text "shadow://[connect")) =
      true := by decide
  have hfield : raisesValueError (parseConnectUri bareRuntime id (text "shadow://connect?mcp")) =
      true := by decide
  exact ⟨exists_of_raises hport, exists_of_raises hbracket, exists_of_raises hfield⟩

end Shadownet.Python
