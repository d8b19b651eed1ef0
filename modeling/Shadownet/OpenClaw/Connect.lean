import Shadownet.Foundation.Outcome
import Shadownet.JavaScript.Url

/-!
# Connect links of the OpenClaw plugin

`connect/url.ts`: the parser takes an empty `token` or `handoff` for one that is there, the
formatter for one that is missing.

* `connect_roundTrip_iff`: the links that survive parsing and formatting, and the inputs that
  survive formatting and parsing.
-/

namespace Shadownet.OpenClaw

open Foundation JavaScript

/-- The parts of a `URL` that are read. -/
structure Url where
  protocol : JsString
  host : JsString
  pathname : JsString
  searchParams : List (JsString × JsString)
  deriving DecidableEq

structure ConnectUrlInvalidError where
  message : JsString
  deriving DecidableEq

structure ConnectUrl where
  baseUrl : JsString
  token : Option JsString
  handoff : Option JsString
  deriving DecidableEq

/-- `null` and `undefined` are `none`. -/
structure FormatConnectUrlInput where
  baseUrl : JsString
  token : Option JsString
  handoff : Option JsString

/-! ## `parseConnectUrl` and `formatConnectUrl` -/

def stripTrailingSlash (s : JsString) : JsString := s.rdropWhile (· == 47)

/-- `protocol.replace(/:$/, "")`. -/
def dropColon (protocol : JsString) : JsString :=
  if protocol.getLast? = some 58 then protocol.dropLast else protocol

section
variable (newUrl : JsString → Option Url)

def parseConnectUrl (url : JsString) : Except ConnectUrlInvalidError ConnectUrl :=
  match newUrl url with
  | none => throw ⟨js "could not parse URL: " ++ url⟩
  | some parsed =>
    if parsed.protocol ≠ js "shadownet:" then
      throw ⟨js "scheme must be 'shadownet', got '" ++ dropColon parsed.protocol ++ js "'"⟩
    else if parsed.host ≠ js "connect" then
      throw ⟨js "host must be 'connect', got '" ++ parsed.host ++ js "'"⟩
    else if parsed.pathname ≠ [] ∧ parsed.pathname ≠ js "/" then
      throw ⟨js "unexpected path component: '" ++ parsed.pathname ++ js "'"⟩
    else
      match paramsGetAll parsed.searchParams (js "base") with
      | [base] =>
        match newUrl base with
        | none => throw ⟨js "base URL is not a valid URL: " ++ base⟩
        | some baseParsed =>
          if baseParsed.protocol ≠ js "http:" ∧ baseParsed.protocol ≠ js "https:" then
            throw ⟨js "base must use http(s) scheme, got '" ++ dropColon baseParsed.protocol ++
              js "'"⟩
          else if baseParsed.host = [] then throw ⟨js "base URL missing host"⟩
          else
            let tokenValues := paramsGetAll parsed.searchParams (js "token")
            let handoffValues := paramsGetAll parsed.searchParams (js "handoff")
            if 1 < tokenValues.length ∨ 1 < handoffValues.length then
              throw ⟨js "'token' and 'handoff' allow at most one value each"⟩
            else if decide (0 < tokenValues.length) = decide (0 < handoffValues.length) then
              throw ⟨js "exactly one of 'token' or 'handoff' must be set"⟩
            else pure ⟨stripTrailingSlash base, tokenValues.head?, handoffValues.head?⟩
      | _ => throw ⟨js "exactly one 'base' parameter required"⟩

def formatConnectUrl (input : FormatConnectUrlInput) : Except ConnectUrlInvalidError JsString :=
  let hasToken := (truthy input.token).isSome
  let hasHandoff := (truthy input.handoff).isSome
  if hasToken = hasHandoff then
    throw ⟨js "exactly one of 'token' or 'handoff' must be set"⟩
  else
    match newUrl input.baseUrl with
    | none => throw ⟨js "invalid base URL: '" ++ input.baseUrl ++ js "'"⟩
    | some baseParsed =>
      if baseParsed.protocol ≠ js "http:" ∧ baseParsed.protocol ≠ js "https:" then
        throw ⟨js "invalid base URL: '" ++ input.baseUrl ++ js "'"⟩
      else if baseParsed.host = [] then
        throw ⟨js "invalid base URL: '" ++ input.baseUrl ++ js "'"⟩
      else
        let params := paramsSet (js "base") (stripTrailingSlash input.baseUrl) []
        let params := if hasToken then paramsSet (js "token") (input.token.getD []) params
          else paramsSet (js "handoff") (input.handoff.getD []) params
        pure (js "shadownet://connect?" ++ paramsToString params)

end

/-! ## What is accepted -/

section
variable {newUrl : JsString → Option Url}

/-- The base of a link. -/
def HttpBase (newUrl : JsString → Option Url) (base : JsString) : Prop :=
  ∃ url, newUrl base = some url ∧ (url.protocol = js "http:" ∨ url.protocol = js "https:") ∧
    url.host ≠ []

/-- A link is a `shadownet://connect` URL. -/
structure ConnectLink (url : Url) : Prop where
  protocol : url.protocol = js "shadownet:"
  host : url.host = js "connect"
  pathname : url.pathname = [] ∨ url.pathname = js "/"

/-- One value of the two, and none of the other. -/
def OneOf (tokens handoffs : List JsString) : Prop :=
  (∃ t, tokens = [t] ∧ handoffs = []) ∨ ∃ h, tokens = [] ∧ handoffs = [h]

theorem oneOf_iff {tokens handoffs : List JsString} : OneOf tokens handoffs ↔
    ¬ (1 < tokens.length ∨ 1 < handoffs.length) ∧
      ¬ decide (0 < tokens.length) = decide (0 < handoffs.length) := by
  rw [OneOf]
  match tokens, handoffs with
  | [], [] => simp
  | [t], [] => simp
  | [], [h] => simp
  | [t], [h] => simp
  | _ :: _ :: _, _ => simp
  | _, _ :: _ :: _ => simp

theorem parseConnectUrl_eq_ok {u : JsString} {c : ConnectUrl} :
    parseConnectUrl newUrl u = .ok c ↔ ∃ url base, newUrl u = some url ∧ ConnectLink url ∧
      paramsGetAll url.searchParams (js "base") = [base] ∧ HttpBase newUrl base ∧
      OneOf (paramsGetAll url.searchParams (js "token"))
        (paramsGetAll url.searchParams (js "handoff")) ∧
      c = ⟨stripTrailingSlash base, (paramsGetAll url.searchParams (js "token")).head?,
        (paramsGetAll url.searchParams (js "handoff")).head?⟩ := by
  rw [parseConnectUrl]
  cases hu : newUrl u with
  | none => simp
  | some url =>
    dsimp only
    rw [guard_eq_ok, guard_eq_ok, guard_eq_ok, not_not, not_not, not_and_or, not_not, not_not]
    cases hbase : paramsGetAll url.searchParams (js "base") with
    | nil =>
      refine iff_of_false ?_ ?_
      · rintro ⟨-, -, -, h⟩
        exact throw_eq_ok.mp h
      · rintro ⟨_, base, ⟨⟩, -, hone, -⟩
        rw [hbase] at hone
        cases hone
    | cons base bases =>
      cases bases with
      | cons base' bases =>
        refine iff_of_false ?_ ?_
        · rintro ⟨-, -, -, h⟩
          exact throw_eq_ok.mp h
        · rintro ⟨_, base, ⟨⟩, -, hone, -⟩
          rw [hbase] at hone
          cases hone
      | nil =>
        dsimp only
        cases hb : newUrl base with
        | none =>
          refine iff_of_false ?_ ?_
          · rintro ⟨-, -, -, h⟩
            exact throw_eq_ok.mp h
          · rintro ⟨_, _, ⟨⟩, -, hone, ⟨b, hb', -⟩, -⟩
            rw [hbase] at hone
            obtain ⟨⟩ := hone
            rw [hb] at hb'
            cases hb'
        | some b =>
          dsimp only
          rw [guard_eq_ok, guard_eq_ok, guard_eq_ok, guard_eq_ok, pure_eq_ok, not_and_or, not_not,
            not_not]
          constructor
          · rintro ⟨hp, hh, hpath, hproto, hhost, hone, hmany, rfl⟩
            exact ⟨url, base, rfl, ⟨hp, hh, hpath⟩, hbase, ⟨b, hb, hproto, hhost⟩,
              oneOf_iff.mpr ⟨hone, hmany⟩, rfl⟩
          · rintro ⟨_, _, ⟨⟩, hlink, hone, ⟨b', hb', hproto, hhost⟩, hof, rfl⟩
            rw [hbase] at hone
            obtain ⟨⟩ := hone
            obtain ⟨⟩ := Option.some.inj (hb.symm.trans hb')
            obtain ⟨hle, hne⟩ := oneOf_iff.mp hof
            exact ⟨hlink.protocol, hlink.host, hlink.pathname, hproto, hhost, hle, hne, rfl⟩

/-- The link of a base and a token or handoff. -/
def linkOf (name base value : JsString) : JsString :=
  js "shadownet://connect?" ++ paramsToString [(js "base", toUSVString base),
    (name, toUSVString value)]

theorem toUSVString_names : toUSVString (js "base") = js "base" ∧
    toUSVString (js "token") = js "token" ∧ toUSVString (js "handoff") = js "handoff" := by
  decide

theorem names_ne : js "base" ≠ js "token" ∧ js "base" ≠ js "handoff" ∧
    js "token" ≠ js "handoff" := by
  decide

theorem truthy_eq_some {s : Option JsString} {t : JsString} :
    truthy s = some t ↔ s = some t ∧ t ≠ [] := by
  cases s with
  | none => simp [truthy]
  | some s =>
    rw [truthy, Option.filter_eq_some_iff]
    simp only [Option.some.injEq, Bool.not_eq_true', List.isEmpty_eq_false_iff]

theorem formatConnectUrl_eq_ok {input : FormatConnectUrlInput} {u : JsString} :
    formatConnectUrl newUrl input = .ok u ↔ HttpBase newUrl input.baseUrl ∧
      ((∃ t, truthy input.token = some t ∧ truthy input.handoff = none ∧
        u = linkOf (js "token") (stripTrailingSlash input.baseUrl) t) ∨
      ∃ h, truthy input.token = none ∧ truthy input.handoff = some h ∧
        u = linkOf (js "handoff") (stripTrailingSlash input.baseUrl) h) := by
  obtain ⟨hbase, htoken, hhandoff⟩ := toUSVString_names
  obtain ⟨hbt, hbh, -⟩ := names_ne
  have hparams : ∀ name v, toUSVString name = name → js "base" ≠ name →
      paramsSet name v (paramsSet (js "base") (stripTrailingSlash input.baseUrl) []) =
        [(js "base", toUSVString (stripTrailingSlash input.baseUrl)), (name, toUSVString v)] := by
    intro name v hname hne
    rw [paramsSet, hbase, paramsSet, hname, if_neg hne, paramsSet, hname]
  have hone : (truthy input.token).isSome ≠ (truthy input.handoff).isSome →
      (u = js "shadownet://connect?" ++ paramsToString
        (if (truthy input.token).isSome = true then
          paramsSet (js "token") (input.token.getD [])
            (paramsSet (js "base") (stripTrailingSlash input.baseUrl) [])
        else paramsSet (js "handoff") (input.handoff.getD [])
            (paramsSet (js "base") (stripTrailingSlash input.baseUrl) [])) ↔
      ((∃ t, truthy input.token = some t ∧ truthy input.handoff = none ∧
        u = linkOf (js "token") (stripTrailingSlash input.baseUrl) t) ∨
      ∃ h, truthy input.token = none ∧ truthy input.handoff = some h ∧
        u = linkOf (js "handoff") (stripTrailingSlash input.baseUrl) h)) := by
    intro hne
    rw [hparams _ _ htoken hbt, hparams _ _ hhandoff hbh]
    cases ht : truthy input.token with
    | none =>
      cases hh : truthy input.handoff with
      | none => exact absurd (by rw [ht, hh]) hne
      | some h =>
        have hget : input.handoff.getD [] = h := by
          rw [(truthy_eq_some.mp hh).1, Option.getD_some]
        simp [hget, linkOf]
    | some t =>
      cases hh : truthy input.handoff with
      | some h => exact absurd (by rw [ht, hh]; rfl) hne
      | none =>
        have hget : input.token.getD [] = t := by
          rw [(truthy_eq_some.mp ht).1, Option.getD_some]
        simp [hget, linkOf]
  rw [formatConnectUrl]
  dsimp only
  rw [guard_eq_ok]
  cases hb : newUrl input.baseUrl with
  | none =>
    refine iff_of_false (fun h => throw_eq_ok.mp h.2) ?_
    rintro ⟨⟨b, hb', -⟩, -⟩
    rw [hb] at hb'
    cases hb'
  | some b =>
    dsimp only
    rw [guard_eq_ok, guard_eq_ok, pure_eq_ok, not_and_or, not_not, not_not]
    constructor
    · rintro ⟨hne, hproto, hhost, rfl⟩
      exact ⟨⟨b, hb, hproto, hhost⟩, (hone hne).mp rfl⟩
    · rintro ⟨⟨b', hb', hproto, hhost⟩, hway⟩
      obtain ⟨⟩ := Option.some.inj (hb.symm.trans hb')
      have hne : (truthy input.token).isSome ≠ (truthy input.handoff).isSome := by
        rcases hway with ⟨t, ht, hh, -⟩ | ⟨h, ht, hh, -⟩ <;> simp [ht, hh]
      exact ⟨hne, hproto, hhost, ((hone hne).mpr hway).symm⟩

/-! ## There and back -/

/-- What the plugin relies on in `URL`: parameters are strings without lone halves, a written
query is read back, and slashes at the end of an HTTP URL stand behind its host. -/
structure UrlStandard (newUrl : JsString → Option Url) : Prop where
  wellFormed : ∀ {u url}, newUrl u = some url → ∀ p ∈ url.searchParams, WellFormed p.2
  query : ∀ {q params}, (∀ u ∈ q, IsFormUnit u) → paramsOf q = some params →
    newUrl (js "shadownet://connect?" ++ q) =
      some ⟨js "shadownet:", js "connect", [], params⟩
  trailing : ∀ {base}, HttpBase newUrl base → HttpBase newUrl (stripTrailingSlash base)

theorem stripTrailingSlash_idem (s : JsString) :
    stripTrailingSlash (stripTrailingSlash s) = stripTrailingSlash s :=
  List.rdropWhile_idempotent _ s

theorem wellFormed_stripTrailingSlash {s : JsString} :
    WellFormed (stripTrailingSlash s) ↔ WellFormed s := by
  have hslash : ∀ u ∈ s.rtakeWhile (· == 47), u.toNat < 0xD800 := by
    intro u hu
    have heq : (u == 47) = true := @List.mem_rtakeWhile_imp _ (· == 47) s u hu
    rw [beq_iff_eq.mp heq]
    decide
  conv_rhs => rw [← @List.rdropWhile_append_rtakeWhile _ (· == 47) s]
  rw [wellFormed_append fun u hu => hslash u (List.mem_of_mem_head? hu),
    and_iff_left (wellFormed_of_lt hslash)]
  rfl

theorem stripTrailingSlash_eq_self_of_length {s : JsString}
    (h : (stripTrailingSlash s).length = s.length) : stripTrailingSlash s = s :=
  (List.rdropWhile_prefix _ _).eq_of_length h

/-- What is read from a link. -/
theorem parseConnectUrl_link (hurl : UrlStandard newUrl) {base value : JsString}
    {c : ConnectUrl} :
    (parseConnectUrl newUrl (linkOf (js "token") base value) = .ok c ↔
      HttpBase newUrl (toUSVString base) ∧
        c = ⟨stripTrailingSlash (toUSVString base), some (toUSVString value), none⟩) ∧
    (parseConnectUrl newUrl (linkOf (js "handoff") base value) = .ok c ↔
      HttpBase newUrl (toUSVString base) ∧
        c = ⟨stripTrailingSlash (toUSVString base), none, some (toUSVString value)⟩) := by
  obtain ⟨hbase, htoken, hhandoff⟩ := toUSVString_names
  obtain ⟨hbt, hbh, hth⟩ := names_ne
  have htwice : ∀ s, toUSVString (toUSVString s) = toUSVString s := fun s =>
    toUSVString_eq_self_iff.mpr (wellFormed_toUSVString s)
  have hlink : ∀ name, toUSVString name = name → newUrl (linkOf name base value) =
      some ⟨js "shadownet:", js "connect", [],
        [(js "base", toUSVString base), (name, toUSVString value)]⟩ := by
    intro name hname
    refine hurl.query (fun u => isFormUnit_paramsToString) ?_
    rw [paramsOf_paramsToString]
    simp only [List.map_cons, List.map_nil, hbase, hname, htwice]
  have hconnect : ∀ params, ConnectLink ⟨js "shadownet:", js "connect", [], params⟩ :=
    fun params => ⟨rfl, rfl, .inl rfl⟩
  have hget : ∀ {k k'} v v', k ≠ k' → paramsGetAll [(k, v), (k', v')] k = [v] ∧
      paramsGetAll [(k, v), (k', v')] k' = [v'] ∧
      ∀ k'', k ≠ k'' → k' ≠ k'' → paramsGetAll [(k, v), (k', v')] k'' = [] := by
    intro k k' v v' hne
    refine ⟨?_, ?_, fun k'' hk hk' => ?_⟩
    · rw [paramsGetAll_cons, if_pos rfl, paramsGetAll_cons, if_neg hne.symm, paramsGetAll_nil]
    · rw [paramsGetAll_cons, if_neg hne, paramsGetAll_cons, if_pos rfl, paramsGetAll_nil]
    · rw [paramsGetAll_cons, if_neg hk, paramsGetAll_cons, if_neg hk', paramsGetAll_nil]
  constructor
  · obtain ⟨hb, ht, hother⟩ :=
      hget (toUSVString base) (toUSVString value) hbt
    rw [parseConnectUrl_eq_ok, hlink _ htoken]
    simp [hb, ht, hother _ hbh hth, hconnect, OneOf]
  · obtain ⟨hb, hh, hother⟩ :=
      hget (toUSVString base) (toUSVString value) hbh
    rw [parseConnectUrl_eq_ok, hlink _ hhandoff]
    simp [hb, hh, hother _ hbt hth.symm, hconnect, OneOf]

/-- What was read can be written, and is read again. -/
def Reparses (newUrl : JsString → Option Url) (c : ConnectUrl) : Prop :=
  ∃ u, formatConnectUrl newUrl ⟨c.baseUrl, c.token, c.handoff⟩ = .ok u ∧
    parseConnectUrl newUrl u = .ok c

/-- A link is read as what it was made of. -/
def ReadsBack (newUrl : JsString → Option Url) (input : FormatConnectUrlInput) (u : JsString) :
    Prop :=
  parseConnectUrl newUrl u =
    .ok ⟨stripTrailingSlash input.baseUrl, truthy input.token, truthy input.handoff⟩

/-- Links whose base and value are well formed are read back. -/
theorem parseConnectUrl_wellFormed (hurl : UrlStandard newUrl) {base value : JsString}
    (hbase : WellFormed base) (hvalue : WellFormed value)
    (hhttp : HttpBase newUrl (stripTrailingSlash base)) :
    parseConnectUrl newUrl (linkOf (js "token") (stripTrailingSlash base) value) =
        .ok ⟨stripTrailingSlash base, some value, none⟩ ∧
      parseConnectUrl newUrl (linkOf (js "handoff") (stripTrailingSlash base) value) =
        .ok ⟨stripTrailingSlash base, none, some value⟩ := by
  have hb := toUSVString_eq_self_iff.mpr (wellFormed_stripTrailingSlash.mpr hbase)
  have hv := toUSVString_eq_self_iff.mpr hvalue
  constructor
  · refine (parseConnectUrl_link hurl).1.mpr ?_
    rw [hb, hv, stripTrailingSlash_idem]
    exact ⟨hhttp, rfl⟩
  · refine (parseConnectUrl_link hurl).2.mpr ?_
    rw [hb, hv, stripTrailingSlash_idem]
    exact ⟨hhttp, rfl⟩

theorem mem_of_paramsGetAll {params : List (JsString × JsString)} {name value : JsString} :
    value ∈ paramsGetAll params name ↔ (name, value) ∈ params := by
  rw [paramsGetAll, List.mem_map]
  constructor
  · rintro ⟨⟨k, v⟩, hmem, rfl⟩
    obtain ⟨hp, hk⟩ := List.mem_filter.mp hmem
    rwa [← of_decide_eq_true hk]
  · exact fun h => ⟨_, List.mem_filter.mpr ⟨h, decide_eq_true rfl⟩, rfl⟩

theorem reparses_iff (hurl : UrlStandard newUrl) {u : JsString} {c : ConnectUrl}
    (h : parseConnectUrl newUrl u = .ok c) : Reparses newUrl c ↔
      ∀ url, newUrl u = some url → (js "token", []) ∉ url.searchParams ∧
        (js "handoff", []) ∉ url.searchParams := by
  obtain ⟨url, base, hu, -, hone, hhttp, hof, rfl⟩ := parseConnectUrl_eq_ok.mp h
  have hwell : ∀ name {value}, value ∈ paramsGetAll url.searchParams name → WellFormed value :=
    fun _ _ hv => hurl.wellFormed hu _ (mem_of_paramsGetAll.mp hv)
  have hbase : WellFormed base := hwell (js "base") (by simp [hone])
  have hstrip := hurl.trailing hhttp
  simp only [hu, Option.some.injEq, forall_eq', ← mem_of_paramsGetAll, Reparses]
  have hnil : ∀ v : JsString, v ≠ [] → truthy (some v) = some v := fun v hv =>
    truthy_eq_some.mpr ⟨rfl, hv⟩
  rcases hof with ⟨t, ht, hh⟩ | ⟨v, ht, hh⟩
  · simp only [ht, hh, List.head?_cons, List.head?_nil, List.mem_singleton, List.not_mem_nil,
      not_false_eq_true, and_true]
    constructor
    · rintro ⟨u', hu', -⟩ rfl
      obtain ⟨-, ⟨t, ht', -⟩ | ⟨v, -, hv', -⟩⟩ := formatConnectUrl_eq_ok.mp hu'
      · exact (truthy_eq_some.mp ht').2 (Option.some.inj (truthy_eq_some.mp ht').1).symm
      · cases (truthy_eq_some.mp hv').1
    · intro hne
      refine ⟨_, formatConnectUrl_eq_ok.mpr ⟨hstrip, .inl ⟨t, hnil t (Ne.symm hne), rfl, rfl⟩⟩, ?_⟩
      rw [stripTrailingSlash_idem]
      exact (parseConnectUrl_wellFormed hurl hbase (hwell (js "token") (by simp [ht]))
        hstrip).1
  · simp only [ht, hh, List.head?_cons, List.head?_nil, List.mem_singleton, List.not_mem_nil,
      not_false_eq_true, true_and]
    constructor
    · rintro ⟨u', hu', -⟩ rfl
      obtain ⟨-, ⟨t, ht', -⟩ | ⟨v, -, hv', -⟩⟩ := formatConnectUrl_eq_ok.mp hu'
      · cases (truthy_eq_some.mp ht').1
      · exact (truthy_eq_some.mp hv').2 (Option.some.inj (truthy_eq_some.mp hv').1).symm
    · intro hne
      refine ⟨_, formatConnectUrl_eq_ok.mpr ⟨hstrip, .inr ⟨v, rfl, hnil v (Ne.symm hne), rfl⟩⟩, ?_⟩
      rw [stripTrailingSlash_idem]
      exact (parseConnectUrl_wellFormed hurl hbase (hwell (js "handoff") (by simp [hh]))
        hstrip).2

theorem readsBack_iff (hurl : UrlStandard newUrl) {input : FormatConnectUrlInput} {u : JsString}
    (h : formatConnectUrl newUrl input = .ok u) : ReadsBack newUrl input u ↔
      WellFormed input.baseUrl ∧ (∀ t ∈ input.token, WellFormed t) ∧
        ∀ v ∈ input.handoff, WellFormed v := by
  obtain ⟨hhttp, hway⟩ := formatConnectUrl_eq_ok.mp h
  have hstrip := hurl.trailing hhttp
  -- What is read is at most as long as the base.
  have hbase : stripTrailingSlash (toUSVString (stripTrailingSlash input.baseUrl)) =
      stripTrailingSlash input.baseUrl → WellFormed input.baseUrl := by
    intro heq
    have hlen := congrArg List.length heq
    rw [← length_toUSVString (stripTrailingSlash input.baseUrl)] at hlen
    rw [stripTrailingSlash_eq_self_of_length hlen] at heq
    exact wellFormed_stripTrailingSlash.mp (toUSVString_eq_self_iff.mp heq)
  have hempty : WellFormed [] := nofun
  have hfalsy : ∀ {s : Option JsString}, truthy s = none → ∀ v ∈ s, WellFormed v := by
    rintro s hs v rfl
    by_cases hv : v = []
    · rw [hv]
      exact hempty
    · rw [truthy_eq_some.mpr ⟨rfl, hv⟩] at hs
      cases hs
  rcases hway with ⟨t, ht, hh, rfl⟩ | ⟨v, ht, hh, rfl⟩
  · rw [ReadsBack, ht, hh]
    obtain ⟨htoken, -⟩ := truthy_eq_some.mp ht
    constructor
    · intro hread
      obtain ⟨-, hc⟩ := (parseConnectUrl_link hurl).1.mp hread
      obtain ⟨hb, hv⟩ := by simpa using hc
      refine ⟨hbase hb.symm, fun t' ht' => ?_, hfalsy hh⟩
      rw [htoken, Option.mem_some_iff] at ht'
      exact ht' ▸ toUSVString_eq_self_iff.mp hv.symm
    · rintro ⟨hb, hv, -⟩
      exact (parseConnectUrl_wellFormed hurl hb (hv t htoken) hstrip).1
  · rw [ReadsBack, ht, hh]
    obtain ⟨hhandoff, -⟩ := truthy_eq_some.mp hh
    constructor
    · intro hread
      obtain ⟨-, hc⟩ := (parseConnectUrl_link hurl).2.mp hread
      obtain ⟨hb, hv⟩ := by simpa using hc
      refine ⟨hbase hb.symm, hfalsy ht, fun v' hv' => ?_⟩
      rw [hhandoff, Option.mem_some_iff] at hv'
      exact hv' ▸ toUSVString_eq_self_iff.mp hv.symm
    · rintro ⟨hb, -, hv⟩
      exact (parseConnectUrl_wellFormed hurl hb (hv v hhandoff) hstrip).2

end

/-- The links that survive parsing and formatting, and the inputs that survive formatting and
parsing. -/
theorem connect_roundTrip_iff {newUrl : JsString → Option Url} (hurl : UrlStandard newUrl) :
    (∀ u c, parseConnectUrl newUrl u = .ok c → (Reparses newUrl c ↔
      ∀ url, newUrl u = some url → (js "token", []) ∉ url.searchParams ∧
        (js "handoff", []) ∉ url.searchParams)) ∧
    ∀ input u, formatConnectUrl newUrl input = .ok u → (ReadsBack newUrl input u ↔
      WellFormed input.baseUrl ∧ (∀ t ∈ input.token, WellFormed t) ∧
        ∀ v ∈ input.handoff, WellFormed v) :=
  ⟨fun _ _ => reparses_iff hurl, fun _ _ => readsBack_iff hurl⟩

/-- `URL` on connect links with a query of ASCII and on HTTPS origins with a plain host name. -/
def plainUrl (s : JsString) : Option Url :=
  if (js "shadownet://connect?").isPrefixOf s then
    (paramsOf (s.drop 20)).map fun params => ⟨js "shadownet:", js "connect", [], params⟩
  else
    let origin := stripTrailingSlash s
    if (js "https://").isPrefixOf origin ∧ origin.drop 8 ≠ [] ∧
        (origin.drop 8).all (fun u => (97 ≤ u.toNat && u.toNat ≤ 122) || u == 46) then
      some ⟨js "https:", origin.drop 8, js "/", []⟩
    else none

theorem plainUrl_link {s : JsString} {url : Url} (h : plainUrl s = some url)
    (hstart : (js "shadownet://connect?").isPrefixOf s = true) :
    url.protocol = js "shadownet:" := by
  rw [plainUrl, if_pos hstart, Option.map_eq_some_iff] at h
  obtain ⟨params, -, rfl⟩ := h
  rfl

theorem urlStandard_plainUrl : UrlStandard plainUrl where
  wellFormed := by
    intro u url h p hp
    rw [plainUrl] at h
    split_ifs at h with hprefix
    · obtain ⟨params, hparams, rfl⟩ := Option.map_eq_some_iff.mp h
      exact wellFormed_of_paramsOf hparams p hp
    · dsimp only at h
      split_ifs at h
      rw [← Option.some.inj h] at hp
      cases hp
  query := by
    intro q params _ hparams
    have hprefix : (js "shadownet://connect?").isPrefixOf (js "shadownet://connect?" ++ q) = true :=
      List.isPrefixOf_iff_prefix.mpr (List.prefix_append _ _)
    have hlen : (js "shadownet://connect?").length = 20 := by decide
    rw [plainUrl, if_pos hprefix, ← hlen, List.drop_left, hparams]
    rfl
  trailing := by
    rintro base ⟨url, hbase, hproto, hhost⟩
    have hnot : ¬ (js "shadownet://connect?").isPrefixOf base = true := by
      intro hprefix
      have hne : js "shadownet:" ≠ js "http:" ∧ js "shadownet:" ≠ js "https:" := by decide
      rw [plainUrl_link hbase hprefix] at hproto
      exact hproto.elim hne.1 hne.2
    have hnot' : ¬ (js "shadownet://connect?").isPrefixOf (stripTrailingSlash base) = true := by
      intro hprefix
      exact hnot (List.isPrefixOf_iff_prefix.mpr
        ((List.isPrefixOf_iff_prefix.mp hprefix).trans (List.rdropWhile_prefix _ _)))
    refine ⟨url, ?_, hproto, hhost⟩
    rw [plainUrl, if_neg hnot] at hbase
    rw [plainUrl, if_neg hnot', stripTrailingSlash_idem]
    exact hbase

theorem connect_roundTrip_app :
    parseConnectUrl plainUrl (js "shadownet://connect?base=https%3A%2F%2Fa.co%2F&token=t") =
      .ok ⟨js "https://a.co", some (js "t"), none⟩ ∧
    Reparses plainUrl ⟨js "https://a.co", some (js "t"), none⟩ ∧
    formatConnectUrl plainUrl ⟨js "https://a.co/", none, some (js "c")⟩ =
      .ok (js "shadownet://connect?base=https%3A%2F%2Fa.co&handoff=c") ∧
    ReadsBack plainUrl ⟨js "https://a.co/", none, some (js "c")⟩
      (js "shadownet://connect?base=https%3A%2F%2Fa.co&handoff=c") := by
  have hparse : parseConnectUrl plainUrl
      (js "shadownet://connect?base=https%3A%2F%2Fa.co%2F&token=t") =
      .ok ⟨js "https://a.co", some (js "t"), none⟩ := by decide
  have hformat : formatConnectUrl plainUrl ⟨js "https://a.co/", none, some (js "c")⟩ =
      .ok (js "shadownet://connect?base=https%3A%2F%2Fa.co&handoff=c") := by decide
  have hurl : plainUrl (js "shadownet://connect?base=https%3A%2F%2Fa.co%2F&token=t") =
      some ⟨js "shadownet:", js "connect", [], [(js "base", js "https://a.co/"),
        (js "token", js "t")]⟩ := by decide
  have hwell : ∀ u ∈ js "https://a.co/" ++ js "c", u.toNat < 0xD800 := by
    have hall : ((js "https://a.co/" ++ js "c").all fun u => decide (u.toNat < 0xD800)) = true := by
      decide
    exact fun u hu => of_decide_eq_true (List.all_eq_true.mp hall u hu)
  rw [List.forall_mem_append] at hwell
  refine ⟨hparse, ((connect_roundTrip_iff urlStandard_plainUrl).1 _ _ hparse).mpr ?_, hformat,
    ((connect_roundTrip_iff urlStandard_plainUrl).2 _ _ hformat).mpr ?_⟩
  · intro url h
    rw [← Option.some.inj (hurl.symm.trans h)]
    decide
  · refine ⟨wellFormed_of_lt hwell.1, nofun, fun v hv => ?_⟩
    rw [← Option.mem_some_iff.mp hv]
    exact wellFormed_of_lt hwell.2

/-- A link with an empty token is read and cannot be written, and a lone half of a pair in a
token is replaced. -/
theorem connect_not_roundTrip :
    parseConnectUrl plainUrl (js "shadownet://connect?base=https%3A%2F%2Fa.co&token=") =
      .ok ⟨js "https://a.co", some [], none⟩ ∧
    formatConnectUrl plainUrl ⟨js "https://a.co", some [], none⟩ =
      .error ⟨js "exactly one of 'token' or 'handoff' must be set"⟩ ∧
    ¬ Reparses plainUrl ⟨js "https://a.co", some [], none⟩ ∧
    formatConnectUrl plainUrl ⟨js "https://a.co", some [0xD800], none⟩ =
      .ok (js "shadownet://connect?base=https%3A%2F%2Fa.co&token=%EF%BF%BD") ∧
    ¬ ReadsBack plainUrl ⟨js "https://a.co", some [0xD800], none⟩
      (js "shadownet://connect?base=https%3A%2F%2Fa.co&token=%EF%BF%BD") := by
  have hformat : formatConnectUrl plainUrl ⟨js "https://a.co", some [], none⟩ =
      .error ⟨js "exactly one of 'token' or 'handoff' must be set"⟩ := by decide
  refine ⟨by decide, hformat, ?_, by decide, ?_⟩
  · rintro ⟨u, hu, -⟩
    cases hformat.symm.trans hu
  · rw [ReadsBack]
    decide

end Shadownet.OpenClaw
