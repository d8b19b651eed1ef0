import Shadownet.Python.Onboarding
import Shadownet.Receiver.Provider

/-!
# Endpoints in clear text

`parse_connect_uri` and `parse_provider_txt` take an endpoint that is `https`, or `http` to a
loopback host. Both test a prefix of the text, so what matters is how the authority goes on after
the prefix.

* `encrypted_or_loopback_iff`: the endpoints for which the prefix does decide the host.
-/

namespace Shadownet.Receiver

open Foundation Python

/-- The hosts that stand for the own machine. -/
def loopbackHosts : List Text := [text "localhost", text "127.0.0.1", text "::1"]

/-- The scheme is `https`, or it is `http` and `urlparse` finds a loopback host. Only ASCII
letters differ between the host and what `.hostname` makes of it. -/
def EncryptedOrLoopback (G : Runtime) (nfkc : Text → Text) (endpoint : Text) : Prop :=
  (splitUrl endpoint).scheme = text "https" ∨
    (splitUrl endpoint).scheme = text "http" ∧
      ∃ parts, urlparse G nfkc endpoint = .ok parts ∧
        (hostinfo parts.netloc).1.map lowerAscii ∈ loopbackHosts

/-- Nothing or a port. -/
def EndsHost (t : Text) : Prop := t = [] ∨ t.head? = some 58

/-- A loopback host and what may follow it. `urlparse` does not miss the bracket at the end. -/
inductive LoopbackText : Text → Prop where
  | name {host rest : Text} (h : host.map lowerAscii ∈ [text "localhost", text "127.0.0.1"])
      (hrest : EndsHost rest) : LoopbackText (host ++ rest)
  | bracketed {rest : Text} (hrest : EndsHost rest) : LoopbackText (text "[::1]" ++ rest)
  | unclosed : LoopbackText (text "[::1")

/-- The rest of an authority after the prefix of its URL. -/
def authorityRest (t : Text) : Text := (unlined t).takeWhile (!endsAuthority ·)

/-- After the prefix the authority ends or goes on with a port; where it has an `@`, a loopback
host follows the last one. -/
def StaysLoopback (t : Text) : Prop :=
  if (64 : CodePoint) ∈ authorityRest t then LoopbackText (rpartition 64 (authorityRest t)).2.2
  else EndsHost (authorityRest t)

/-! ## The host of an authority -/

theorem endsHost_iff {t : Text} : EndsHost t ↔ t = [] ∨ ∃ port, t = 58 :: port := by
  rw [EndsHost, List.head?_eq_some_iff]

theorem partition_fst {sep : CodePoint} {s : Text} :
    (partition sep s).1 = s ∧ sep ∉ s ∨
      ∃ s' t, s = s' ++ sep :: t ∧ sep ∉ s' ∧ (partition sep s).1 = s' := by
  by_cases h : sep ∈ s
  · obtain ⟨s', t, rfl, hs'⟩ := List.eq_append_cons_of_mem h
    exact .inr ⟨s', t, rfl, hs', by rw [partition_append hs']⟩
  · exact .inl ⟨by rw [partition_self h], h⟩

/-- Characters without case are kept. -/
theorem mem_map_lower {c : CodePoint} {t : Text} (hc : c.val < 65 ∨ 90 < c.val ∧ c.val < 97) :
    c ∈ t.map lowerAscii ↔ c ∈ t := by
  rw [List.mem_map]
  constructor
  · rintro ⟨d, hd, hdc⟩
    rwa [← (lowerAscii_eq_iff hc).mp hdc]
  · exact fun h => ⟨c, h, (lowerAscii_eq_iff hc).mpr rfl⟩

/-- A text without letters. -/
theorem map_lower_eq_iff {s t : Text}
    (ht : t.all (fun c => decide (c.val < 65 ∨ 90 < c.val ∧ c.val < 97)) = true) :
    s.map lowerAscii = t ↔ s = t := by
  induction t generalizing s with
  | nil => exact List.map_eq_nil_iff
  | cons d t ih =>
    rw [List.all_cons, Bool.and_eq_true, decide_eq_true_eq] at ht
    cases s with
    | nil => simp
    | cons c s => rw [List.map_cons, List.cons.injEq, List.cons.injEq, lowerAscii_eq_iff ht.1,
        ih ht.2]

/-- Names have no colon and no bracket. -/
theorem not_mem_name {host : Text}
    (h : host.map lowerAscii ∈ [text "localhost", text "127.0.0.1"]) :
    (58 : CodePoint) ∉ host ∧ (91 : CodePoint) ∉ host := by
  have hall : ([text "localhost", text "127.0.0.1"].all fun t =>
      !t.contains 58 && !t.contains 91) = true := by decide
  have hhost := List.all_eq_true.mp hall _ h
  rw [Bool.and_eq_true, Bool.not_eq_true', Bool.not_eq_true'] at hhost
  rw [← mem_map_lower (c := 58) (by decide), ← mem_map_lower (c := 91) (by decide)]
  exact ⟨fun hin => Bool.eq_false_iff.mp hhost.1 (List.contains_iff_mem.mpr hin),
    fun hin => Bool.eq_false_iff.mp hhost.2 (List.contains_iff_mem.mpr hin)⟩

theorem mem_loopbackHosts {host : Text} : host.map lowerAscii ∈ loopbackHosts ↔
    host.map lowerAscii ∈ [text "localhost", text "127.0.0.1"] ∨ host = text "::1" := by
  have hone : host.map lowerAscii = text "::1" ↔ host = text "::1" :=
    map_lower_eq_iff (by decide)
  simp only [loopbackHosts, List.mem_cons, List.not_mem_nil, or_false, hone, or_assoc]

/-- A name is no address in brackets: those have colons. -/
theorem bracketedHostOk_name {host : Text}
    (h : host.map lowerAscii ∈ [text "localhost", text "127.0.0.1"]) :
    bracketedHostOk host = false := by
  have hv : host.head? ≠ some 118 := by
    intro hhead
    have hmap : (host.map lowerAscii).head? = some 118 := by
      rw [List.head?_map, hhead]
      decide
    have hall : ([text "localhost", text "127.0.0.1"].all fun t => t.head? != some 118) = true := by
      decide
    have hne := List.all_eq_true.mp hall _ h
    rw [hmap] at hne
    exact absurd hne (by decide)
  have hcolon : (58 : CodePoint) ∉ (partition 37 host).1 := fun hin =>
    (not_mem_name h).1 ((List.takeWhile_sublist _).subset hin)
  have hnone : hextets (partition 37 host).1 = none := by
    rw [hextets, List.splitOn_eq_singleton hcolon]
    rfl
  rw [bracketedHostOk, if_neg hv, isIPv6Address]
  simp only [hnone, Option.any_none, Bool.and_false]

section
variable {netloc : Text}

theorem mem_of_mem_rpartition {sep c : CodePoint} (h : c ∈ (rpartition sep netloc).2.2) :
    c ∈ netloc := by
  rw [rpartition] at h
  by_cases hsep : netloc.contains sep = true
  · rw [if_pos hsep] at h
    exact List.mem_reverse.mp ((List.takeWhile_sublist _).subset (List.mem_reverse.mp h))
  · rwa [if_neg hsep] at h

theorem hostinfo_name (h : (91 : CodePoint) ∉ (rpartition 64 netloc).2.2) :
    (hostinfo netloc).1 = (partition 58 (rpartition 64 netloc).2.2).1 := by
  rw [hostinfo, partition_self h]
  rfl

theorem hostinfo_bracketed {bracketed : Text}
    (h : (rpartition 64 netloc).2.2 = 91 :: bracketed) :
    (hostinfo netloc).1 = (partition 93 bracketed).1 := by
  have hcut : partition 91 (91 :: bracketed) = ([], true, bracketed) :=
    partition_append (s := []) List.not_mem_nil
  rw [hostinfo, h, hcut]
  rfl

/-- What a bracket is, where `urlparse` lets it through. -/
theorem bracketed_of_ok (hok : bracketsOk netloc = true)
    (h : (91 : CodePoint) ∈ (rpartition 64 netloc).2.2) :
    ∃ bracketed, (rpartition 64 netloc).2.2 = 91 :: bracketed ∧
      EndsHost (partition 93 bracketed).2.2 ∧
      bracketedHostOk (partition 93 bracketed).1 = true := by
  rw [bracketsOk, List.contains_iff_mem.mpr (mem_of_mem_rpartition h)] at hok
  simp only [Bool.not_true, Bool.false_or, Bool.and_eq_true] at hok
  obtain ⟨before, bracketed, hinfo, hbefore⟩ := List.eq_append_cons_of_mem h
  have hnet := hok.2
  rw [bracketedNetlocOk, hinfo, partition_append hbefore] at hnet
  simp only [Bool.not_true, Bool.false_or, Bool.and_eq_true, Bool.or_eq_true, beq_iff_eq] at hnet
  obtain ⟨⟨hnil, hafter⟩, hhost⟩ := hnet
  rw [hnil, List.nil_append] at hinfo
  refine ⟨bracketed, hinfo, hafter, ?_⟩
  rwa [← hostinfo_bracketed hinfo]

/-- The host of an authority that `urlparse` lets through. -/
theorem host_mem_iff (hok : bracketsOk netloc = true) :
    (hostinfo netloc).1.map lowerAscii ∈ loopbackHosts ↔
      LoopbackText (rpartition 64 netloc).2.2 := by
  by_cases hbracket : (91 : CodePoint) ∈ (rpartition 64 netloc).2.2
  · obtain ⟨bracketed, hinfo, hafter, hhost⟩ := bracketed_of_ok hok hbracket
    rw [hostinfo_bracketed hinfo, hinfo, mem_loopbackHosts]
    constructor
    · rintro (hname | haddress)
      · rw [bracketedHostOk_name hname] at hhost
        cases hhost
      · obtain ⟨hself, -⟩ | ⟨host, after, rfl, hno, hcut⟩ := @partition_fst 93 bracketed
        · rw [← hself, haddress]
          exact .unclosed
        · rw [hcut] at haddress
          rw [partition_append hno] at hafter
          rw [haddress]
          exact .bracketed hafter
    · intro htext
      generalize hinfo' : (91 :: bracketed : Text) = info at htext
      cases htext with
      | name h hrest =>
        rename_i host rest
        cases host with
        | nil => exact absurd h (by decide)
        | cons c host =>
          rw [List.cons_append, List.cons.injEq] at hinfo'
          exact absurd (hinfo'.1 ▸ List.mem_cons_self) (not_mem_name h).2
      | bracketed hrest =>
        rename_i rest
        have hcut : bracketed = text "::1" ++ 93 :: rest := (List.cons.inj hinfo').2
        rw [hcut, partition_append (by decide)]
        exact .inr rfl
      | unclosed =>
        have hcut : bracketed = text "::1" := (List.cons.inj hinfo').2
        rw [hcut]
        exact .inr (by decide)
  · rw [hostinfo_name hbracket, mem_loopbackHosts]
    constructor
    · rintro (hname | haddress)
      · obtain ⟨hself, -⟩ | ⟨host, port, hinfo, hno, hcut⟩ :=
          @partition_fst 58 (rpartition 64 netloc).2.2
        · rw [hself] at hname
          rw [← List.append_nil (rpartition 64 netloc).2.2]
          exact .name hname (.inl rfl)
        · rw [hcut] at hname
          rw [hinfo]
          exact .name hname (.inr rfl)
      · have hin : (58 : CodePoint) ∈ (partition 58 (rpartition 64 netloc).2.2).1 := by
          rw [haddress]
          decide
        have hne := List.mem_takeWhile_imp hin
        simp at hne
    · intro htext
      generalize (rpartition 64 netloc).2.2 = info at hbracket htext
      cases htext with
      | name h hrest =>
        rename_i host rest
        left
        obtain rfl | ⟨port, rfl⟩ := endsHost_iff.mp hrest
        · rwa [List.append_nil, partition_self (not_mem_name h).1]
        · rwa [partition_append (not_mem_name h).1]
      | bracketed hrest => exact absurd (List.mem_append_left _ (by decide)) hbracket
      | unclosed => exact absurd (by decide) hbracket

end

/-! ## Prefixes -/

theorem isSchemeChar_spec {c : CodePoint} (h : isSchemeChar c = true) : 32 < c.val ∧ c ≠ 58 := by
  have h43 : ((43 : CodePoint)).val = 43 := rfl
  have h45 : ((45 : CodePoint)).val = 45 := rfl
  have h46 : ((46 : CodePoint)).val = 46 := rfl
  have h58 : ((58 : CodePoint)).val = 58 := rfl
  simp only [isSchemeChar, isAlnum, Bool.or_eq_true, Bool.and_eq_true, decide_eq_true_eq,
    beq_iff_eq, Fin.ext_iff] at h
  rw [ne_eq, Fin.ext_iff]
  omega

theorem printable {s : Text} (h : ∀ c ∈ s, 32 < c.val) : unlined s = s := by
  refine unlined_self fun c hc => ?_
  have hpos := h c hc
  refine ⟨?_, ?_, ?_⟩ <;>
  · rintro rfl
    exact absurd hpos (by decide)

/-- A URL that starts with a scheme and a piece of its authority. -/
theorem splitUrl_of_start {scheme host t : Text} (hscheme : scheme.all isSchemeChar = true)
    (halpha : scheme.head?.any isAlpha = true)
    (hhost : host.all (fun c => 32 < c.val && !endsAuthority c) = true) :
    (splitUrl (scheme ++ text "://" ++ host ++ t)).scheme = scheme.map lowerAscii ∧
      (splitUrl (scheme ++ text "://" ++ host ++ t)).netloc = host ++ authorityRest t := by
  have hchars := fun c hc => isSchemeChar_spec (List.all_eq_true.mp hscheme c hc)
  simp only [List.all_eq_true, Bool.and_eq_true, decide_eq_true_eq] at hhost
  have hstart : ∀ c ∈ scheme ++ text "://" ++ host, 32 < c.val := by
    intro c hc
    rw [List.mem_append, List.mem_append] at hc
    obtain (hc | hc) | hc := hc
    · exact (hchars c hc).1
    · have hall : ((text "://").all fun c => decide (32 < c.val)) = true := by decide
      exact of_decide_eq_true (List.all_eq_true.mp hall c hc)
    · exact (hhost c hc).1
  have hurl : cleanUrl (scheme ++ text "://" ++ host ++ t) =
      scheme ++ 58 :: 47 :: 47 :: (host ++ unlined t) := by
    cases scheme with
    | nil => cases halpha
    | cons c scheme =>
      have hcons := cleanUrl_cons (hchars c List.mem_cons_self).1
        (scheme ++ text "://" ++ host ++ t)
      simp only [List.cons_append] at hstart ⊢
      rw [hcons, ← List.cons_append, unlined_append, printable hstart, List.cons_append,
        List.append_assoc, List.append_assoc]
      rfl
  obtain ⟨hs, hn⟩ := splitUrl_authority hurl (fun h => (hchars 58 h).2 rfl) halpha hscheme
  refine ⟨hs, hn.trans ?_⟩
  rw [List.takeWhile_append_of_pos fun c hc => (hhost c hc).2]
  rfl

theorem splitUrl_https (t : Text) : (splitUrl (text "https://" ++ t)).scheme = text "https" := by
  have hstart := @splitUrl_of_start (text "https") [] t (by decide) (by decide) rfl
  rw [List.append_nil] at hstart
  exact hstart.1.trans (by decide)

/-- The hosts of the prefixes, as they stand in an authority. -/
def loopbackStarts : List Text := [text "localhost", text "127.0.0.1", text "[::1]"]

theorem mem_loopbackPrefixes {p : Text} (h : p ∈ loopbackPrefixes) :
    ∃ host ∈ loopbackStarts, p = text "http" ++ text "://" ++ host := by
  simp only [loopbackPrefixes, List.mem_cons, List.not_mem_nil, or_false] at h
  obtain rfl | rfl | rfl := h
  · exact ⟨_, List.mem_cons_self, by decide⟩
  · exact ⟨_, .tail _ List.mem_cons_self, by decide⟩
  · exact ⟨_, .tail _ (.tail _ List.mem_cons_self), by decide⟩

theorem splitUrl_loopback {host : Text} (h : host ∈ loopbackStarts) (t : Text) :
    (splitUrl (text "http" ++ text "://" ++ host ++ t)).scheme = text "http" ∧
      (splitUrl (text "http" ++ text "://" ++ host ++ t)).netloc = host ++ authorityRest t := by
  have hall : (loopbackStarts.all fun host =>
      host.all fun c => 32 < c.val && !endsAuthority c) = true := by decide
  have hstart := @splitUrl_of_start (text "http") host t (by decide) (by decide)
    (List.all_eq_true.mp hall host h)
  exact ⟨hstart.1.trans (by decide), hstart.2⟩

/-! ## After the prefix -/

theorem lower_start {h : Text} (hh : h ∈ loopbackStarts) : h.map lowerAscii = h := by
  have hall : (loopbackStarts.all fun h => h.map lowerAscii == h) = true := by decide
  exact beq_iff_eq.mp (List.all_eq_true.mp hall h hh)

/-- Two of the hosts, up to letter case, that start the same text are the same. -/
theorem append_eq_of_start {h g host t rest : Text} (hh : h ∈ loopbackStarts)
    (hg : g ∈ loopbackStarts) (hhost : host.map lowerAscii = g) (heq : h ++ t = host ++ rest) :
    t = rest := by
  have hall : (loopbackStarts.all fun h => loopbackStarts.all fun g =>
      h.head? != g.head? || h.length == g.length) = true := by decide
  have hlen := List.all_eq_true.mp (List.all_eq_true.mp hall h hh) g hg
  rw [Bool.or_eq_true, bne_iff_ne, beq_iff_eq] at hlen
  have hne : loopbackStarts.all (fun h => h != []) = true := by decide
  have hhne : h ≠ [] := bne_iff_ne.mp (List.all_eq_true.mp hne h hh)
  have hgne : g ≠ [] := bne_iff_ne.mp (List.all_eq_true.mp hne g hg)
  have hhead : h.head? = g.head? := by
    have hmap := congrArg (fun l => (l.map lowerAscii).head?) heq
    simp only [List.map_append, lower_start hh, hhost] at hmap
    rwa [List.head?_append_of_ne_nil _ hhne, List.head?_append_of_ne_nil _ hgne] at hmap
  have hlength : h.length = host.length := by
    rw [hlen.resolve_left (not_not.mpr hhead), ← hhost, List.length_map]
  exact (List.append_inj heq hlength).2

/-- Without an `@`, the host of the prefix must end. -/
theorem loopbackText_append_iff {host : Text} (h : host ∈ loopbackStarts) {t : Text} :
    LoopbackText (host ++ t) ↔ EndsHost t := by
  have hnames : ∀ {g}, g ∈ [text "localhost", text "127.0.0.1"] → g ∈ loopbackStarts := by
    intro g hg
    exact (List.sublist_append_left [text "localhost", text "127.0.0.1"] [text "[::1]"]).subset hg
  have haddress : text "[::1]" ∈ loopbackStarts := by simp [loopbackStarts]
  constructor
  · intro htext
    generalize hinfo : host ++ t = info at htext
    cases htext with
    | name hg hrest =>
      rw [append_eq_of_start h (hnames hg) rfl hinfo]
      exact hrest
    | bracketed hrest =>
      rw [append_eq_of_start h haddress (lower_start haddress) hinfo]
      exact hrest
    | unclosed =>
      have hall : (loopbackStarts.all fun h => !h.isPrefixOf (text "[::1")) = true := by
        decide
      have hno := List.all_eq_true.mp hall host h
      rw [List.isPrefixOf_iff_prefix.mpr ⟨t, hinfo⟩] at hno
      cases hno
  · intro hrest
    simp only [loopbackStarts, List.mem_cons, List.not_mem_nil, or_false] at h
    obtain rfl | rfl | rfl := h
    · exact .name (by decide) hrest
    · exact .name (by decide) hrest
    · exact .bracketed hrest

theorem loopbackText_rest_iff {host : Text} (h : host ∈ loopbackStarts) {t : Text} :
    LoopbackText (rpartition 64 (host ++ authorityRest t)).2.2 ↔ StaysLoopback t := by
  have hall : (loopbackStarts.all fun host => !host.contains 64) = true := by decide
  have hat : (64 : CodePoint) ∉ host := fun hin => by
    have hno := List.all_eq_true.mp hall host h
    rw [List.contains_iff_mem.mpr hin] at hno
    cases hno
  rw [StaysLoopback]
  by_cases hrest : (64 : CodePoint) ∈ authorityRest t
  · obtain ⟨user, info, hcut, hno⟩ := exists_cut_last hrest
    rw [if_pos hrest, hcut, ← List.append_assoc, rpartition_append hno, rpartition_append hno]
  · rw [if_neg hrest, rpartition_self (by simp [hat, hrest])]
    exact loopbackText_append_iff h

/-! ## Accepted endpoints -/

theorem mcpEndpoint_start {G : Runtime} {nfkc : Text → Text} {uri : Text} {connect : ConnectURI}
    (h : parseConnectUri G nfkc uri = .ok connect) :
    text "https://" <+: connect.mcpEndpoint ∨
      ∃ p ∈ loopbackPrefixes, p <+: connect.mcpEndpoint := by
  simp only [parseConnectUri, connectUriOf, connectUriFrom, bind_eq_ok, guard_eq_ok,
    pure_eq_ok] at h
  obtain ⟨parts, -, -, -, -, -, pairs, -, seen, -, -, hstart, -, -, rfl⟩ := h
  rw [not_and_or, not_not, not_not, List.any_eq_true, List.isPrefixOf_iff_prefix] at hstart
  refine hstart.imp_right ?_
  rintro ⟨p, hp, hprefix⟩
  exact ⟨p, hp, List.isPrefixOf_iff_prefix.mp hprefix⟩

theorem endpoint_start {G : Runtime} {domain value : Text} {record : ProviderRecord}
    (h : parseProviderTxt G domain value = .ok record) :
    text "https://" <+: record.endpoint ∨ ∃ p ∈ loopbackPrefixes, p <+: record.endpoint := by
  obtain ⟨fields, -, hrecord, rfl⟩ := parseProviderTxt_eq_ok.mp h
  obtain ⟨ep, hep, hallowed⟩ := hrecord.endpoint
  have hget : (fields.record G domain).endpoint = ep := by
    rw [Fields.record, hep]
    rfl
  rw [hget]
  rw [allowedEndpoint, List.any_cons, Bool.or_eq_true, List.isPrefixOf_iff_prefix,
    List.any_eq_true] at hallowed
  refine hallowed.imp_right ?_
  rintro ⟨p, hp, hprefix⟩
  exact ⟨p, hp, List.isPrefixOf_iff_prefix.mp hprefix⟩

theorem urlparse_eq_ok {G : Runtime} {nfkc : Text → Text} {url : Text} {parts : ParseResult} :
    urlparse G nfkc url = .ok parts ↔
      authorityOk nfkc (splitUrl url).netloc = true ∧ splitUrl url = parts := by
  simp only [urlparse, guard_eq_ok, pure_eq_ok, not_not]

theorem bracketsOk_of_ok {nfkc : Text → Text} {netloc : Text} (h : authorityOk nfkc netloc = true) :
    bracketsOk netloc = true := by
  rw [authorityOk, Bool.and_eq_true] at h
  exact h.1

/-- **Where an accepted endpoint is encrypted or on the own machine.** -/
theorem encrypted_or_loopback_iff (G : Runtime) (nfkc : Text → Text) (endpoint : Text)
    (h : (∃ uri connect, parseConnectUri G nfkc uri = .ok connect ∧
        connect.mcpEndpoint = endpoint) ∨
      ∃ domain value record, parseProviderTxt G domain value = .ok record ∧
        record.endpoint = endpoint) :
    EncryptedOrLoopback G nfkc endpoint ↔
      text "https://" <+: endpoint ∨
        authorityOk nfkc (splitUrl endpoint).netloc = true ∧
          ∃ p ∈ loopbackPrefixes, ∃ t, endpoint = p ++ t ∧ StaysLoopback t := by
  have hstart : text "https://" <+: endpoint ∨ ∃ p ∈ loopbackPrefixes, p <+: endpoint := by
    obtain ⟨uri, connect, hparse, rfl⟩ | ⟨domain, value, record, hparse, rfl⟩ := h
    · exact mcpEndpoint_start hparse
    · exact endpoint_start hparse
  obtain ⟨t, rfl⟩ | ⟨p, hp, t, rfl⟩ := hstart
  · exact iff_of_true (.inl (splitUrl_https t)) (.inl ⟨t, rfl⟩)
  · obtain ⟨host, hhost, rfl⟩ := mem_loopbackPrefixes hp
    obtain ⟨hscheme, hnetloc⟩ := splitUrl_loopback hhost t
    have hnot : ¬ text "https://" <+: text "http" ++ text "://" ++ host ++ t := by
      rintro ⟨t', ht'⟩
      have hs := congrArg (fun s => (splitUrl s).scheme) ht'
      simp only [splitUrl_https, hscheme] at hs
      exact absurd hs (by decide)
    rw [EncryptedOrLoopback, hscheme, or_iff_right (by decide), or_iff_right hnot,
      and_iff_right rfl]
    constructor
    · rintro ⟨parts, hparse, hmem⟩
      obtain ⟨hok, rfl⟩ := urlparse_eq_ok.mp hparse
      rw [host_mem_iff (bracketsOk_of_ok hok), hnetloc, loopbackText_rest_iff hhost] at hmem
      exact ⟨hok, _, hp, t, rfl, hmem⟩
    · rintro ⟨hok, p', hp', t', ht', hstays⟩
      refine ⟨_, urlparse_eq_ok.mpr ⟨hok, rfl⟩, ?_⟩
      obtain ⟨host', hhost', rfl⟩ := mem_loopbackPrefixes hp'
      have hcut : host ++ t = host' ++ t' := by
        simpa only [List.append_assoc, List.append_cancel_left_eq] using ht'
      have hsame : t = t' := append_eq_of_start hhost hhost' (lower_start hhost') hcut
      rw [host_mem_iff (bracketsOk_of_ok hok), hnetloc, loopbackText_rest_iff hhost, hsame]
      exact hstays

/-- A port after the host of the prefix. -/
theorem encrypted_or_loopback_port :
    EncryptedOrLoopback bareRuntime id (text "http://localhost:8080/mcp") :=
  (encrypted_or_loopback_iff bareRuntime id _ (.inl
    ⟨text "shadow://connect?mcp=http://localhost:8080/mcp&token=t",
      ⟨text "http://localhost:8080/mcp", some (text "t"), none⟩, by decide, rfl⟩)).mpr
    (.inr ⟨by decide, text "http://localhost", List.mem_cons_self, text ":8080/mcp",
      by decide, by
        rw [StaysLoopback, if_neg (by decide)]
        exact .inr (by decide)⟩)

/-- More labels after the prefix, or a host after an `@`: both parsers accept them. -/
theorem clear_text_to_other_hosts :
    (∃ connect, parseConnectUri bareRuntime id
        (text "shadow://connect?mcp=http://localhost.evil.com&token=t") = .ok connect ∧
      ¬ EncryptedOrLoopback bareRuntime id connect.mcpEndpoint) ∧
    (∃ connect, parseConnectUri bareRuntime id
        (text "shadow://connect?mcp=http://127.0.0.1@evil.com&token=t") = .ok connect ∧
      ¬ EncryptedOrLoopback bareRuntime id connect.mcpEndpoint) := by
  have hclear : ∀ endpoint : Text, (splitUrl endpoint).scheme ≠ text "https" →
      (hostinfo (splitUrl endpoint).netloc).1.map lowerAscii ∉ loopbackHosts →
      ¬ EncryptedOrLoopback bareRuntime id endpoint := by
    rintro endpoint hscheme hhost (hs | ⟨-, parts, hparse, hmem⟩)
    · exact hscheme hs
    · obtain ⟨-, rfl⟩ := urlparse_eq_ok.mp hparse
      exact hhost hmem
  refine ⟨⟨⟨text "http://localhost.evil.com", some (text "t"), none⟩, by decide, ?_⟩,
    ⟨⟨text "http://127.0.0.1@evil.com", some (text "t"), none⟩, by decide, ?_⟩⟩
  · exact hclear (text "http://localhost.evil.com") (by decide) (by decide)
  · exact hclear (text "http://127.0.0.1@evil.com") (by decide) (by decide)

end Shadownet.Receiver
