import Shadownet.Interop.Base58
import Shadownet.Interop.Names
import Shadownet.Issuer.Authz
import Shadownet.Receiver.Provider
import Shadownet.Receiver.Rotation

/-!
# Issuer authorisation in both languages

The Go issuer looks for `delegate=` in every TXT string at `_shadownet.<org>`; the Python
verifiers parse one provider record there. They agree when the names alone decide.
`authorization_agrees_iff` says for which TXT strings they agree otherwise.
-/

namespace Shadownet.Interop

open Foundation

/-! ## Identifiers -/

/-- An ASCII domain or public key for both languages, with the canonical form of it. -/
structure Recognised (G : Go.Runtime) (G' : Python.Runtime) (s c : Text) : Prop where
  ascii : ∀ x ∈ s, x.IsAscii
  go : Go.classify G (utf8 s) = .domain ∨ Go.classify G (utf8 s) = .pubKey
  python : Python.canonicalizeIssuerOrOrgIdentifier G' s = .ok c

section
variable {G : Go.Runtime} {G' : Python.Runtime} {s c : Text}

theorem map_latin_utf8 (hascii : ∀ x ∈ s, x.IsAscii) : (utf8 s).map latin = s := by
  rw [utf8_ascii hascii, List.map_map]
  conv_rhs => rw [← List.map_id s]
  refine List.map_congr_left fun x hx => Fin.ext ?_
  have hlt : x.val < 0x80 := hascii x hx
  rw [Function.comp_apply, latin_val, toNat_ofNat_of_lt (by omega)]
  rfl

theorem prefix_utf8 {t : Text} (ht : ∀ x ∈ t, x.IsAscii) (hs : ∀ x ∈ s, x.IsAscii) :
    utf8 t <+: utf8 s ↔ t <+: s := by
  constructor
  · intro h
    rw [← map_latin_utf8 ht, ← map_latin_utf8 hs]
    exact h.map latin
  · rintro ⟨r, rfl⟩
    rw [utf8_append]
    exact List.prefix_append _ _

theorem suffix_utf8 {t : Text} (ht : ∀ x ∈ t, x.IsAscii) (hs : ∀ x ∈ s, x.IsAscii) :
    utf8 t <:+ utf8 s ↔ t <:+ s := by
  constructor
  · intro h
    rw [← map_latin_utf8 ht, ← map_latin_utf8 hs]
    exact h.map latin
  · rintro ⟨r, rfl⟩
    rw [utf8_append]
    exact List.suffix_append _ _

theorem isPrefixOf_z6Mk (hascii : ∀ x ∈ s, x.IsAscii) :
    (bytes "z6Mk").isPrefixOf (utf8 s) = (text "z6Mk").isPrefixOf s := by
  rw [Bool.eq_iff_iff, List.isPrefixOf_iff_prefix, List.isPrefixOf_iff_prefix, ← utf8_text]
  have hkey : ((text "z6Mk").all fun x => decide x.IsAscii) = true := by decide
  exact prefix_utf8 (fun x hx => of_decide_eq_true (List.all_eq_true.mp hkey x hx)) hascii

theorem contains_at (hascii : ∀ x ∈ s, x.IsAscii) : (utf8 s).contains 0x40 = s.contains 64 := by
  rw [Bool.eq_iff_iff, List.contains_iff_mem, List.contains_iff_mem, utf8_ascii hascii,
    List.mem_map]
  constructor
  · rintro ⟨x, hx, hval⟩
    have hlt : x.val < 0x80 := hascii x hx
    have h64 : x = 64 := by
      refine Fin.ext ?_
      rw [← toNat_ofNat_of_lt (show x.val < 256 by omega), hval]
      rfl
    exact h64 ▸ hx
  · intro h
    exact ⟨64, h, rfl⟩

/-- A public key is a public key in Python. -/
theorem isPublicKeyIdentifier_of_go (hascii : ∀ x ∈ s, x.IsAscii)
    (h : Go.classify G (utf8 s) = .pubKey) : Python.isPublicKeyIdentifier s = true := by
  rw [Go.classify, contains_at hascii, isPrefixOf_z6Mk hascii] at h
  split_ifs at h with hat hat' hp
  rw [Python.isPublicKeyIdentifier, Python.isShadowname, hp]
  simpa using hat

/-- A text without capital letters is no public key. -/
theorem not_publicKey_of_lower (h : c.map Python.lowerAscii = c) :
    Python.isPublicKeyIdentifier c = false := by
  by_contra hkey
  rw [Bool.not_eq_false, Python.isPublicKeyIdentifier, Bool.and_eq_true,
    List.isPrefixOf_iff_prefix] at hkey
  obtain ⟨⟨r, rfl⟩, -⟩ := hkey
  rw [List.map_append] at h
  have hprefix := (List.append_inj h (by simp)).1
  revert hprefix
  decide

theorem Recognised.domain (h : Recognised G G' s c) (hd : Go.classify G (utf8 s) = .domain) :
    DomainText c ∧ c.map Python.lowerAscii = c ∧ Go.canonicalDomain G (utf8 s) = .ok (utf8 c) := by
  obtain ⟨D, hD, hlower, hcanonical, hvalid⟩ :=
    canonicalDomain_of_go G' h.ascii (Go.validateDomain_of_classify hd)
  have hkey : Python.isPublicKeyIdentifier s = false := by
    rw [Go.classify, contains_at h.ascii, isPrefixOf_z6Mk h.ascii] at hd
    split_ifs at hd with hat hat' hp hp'
    rw [Python.isPublicKeyIdentifier, Bool.eq_false_of_not_eq_true hp]
    rfl
  have hpython := h.python
  rw [Python.canonicalizeIssuerOrOrgIdentifier, hkey, if_neg Bool.false_ne_true, hvalid] at hpython
  cases hpython
  exact ⟨hD, hlower, hcanonical⟩

theorem Recognised.key (h : Recognised G G' s c) (hk : Go.classify G (utf8 s) = .pubKey) :
    c = s ∧ Python.isPublicKeyIdentifier c = true := by
  have hkey := isPublicKeyIdentifier_of_go h.ascii hk
  have hpython := h.python
  rw [Python.canonicalizeIssuerOrOrgIdentifier, if_pos hkey] at hpython
  simp only [Python.validateMultibasePk, guard_eq_ok, bind_eq_ok, pure_eq_ok] at hpython
  obtain ⟨-, -, -, -, rfl⟩ := hpython
  exact ⟨rfl, hkey⟩

end

/-! ## The names alone -/

/-- The issuer is the organisation or, for domains, below it. -/
def ByName (iss org : Text) : Prop :=
  iss = org ∨ (Python.isPublicKeyIdentifier iss = false ∧
    Python.isPublicKeyIdentifier org = false ∧ (46 :: org) <:+ iss)

/-- Two domains of which the issuer is neither the organisation nor below it. -/
def NeedsDelegate (iss org : Text) : Prop :=
  Python.isPublicKeyIdentifier iss = false ∧ Python.isPublicKeyIdentifier org = false ∧
    ¬ ByName iss org

/-- With a key on either side only equality is left. -/
theorem byName_or_of_key {iss org : Text} {p : Prop}
    (h : Python.isPublicKeyIdentifier iss = true ∨ Python.isPublicKeyIdentifier org = true) :
    ByName iss org ∨ (NeedsDelegate iss org ∧ p) ↔ iss = org := by
  rw [ByName, NeedsDelegate]
  rcases h with h | h <;> simp [h]

/-! ## The TXT strings -/

/-- As Go reads a TXT string: a token `delegate=` with the issuer, up to case and a dot at the
end. -/
def NamedIn (G : Go.Runtime) (iss line : Bytes) : Prop :=
  ∃ part ∈ line.splitOn 0x3B, ∃ d, Go.trimSpace part = bytes "delegate=" ++ d ∧
    G.lower (Go.trimDot d) = iss

/-- A TXT string that Python takes for a provider record. -/
def IsRecord (G : Python.Runtime) (line : Bytes) : Prop :=
  ∃ value fields, utf8Decode line = some value ∧ Receiver.parseKv G value = .ok fields ∧
    Receiver.IsProviderRecord G fields

/-- As Python reads the TXT strings: all of them are UTF-8, one is a provider record, and a
delegate of that record is the issuer, up to case. -/
def ListedByRecord (G : Python.Runtime) (iss : Text) (lines : List Bytes) : Prop :=
  (∀ line ∈ lines, (utf8Decode line).isSome = true) ∧
    ∃ before line after, lines = before ++ line :: after ∧
      (∀ other ∈ before ++ after, ¬ IsRecord G other) ∧ IsRecord G line ∧
      ∃ value d, utf8Decode line = some value ∧ Receiver.DelegateIn G value d ∧ G.lower d = iss

/-- Some string names the issuer, but Python reads no record that lists it. -/
def NamedOutsideRecord (G : Go.Runtime) (G' : Python.Runtime) (iss : Text) (lines : List Bytes) :
    Prop :=
  (∃ line ∈ lines, NamedIn G (utf8 iss) line) ∧ ¬ ListedByRecord G' iss lines

/-- The record lists the issuer in a spelling that Go does not take. -/
def ListedOtherwise (G : Go.Runtime) (G' : Python.Runtime) (iss : Text) (lines : List Bytes) :
    Prop :=
  ListedByRecord G' iss lines ∧ ∀ line ∈ lines, ¬ NamedIn G (utf8 iss) line

section
variable {G : Go.Runtime} {G' : Python.Runtime} {iss org issC orgC : Text}

theorem mem_extractDelegates {txt : List Bytes} {d : Bytes} :
    d ∈ Issuer.extractDelegates txt ↔ ∃ line ∈ txt, ∃ part ∈ line.splitOn 0x3B,
      Go.trimSpace part = bytes "delegate=" ++ d := by
  have htoken : ∀ token, Issuer.delegateOf token = some d ↔ token = bytes "delegate=" ++ d := by
    intro token
    rw [Issuer.delegateOf]
    constructor
    · intro h
      split_ifs at h with hp
      obtain ⟨r, rfl⟩ := List.isPrefixOf_iff_prefix.mp hp
      have hdrop : (bytes "delegate=" ++ r).drop 9 = r := rfl
      rw [hdrop] at h
      rw [Option.some.inj h]
    · rintro rfl
      rw [if_pos (List.isPrefixOf_iff_prefix.mpr (List.prefix_append _ _))]
      rfl
  simp only [Issuer.extractDelegates, Issuer.splitTokens, List.mem_flatMap, List.mem_filterMap,
    htoken]
  constructor
  · rintro ⟨line, hline, token, htok, rfl⟩
    obtain ⟨part, hpart, heq⟩ := List.mem_map.mp (List.mem_of_mem_filter htok)
    exact ⟨line, hline, part, hpart, heq⟩
  · rintro ⟨line, hline, part, hpart, heq⟩
    refine ⟨line, hline, _, List.mem_filter.mpr ⟨List.mem_map.mpr ⟨part, hpart, heq⟩, ?_⟩, rfl⟩
    exact decide_eq_true nofun

theorem Recognised.clean (h : Recognised G G' iss issC) : Python.Clean iss := clean_of_ascii h.ascii

/-- Two domains in Go, by their canonical forms. -/
theorem isSubdomainOf_iff (hiss : Recognised G G' iss issC)
    (hid : Go.classify G (utf8 iss) = .domain) (horg : Recognised G G' org orgC)
    (hod : Go.classify G (utf8 org) = .domain) :
    Go.isSubdomainOf G (utf8 iss) (utf8 org) = true ↔ ByName issC orgC := by
  obtain ⟨hI, hIlow, hIcan⟩ := hiss.domain hid
  obtain ⟨hO, hOlow, hOcan⟩ := horg.domain hod
  have hdot : (0x2E : UInt8) :: utf8 orgC = utf8 (46 :: orgC) := rfl
  have hdotAscii : ∀ x ∈ (46 : CodePoint) :: orgC, x.IsAscii :=
    List.forall_mem_cons.mpr ⟨by decide, hO.ascii⟩
  have heq : utf8 issC = utf8 orgC ↔ issC = orgC :=
    ⟨utf8_injective (clean_of_ascii hI.ascii) (clean_of_ascii hO.ascii), congrArg utf8⟩
  rw [Go.isSubdomainOf, hIcan, hOcan, ByName, not_publicKey_of_lower hIlow,
    not_publicKey_of_lower hOlow]
  simp only [Bool.or_eq_true, beq_iff_eq, List.isSuffixOf_iff_suffix, true_and, heq, hdot,
    suffix_utf8 hdotAscii hI.ascii]

/-- The delegates of the TXT strings, against the issuer. -/
theorem listed_iff {txt : List Bytes}
    (hcanonical : Go.canonicalDomain G (utf8 iss) = .ok (utf8 issC)) :
    Issuer.listed G (utf8 iss) (Issuer.extractDelegates txt) = true ↔
      ∃ line ∈ txt, NamedIn G (utf8 issC) line := by
  have hlower : G.lower (Go.trimDot (utf8 iss)) = utf8 issC :=
    (Go.canonicalDomain_ok_iff.mp hcanonical).2
  simp only [Issuer.listed, List.any_eq_true, mem_extractDelegates, beq_iff_eq, hlower, NamedIn]
  constructor
  · rintro ⟨d, ⟨line, hline, part, hpart, heq⟩, hd⟩
    exact ⟨line, hline, part, hpart, d, heq, hd⟩
  · rintro ⟨line, hline, part, hpart, d, heq, hd⟩
    exact ⟨d, ⟨line, hline, part, hpart, heq⟩, hd⟩

/-- What Go accepts. -/
theorem authorizeWith_iff {cfg : Issuer.AuthzConfig} {now : Go.Time}
    {resolver : Bytes → Go.GoM (List Bytes)} {txt : List Bytes} (hiss : Recognised G G' iss issC)
    (horg : Recognised G G' org orgC)
    (htxt : resolver (Issuer.shadownetName (utf8 orgC)) = .ok txt) :
    Issuer.authorizeWith G cfg .empty now resolver (utf8 iss) (utf8 org) = .ok () ↔
      ByName issC orgC ∨ (NeedsDelegate issC orgC ∧ ∃ line ∈ txt, NamedIn G (utf8 issC) line) := by
  have hname : ¬ Issuer.ShadownameListed G .empty now resolver (utf8 iss) (utf8 org) := by
    rintro ⟨h, -⟩
    rcases hiss.go with h' | h' <;> rw [h] at h' <;> cases h'
  rw [Issuer.authorizeWith_eq_ok, or_iff_left hname, Issuer.AuthorizedFor]
  rcases hiss.go with hid | hik <;> rcases horg.go with hod | hok
  · obtain ⟨hI, hIlow, hIcan⟩ := hiss.domain hid
    obtain ⟨hO, hOlow, hOcan⟩ := horg.domain hod
    have hforce : Issuer.delegatesInForce .empty now resolver (utf8 orgC) =
        .ok (Issuer.extractDelegates txt) := by
      rw [Issuer.delegatesInForce]
      simp [Issuer.DelegateCache.empty, htxt, Except.map]
    have hequal : (∃ d, Go.canonicalDomain G (utf8 iss) = .ok d ∧
        Go.canonicalDomain G (utf8 org) = .ok d) → ByName issC orgC := by
      rintro ⟨d, hd, hd'⟩
      rw [hIcan] at hd
      rw [hOcan, ← hd] at hd'
      exact .inl (utf8_injective (clean_of_ascii hI.ascii) (clean_of_ascii hO.ascii)
        (Except.ok.inj hd').symm)
    have hdelegates : (∃ d delegates, Go.canonicalDomain G (utf8 org) = .ok d ∧
        Issuer.delegatesInForce .empty now resolver d = .ok delegates ∧
        Issuer.listed G (utf8 iss) delegates = true) ↔
        ∃ line ∈ txt, NamedIn G (utf8 issC) line := by
      rw [← listed_iff hIcan]
      constructor
      · rintro ⟨d, delegates, hd, hds, hl⟩
        rw [hOcan] at hd
        rw [← Except.ok.inj hd, hforce] at hds
        rw [Except.ok.inj hds]
        exact hl
      · intro hl
        exact ⟨_, _, hOcan, hforce, hl⟩
    rw [isSubdomainOf_iff hiss hid horg hod, hdelegates, NeedsDelegate,
      not_publicKey_of_lower hIlow, not_publicKey_of_lower hOlow]
    simp only [hid, hod, reduceCtorEq, false_and, true_and, false_or]
    constructor
    · rintro (h | h | h)
      · exact .inl (hequal h)
      · exact .inl h
      · by_cases hby : ByName issC orgC
        · exact .inl hby
        · exact .inr ⟨hby, h⟩
    · rintro (h | ⟨-, h⟩)
      · exact .inr (.inl h)
      · exact .inr (.inr h)
  · obtain ⟨-, hIlow, -⟩ := hiss.domain hid
    obtain ⟨-, hkey⟩ := horg.key hok
    rw [byName_or_of_key (.inr hkey)]
    simp only [hid, hok, reduceCtorEq, false_and, and_false, or_false, false_iff]
    rintro rfl
    rw [not_publicKey_of_lower hIlow] at hkey
    cases hkey
  · obtain ⟨-, hOlow, -⟩ := horg.domain hod
    obtain ⟨-, hkey⟩ := hiss.key hik
    rw [byName_or_of_key (.inl hkey)]
    simp only [hik, hod, reduceCtorEq, false_and, and_false, or_false, false_iff]
    rintro rfl
    rw [not_publicKey_of_lower hOlow] at hkey
    cases hkey
  · obtain ⟨rfl, hkey⟩ := hiss.key hik
    obtain ⟨rfl, -⟩ := horg.key hok
    rw [byName_or_of_key (.inl hkey)]
    simp only [hik, hok, reduceCtorEq, false_and, true_and, or_false]
    exact ⟨utf8_injective hiss.clean horg.clean, congrArg utf8⟩

/-! ## The check in Python -/

/-- The network, with provider records looked up in the DNS. -/
def overDns (P : Receiver.Plugs) (G : Python.Runtime) (D : Receiver.Dns) : Receiver.Plugs :=
  { P with providerLookup := fun _ => Receiver.lookupProviderRecord G D }

/-- The check for the organisation passes. -/
def Authorizes (v : Receiver.Verifier) (G : Python.Runtime) (P : Receiver.Plugs)
    (w : Receiver.World) (iss org : Text) : Prop :=
  (Fallible.execute P.answer (v.authorize G iss org) w).1 = .ok ()

theorem execute_py {α : Type} {P : Receiver.Plugs} (x : Python.Py α) (w : Receiver.World) :
    Fallible.execute P.answer (Receiver.py x) w = (x, w) := rfl

theorem authorizes_iff {v : Receiver.Verifier} {P : Receiver.Plugs} {w : Receiver.World} :
    Authorizes v G' P w iss org ↔ iss = org ∨ (Python.isPublicKeyIdentifier iss = false ∧
      Python.isPublicKeyIdentifier org = false ∧
      (Python.isSubdomainOf G' iss org = .ok true ∨ (Python.isSubdomainOf G' iss org = .ok false ∧
        ∃ record, P.providerLookup w.turn org = .ok record ∧
          ∃ d ∈ record.delegates, G'.lower d = G'.lower iss))) := by
  rw [Authorizes, v.authorize_eq, Receiver.checkIssuerAuthorizedForOrg]
  by_cases heq : iss = org
  · rw [if_pos heq]
    exact ⟨fun _ => .inl heq, fun _ => rfl⟩
  rw [if_neg heq, or_iff_right heq]
  by_cases hkey : (Python.isPublicKeyIdentifier iss || Python.isPublicKeyIdentifier org) = true
  · rw [if_pos hkey, Fallible.execute_throw]
    rcases Bool.or_eq_true_iff.mp hkey with h | h <;> simp [h]
  rw [if_neg hkey, Fallible.execute_bind_eq_ok]
  simp only [Bool.or_eq_true, not_or, Bool.not_eq_true] at hkey
  simp only [hkey.1, hkey.2, true_and, execute_py, Prod.mk.injEq]
  -- The outcome of the lookup passes through the handler of its errors.
  have hlookup : ∀ (f : Receiver.ProviderRecord → Receiver.Rx Unit)
      (convert : Python.Exc → Python.Exc),
      (Fallible.execute P.answer (Fallible.mapOutcome
        (Python.reraise [.providerResolutionError] convert)
        (Receiver.askPy (.providerLookup org) id) >>= f) w).1 = .ok () ↔
      ∃ record, P.providerLookup w.turn org = .ok record ∧
        (Fallible.execute P.answer (f record) ⟨w.stores, w.turn + 1⟩).1 = .ok () := by
    intro f convert
    rw [Fallible.execute_bind_eq_ok]
    simp only [Fallible.execute_mapOutcome, Receiver.execute_askPy, Prod.mk.injEq,
      Python.reraise_eq_ok]
    constructor
    · rintro ⟨record, _, ⟨hr, rfl⟩, h⟩
      exact ⟨record, hr, h⟩
    · rintro ⟨record, hr, h⟩
      exact ⟨record, _, ⟨hr, rfl⟩, h⟩
  constructor
  · rintro ⟨sub, _, ⟨hsub, rfl⟩, h⟩
    cases sub with
    | true => exact .inl hsub
    | false =>
      rw [if_neg Bool.false_ne_true, hlookup] at h
      obtain ⟨record, hr, h⟩ := h
      refine .inr ⟨hsub, record, hr, ?_⟩
      split_ifs at h with hin
      · obtain ⟨d, hd, hlow⟩ := List.mem_map.mp (List.contains_iff_mem.mp hin)
        exact ⟨d, hd, hlow⟩
      · cases h
  · rintro (hsub | ⟨hsub, record, hr, d, hd, hlow⟩)
    · exact ⟨true, w, ⟨hsub, rfl⟩, rfl⟩
    · refine ⟨false, w, ⟨hsub, rfl⟩, ?_⟩
      rw [if_neg Bool.false_ne_true, hlookup]
      refine ⟨record, hr, ?_⟩
      rw [if_pos (List.contains_iff_mem.mpr (List.mem_map.mpr ⟨d, hd, hlow⟩))]
      rfl

theorem recordIn_eq_some {line : Bytes} {record : Receiver.ProviderRecord} :
    Receiver.recordIn G' org line = some record ↔ ∃ value fields, utf8Decode line = some value ∧
      Receiver.parseKv G' value = .ok fields ∧ Receiver.IsProviderRecord G' fields ∧
      record = fields.record G' org := by
  rw [Receiver.recordIn, Option.bind_eq_some_iff]
  constructor
  · rintro ⟨value, hdec, h⟩
    cases hparse : Receiver.parseProviderTxt G' org value with
    | error e =>
      rw [hparse] at h
      cases h
    | ok r =>
      rw [hparse] at h
      cases h
      obtain ⟨fields, hkv, hrec, heq⟩ := Receiver.parseProviderTxt_eq_ok.mp hparse
      exact ⟨value, fields, hdec, hkv, hrec, heq⟩
  · rintro ⟨value, fields, hdec, hkv, hrec, heq⟩
    refine ⟨value, hdec, ?_⟩
    rw [Receiver.parseProviderTxt_eq_ok.mpr ⟨fields, hkv, hrec, heq⟩]
    rfl

theorem recordIn_eq_none {line : Bytes} :
    Receiver.recordIn G' org line = none ↔ ¬ IsRecord G' line := by
  rw [Option.eq_none_iff_forall_ne_some]
  constructor
  · rintro h ⟨value, fields, hdec, hkv, hrec⟩
    exact h _ (recordIn_eq_some.mpr ⟨value, fields, hdec, hkv, hrec, rfl⟩)
  · intro h record hr
    obtain ⟨value, fields, hdec, hkv, hrec, -⟩ := recordIn_eq_some.mp hr
    exact h ⟨value, fields, hdec, hkv, hrec⟩

/-- The record of the lookup lists the issuer. -/
theorem listedByRecord_iff {lines : List Bytes} :
    ListedByRecord G' iss lines ↔ ∃ record, ((∀ line ∈ lines, (utf8Decode line).isSome = true) ∧
      lines.filterMap (Receiver.recordIn G' org) = [record]) ∧
      ∃ d ∈ record.delegates, G'.lower d = iss := by
  constructor
  · rintro ⟨hdecodes, before, line, after, rfl, hothers, ⟨value, fields, hdec, hkv, hrec⟩, value',
      d, hdec', hd, hlow⟩
    have hothers : ∀ other ∈ before ++ after, Receiver.recordIn G' org other = none :=
      fun other ho => recordIn_eq_none.mpr (hothers other ho)
    cases Option.some.inj (hdec.symm.trans hdec')
    refine ⟨fields.record G' org, ⟨hdecodes, ?_⟩, d,
      (Receiver.mem_delegates hkv).mpr hd, hlow⟩
    rw [List.filterMap_eq_cons_iff]
    refine ⟨before, line, after, rfl, fun other ho => hothers other (List.mem_append_left _ ho),
      ?_, ?_⟩
    · exact recordIn_eq_some.mpr ⟨value, fields, hdec, hkv, hrec, rfl⟩
    · exact List.filterMap_eq_nil_iff.mpr fun other ho => hothers other (List.mem_append_right _ ho)
  · rintro ⟨record, ⟨hdecodes, hone⟩, d, hd, hlow⟩
    obtain ⟨before, line, after, rfl, hbefore, hline, hafter⟩ := List.filterMap_eq_cons_iff.mp hone
    obtain ⟨value, fields, hdec, hkv, hrec, rfl⟩ := recordIn_eq_some.mp hline
    refine ⟨hdecodes, before, line, after, rfl, ?_, ⟨value, fields, hdec, hkv, hrec⟩, value, d,
      hdec, (Receiver.mem_delegates hkv).mp hd, hlow⟩
    intro other ho
    rw [← @recordIn_eq_none _ org]
    rcases List.mem_append.mp ho with ho | ho
    · exact hbefore other ho
    · exact List.filterMap_eq_nil_iff.mp hafter other ho

/-- What Python accepts. -/
theorem authorizes_overDns_iff {v : Receiver.Verifier} {P : Receiver.Plugs} {D : Receiver.Dns}
    {w : Receiver.World} {answer : List Receiver.Rdata} (hiss : Recognised G G' iss issC)
    (horg : Recognised G G' org orgC)
    (hanswer : D.resolve (text "_shadownet." ++ orgC) = .ok answer) :
    Authorizes v G' (overDns P G' D) w issC orgC ↔ ByName issC orgC ∨
      (NeedsDelegate issC orgC ∧ ListedByRecord G' issC (Receiver.txtLines answer)) := by
  have hkeyed : Python.isPublicKeyIdentifier issC = true ∨
      Python.isPublicKeyIdentifier orgC = true →
      (Authorizes v G' (overDns P G' D) w issC orgC ↔ ByName issC orgC ∨
        (NeedsDelegate issC orgC ∧ ListedByRecord G' issC (Receiver.txtLines answer))) := by
    intro h
    rw [byName_or_of_key h, authorizes_iff]
    rcases h with h | h <;> simp [h]
  rcases hiss.go with hid | hik
  swap
  · exact hkeyed (.inl (hiss.key hik).2)
  rcases horg.go with hod | hok
  swap
  · exact hkeyed (.inr (horg.key hok).2)
  obtain ⟨hI, hIlow, -⟩ := hiss.domain hid
  obtain ⟨hO, hOlow, -⟩ := horg.domain hod
  have hvalid : ∀ {t : Text}, DomainText t → t.map Python.lowerAscii = t →
      Python.validateDomain G' t = .ok t := by
    intro t ht hlow
    rw [ht.validateDomain G' (.inl rfl), hlow]
  have hsub : Python.isSubdomainOf G' issC orgC =
      .ok (issC == orgC || (46 :: orgC).isSuffixOf issC) := by
    rw [Python.isSubdomainOf, hvalid hI hIlow, ok_bind, hvalid hO hOlow, ok_bind]
    rfl
  have hlower : G'.lower issC = issC := by
    rw [Python.Runtime.lower,
      if_pos (List.all_eq_true.mpr fun c hc => decide_eq_true (hI.ascii c hc)), hIlow]
  have hlookup : ∀ record, (overDns P G' D).providerLookup w.turn orgC = .ok record ↔
      (∀ line ∈ Receiver.txtLines answer, (utf8Decode line).isSome = true) ∧
        (Receiver.txtLines answer).filterMap (Receiver.recordIn G' orgC) = [record] := by
    intro record
    show Receiver.lookupProviderRecord G' D orgC = .ok record ↔ _
    rw [Receiver.lookupProviderRecord, hO.rstripDot]
    simp only [hanswer, Receiver.recordsFromAnswer_eq_ok]
  have hby : (issC == orgC || (46 :: orgC).isSuffixOf issC) = true ↔ ByName issC orgC := by
    rw [ByName, not_publicKey_of_lower hIlow, not_publicKey_of_lower hOlow]
    simp
  rw [authorizes_iff, hsub, hlower]
  simp only [hlookup, ← listedByRecord_iff, NeedsDelegate, not_publicKey_of_lower hIlow,
    not_publicKey_of_lower hOlow, true_and, Except.ok.injEq, hby]
  constructor
  · rintro (rfl | h | ⟨hnot, h⟩)
    · exact .inl (.inl rfl)
    · exact .inl h
    · refine .inr ⟨fun h => ?_, h⟩
      rw [← hby, hnot] at h
      cases h
  · rintro (h | ⟨hnot, h⟩)
    · exact .inr (.inl h)
    · refine .inr (.inr ⟨?_, h⟩)
      rw [← hby, Bool.not_eq_true] at hnot
      exact hnot

end

/-! ## Agreement -/

/-- The two languages agree on an issuer and an organisation exactly when the names alone decide
or the TXT strings name the issuer in the one provider record that Python reads, in a spelling
that Go takes, or nowhere. -/
theorem authorization_agrees_iff {G : Go.Runtime} {G' : Python.Runtime} {iss org issC orgC : Text}
    (cfg : Issuer.AuthzConfig) (now : Go.Time) {resolver : Bytes → Go.GoM (List Bytes)}
    (v : Receiver.Verifier) (P : Receiver.Plugs) {D : Receiver.Dns} (w : Receiver.World)
    {txt : List Bytes} {answer : List Receiver.Rdata} (hiss : Recognised G G' iss issC)
    (horg : Recognised G G' org orgC)
    (htxt : resolver (Issuer.shadownetName (utf8 orgC)) = .ok txt)
    (hanswer : D.resolve (text "_shadownet." ++ orgC) = .ok answer)
    (hsame : txt.Perm (Receiver.txtLines answer)) :
    (Issuer.authorizeWith G cfg .empty now resolver (utf8 iss) (utf8 org) = .ok () ↔
      Authorizes v G' (overDns P G' D) w issC orgC) ↔
    ¬ (NeedsDelegate issC orgC ∧ (NamedOutsideRecord G G' issC (Receiver.txtLines answer) ∨
      ListedOtherwise G G' issC (Receiver.txtLines answer))) := by
  have hlines : (∃ line ∈ txt, NamedIn G (utf8 issC) line) ↔
      ∃ line ∈ Receiver.txtLines answer, NamedIn G (utf8 issC) line :=
    exists_congr fun line => and_congr_left fun _ => hsame.mem_iff
  have hnone : (∀ line ∈ Receiver.txtLines answer, ¬ NamedIn G (utf8 issC) line) ↔
      ¬ ∃ line ∈ Receiver.txtLines answer, NamedIn G (utf8 issC) line := by
    simp only [not_exists, not_and]
  rw [authorizeWith_iff hiss horg htxt, authorizes_overDns_iff hiss horg hanswer, hlines,
    NamedOutsideRecord, ListedOtherwise, hnone]
  generalize (∃ line ∈ Receiver.txtLines answer, NamedIn G (utf8 issC) line) = named
  generalize ListedByRecord G' issC (Receiver.txtLines answer) = record
  by_cases hneeds : NeedsDelegate issC orgC
  · have hby : ¬ ByName issC orgC := hneeds.2.2
    by_cases hn : named <;> by_cases hr : record <;> simp [hneeds, hby, hn, hr]
  · simp [hneeds]

/-! ### A record with a delegate, and a delegate without a record -/

/-- The TXT strings of `a.co` in Go and in Python. -/
def zone (line : String) : List Receiver.Rdata := [.txt [bytes line]]

def zoneResolver (line : String) (name : Bytes) : Go.GoM (List Bytes) :=
  if name = bytes "_shadownet.a.co" then .ok [bytes line] else .error (bytes "no such host")

def zoneDns (line : String) : Receiver.Dns where
  resolve name := if name = text "_shadownet.a.co" then .ok (zone line) else .error .nxdomain
  decodeText _ := []

def zoneRecord : String :=
  "v=0.2; ep=https://a.co/v1; pk=z6Mkon3Necd6NkkyfoGoHxid2znGc59LU3K7mubaRcFbLfLX; delegate=b.co"

theorem recognised_zone :
    Recognised Issuer.plainRuntime Python.helloRuntime (text "b.co") (text "b.co") ∧
    Recognised Issuer.plainRuntime Python.helloRuntime (text "a.co") (text "a.co") := by
  have hascii : ((text "b.co" ++ text "a.co").all fun x => decide x.IsAscii) = true := by
    decide
  have hmem : ∀ x ∈ text "b.co" ++ text "a.co", x.IsAscii := fun x hx =>
    of_decide_eq_true (List.all_eq_true.mp hascii x hx)
  refine ⟨⟨fun x hx => hmem x (List.mem_append_left _ hx), ?_, ?_⟩,
    ⟨fun x hx => hmem x (List.mem_append_right _ hx), ?_, ?_⟩⟩ <;> decide

theorem needsDelegate_zone : NeedsDelegate (text "b.co") (text "a.co") := by
  refine ⟨by decide, by decide, ?_⟩
  rintro (h | ⟨-, -, h⟩)
  · revert h
    decide
  · revert h
    decide

example : Go.isSubdomainOf Issuer.plainRuntime (bytes "b.co") (bytes "a.co") = false := by
  decide

theorem zone_answers (line : String) :
    zoneResolver line (Issuer.shadownetName (utf8 (text "a.co"))) = .ok [bytes line] ∧
      (zoneDns line).resolve (text "_shadownet." ++ text "a.co") = .ok (zone line) := by
  have hgo : Issuer.shadownetName (utf8 (text "a.co")) = bytes "_shadownet.a.co" := by
    decide
  have hpython : text "_shadownet." ++ text "a.co" = text "_shadownet.a.co" := by decide
  constructor
  · rw [zoneResolver, if_pos hgo]
  · simp only [zoneDns, if_pos hpython]

theorem txtLines_zone (line : String) : Receiver.txtLines (zone line) = [bytes line] := by
  simp [Receiver.txtLines, zone]

theorem zoneRecord_named : NamedIn Issuer.plainRuntime (utf8 (text "b.co")) (bytes zoneRecord) := by
  have hpart : bytes " delegate=b.co" ∈ (bytes zoneRecord).splitOn 0x3B ∧
      Go.trimSpace (bytes " delegate=b.co") = bytes "delegate=" ++ bytes "b.co" ∧
      Issuer.plainRuntime.lower (Go.trimDot (bytes "b.co")) = utf8 (text "b.co") := by
    decide
  exact ⟨_, hpart.1, _, hpart.2⟩

def zoneFields : Receiver.Fields :=
  [(text "v", text "0.2"), (text "ep", text "https://a.co/v1"),
    (text "pk", text "z6Mkon3Necd6NkkyfoGoHxid2znGc59LU3K7mubaRcFbLfLX"),
    (text "delegate", text "b.co")]

theorem zoneRecord_listed :
    ListedByRecord Python.helloRuntime (text "b.co") (Receiver.txtLines (zone zoneRecord)) := by
  have hdec := utf8Decode_bytes zoneRecord
  have hkv : Receiver.parseKv Python.helloRuntime (text zoneRecord) = .ok zoneFields := by
    decide +kernel
  have hpk : Receiver.Fields.get zoneFields (text "pk") =
      [text "z6Mkon3Necd6NkkyfoGoHxid2znGc59LU3K7mubaRcFbLfLX"] := by decide
  have hkey : (Python.parsePublicKey Python.helloRuntime
      (text "z6Mkon3Necd6NkkyfoGoHxid2znGc59LU3K7mubaRcFbLfLX")).isOk = true := by decide +kernel
  have hrecord : IsRecord Python.helloRuntime (bytes zoneRecord) := by
    refine ⟨_, _, hdec, hkv, by decide,
      ⟨text "https://a.co/v1", by decide, by decide⟩, ?_, ?_⟩
    · rw [hpk]
      exact List.cons_ne_nil _ _
    · rw [hpk]
      intro pk hmem
      rw [List.mem_singleton.mp hmem]
      exact isOk_iff.mp hkey
  have hlines := txtLines_zone zoneRecord
  rw [hlines]
  refine ⟨?_, [], bytes zoneRecord, [], rfl, by simp, hrecord, text zoneRecord, text "b.co", hdec,
    (Receiver.mem_delegates hkv).mp (by decide), by decide⟩
  intro line hline
  rw [List.mem_singleton.mp hline, hdec]
  rfl

/-- Both languages accept `b.co` for `a.co`, whose record lists it. -/
theorem authorization_agrees_zone :
    Issuer.authorizeWith Issuer.plainRuntime (Issuer.newAuthorizer 0 0) .empty (Go.Time.ofUnix 0)
        (zoneResolver zoneRecord) (utf8 (text "b.co")) (utf8 (text "a.co")) = .ok () ∧
      Authorizes .pipeline Python.helloRuntime
        (overDns Receiver.deadNetwork Python.helloRuntime (zoneDns zoneRecord))
        ⟨Receiver.Stores.empty 0, 0⟩ (text "b.co") (text "a.co") := by
  obtain ⟨hiss, horg⟩ := recognised_zone
  obtain ⟨hgo, hpython⟩ := zone_answers zoneRecord
  have hlines := txtLines_zone zoneRecord
  have hsame : [bytes zoneRecord].Perm (Receiver.txtLines (zone zoneRecord)) := by rw [hlines]
  have hagree := (authorization_agrees_iff (Issuer.newAuthorizer 0 0) (Go.Time.ofUnix 0) .pipeline
    Receiver.deadNetwork ⟨Receiver.Stores.empty 0, 0⟩ hiss horg hgo hpython hsame).mpr (by
      rintro ⟨-, ⟨-, hnot⟩ | ⟨-, hnot⟩⟩
      · exact hnot zoneRecord_listed
      · exact hnot (bytes zoneRecord) (by rw [hlines]; simp) zoneRecord_named)
  have haccepts := (@authorizeWith_iff _ _ _ _ _ _ (Issuer.newAuthorizer 0 0) (Go.Time.ofUnix 0) _ _
    hiss horg hgo).mpr (.inr ⟨needsDelegate_zone, _, List.mem_singleton.mpr rfl, zoneRecord_named⟩)
  exact ⟨haccepts, hagree.mp haccepts⟩

/-- A lone `delegate=` that Go takes and Python does not. -/
theorem authorization_disagrees :
    Recognised Issuer.plainRuntime Python.helloRuntime (text "b.co") (text "b.co") ∧
    Recognised Issuer.plainRuntime Python.helloRuntime (text "a.co") (text "a.co") ∧
    ¬ (Issuer.authorizeWith Issuer.plainRuntime (Issuer.newAuthorizer 0 0) .empty
          (Go.Time.ofUnix 0) (zoneResolver "delegate=b.co") (utf8 (text "b.co"))
          (utf8 (text "a.co")) = .ok () ↔
        Authorizes .pipeline Python.helloRuntime
          (overDns Receiver.deadNetwork Python.helloRuntime (zoneDns "delegate=b.co"))
          ⟨Receiver.Stores.empty 0, 0⟩ (text "b.co") (text "a.co")) := by
  obtain ⟨hiss, horg⟩ := recognised_zone
  obtain ⟨hgo, hpython⟩ := zone_answers "delegate=b.co"
  have hnamed : NamedIn Issuer.plainRuntime (utf8 (text "b.co")) (bytes "delegate=b.co") := by
    have hpart : bytes "delegate=b.co" ∈ (bytes "delegate=b.co").splitOn 0x3B ∧
        Go.trimSpace (bytes "delegate=b.co") = bytes "delegate=" ++ bytes "b.co" ∧
        Issuer.plainRuntime.lower (Go.trimDot (bytes "b.co")) = utf8 (text "b.co") := by
      decide
    exact ⟨_, hpart.1, _, hpart.2⟩
  have hnorecord : ¬ IsRecord Python.helloRuntime (bytes "delegate=b.co") := by
    rintro ⟨value, fields, hdec, hkv, hrecord⟩
    have hdec' := utf8Decode_bytes "delegate=b.co"
    have hkv' : Receiver.parseKv Python.helloRuntime (text "delegate=b.co") =
        .ok [(text "delegate", text "b.co")] := by decide
    rw [← Option.some.inj (hdec'.symm.trans hdec), hkv'] at hkv
    have hversion := hrecord.version
    rw [← Except.ok.inj hkv] at hversion
    revert hversion
    decide
  refine ⟨hiss, horg, ?_⟩
  rw [authorizeWith_iff hiss horg hgo, authorizes_overDns_iff hiss horg hpython]
  intro h
  rcases h.mp (.inr ⟨needsDelegate_zone, _, List.mem_singleton.mpr rfl, hnamed⟩) with
    hby | ⟨-, -, before, line, after, heq, -, hrecord, -⟩
  · exact needsDelegate_zone.2.2 hby
  · have hline : line ∈ Receiver.txtLines (zone "delegate=b.co") := by
      rw [heq]
      simp
    rw [txtLines_zone] at hline
    rw [List.mem_singleton.mp hline] at hrecord
    exact hnorecord hrecord

end Shadownet.Interop
