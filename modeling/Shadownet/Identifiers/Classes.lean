import Shadownet.Identifiers.Canonical
import Shadownet.Identifiers.Grammar

/-!
# Classification in both languages

On ASCII strings the Go byte loops and the Python patterns draw the same boundary, once Python
has removed the whitespace around a domain and all dots at its end, where Go removes one dot.

* `classes_agree`: `Classify` and the canonicalisers of the SDK agree up to that.
-/

namespace Shadownet.Identifiers

open Foundation Interop

variable {G : Go.Runtime} {G' : Python.Runtime}

/-- No whitespace around a domain, and at most one dot at its end. -/
def Tidy (d : Text) : Prop := Python.strip d = d ∧ ¬ [46, 46] <:+ d

instance (d : Text) : Decidable (Tidy d) := inferInstanceAs (Decidable (_ ∧ _))

theorem latin_utf8 {s : Text} (h : ∀ c ∈ s, c.IsAscii) : (utf8 s).map latin = s := by
  rw [utf8_ascii h, List.map_map]
  conv_rhs => rw [← List.map_id s]
  refine List.map_congr_left fun c hc => Fin.ext ?_
  have hlt : c.val < 0x80 := h c hc
  rw [Function.comp_apply, latin_val, toNat_ofNat_of_lt (by omega), id]

theorem map_lowerByte_utf8 {s : Text} (h : ∀ c ∈ s, c.IsAscii) :
    (utf8 s).map Go.lowerByte = utf8 (s.map Python.lowerAscii) := by
  have hlow : ∀ c ∈ s.map Python.lowerAscii, c.IsAscii := by
    intro c hc
    obtain ⟨d, hd, rfl⟩ := List.mem_map.mp hc
    exact lowerAscii_isAscii (h d hd)
  rw [utf8_ascii h, utf8_ascii hlow, List.map_map, List.map_map]
  refine List.map_congr_left fun c hc => UInt8.toNat_inj.mp ?_
  have hlt : c.val < 0x80 := h c hc
  have hlt' : (Python.lowerAscii c).val < 0x80 := lowerAscii_isAscii (h c hc)
  rw [Function.comp_apply, Function.comp_apply, Go.lowerByte_toNat, toNat_ofNat_of_lt (by omega),
    toNat_ofNat_of_lt (by omega), Python.lowerAscii]
  split_ifs with hup
  · exact (Nat.mod_eq_of_lt (by omega)).symm
  · rfl

/-! ## From Python to Go -/

theorem LowerLabel.go {l : Text} (h : LowerLabel l) :
    Go.validateDomainLabel G (utf8 l) = .ok () := by
  have hascii : ∀ c ∈ l, c.IsAscii := by
    intro c hc
    rcases h.chars c hc with h | rfl
    · exact isAlnum_ascii h.isAlnum
    · decide
  rw [validateDomainLabel_iff, length_utf8_ascii hascii, runes_utf8 (clean_of_ascii hascii)]
  refine ⟨h.pos, h.short, fun c hc => ?_, h.head, h.last⟩
  rcases h.chars c hc with h | rfl
  · exact .inl h.isAlnum
  · exact .inr (.inl rfl)

theorem LowerDomain.getLast?_utf8 {d : Text} (h : LowerDomain d) :
    (utf8 d).getLast? ≠ some 0x2E := by
  refine getLast?_ne_of_splitOn fun l hl => ?_
  have hsplit := splitDots_utf8 h.ascii
  rw [Go.splitDots] at hsplit
  rw [hsplit] at hl
  obtain ⟨m, hm, rfl⟩ := List.mem_map.mp hl
  exact label_ne_nil (G := letterRuntime) (h.labels m hm).go

/-- A domain in lower case is a domain of Go. -/
theorem LowerDomain.go {d : Text} (h : LowerDomain d) : Go.validateDomain G (utf8 d) = .ok () := by
  rw [validateDomain_iff, trimDot_of_getLast? h.getLast?_utf8, length_utf8_ascii h.ascii,
    splitDots_utf8 h.ascii, List.forall_mem_map]
  exact ⟨h.short, fun l hl => (h.labels l hl).go⟩

theorem LowerLocal.go {l : Text} (h : LowerLocal l) :
    Go.validateShadownameLocal G (utf8 l) = .ok () := by
  have hascii : ∀ c ∈ l, c.IsAscii := localRe_ascii (localRe_iff.mpr (.inl h.localBody))
  rw [validateShadownameLocal_iff, length_utf8_ascii hascii, runes_utf8 (clean_of_ascii hascii)]
  refine ⟨h.pos, h.short, fun c hc => ?_⟩
  rcases h.chars c hc with h | rfl | rfl | rfl
  · exact .inl h.isAlnum
  · exact .inr (.inl rfl)
  · exact .inr (.inr (.inr rfl))
  · exact .inr (.inr (.inl rfl))

/-- Removing the dots at the end of a tidy domain removes at most one. -/
theorem Tidy.domainCore {d : Text} (h : Tidy d) : d = domainCore d ∨ d = domainCore d ++ [46] := by
  rw [Identifiers.domainCore, h.1]
  rcases List.eq_nil_or_concat' d with rfl | ⟨u, c, rfl⟩
  · exact .inl rfl
  by_cases hc : c = 46
  · right
    subst hc
    rcases List.eq_nil_or_concat' u with rfl | ⟨v, e, rfl⟩
    · rfl
    · have he : ¬ (e == 46) = true := by
        rw [beq_iff_eq]
        rintro rfl
        exact h.2 ⟨v, by simp⟩
      rw [Python.rstripDot, List.reverse_concat, List.dropWhile_cons_of_pos (by rfl),
        List.reverse_concat, List.dropWhile_cons_of_neg (p := (· == 46)) he, List.reverse_cons,
        List.reverse_reverse]
  · left
    have hc' : ¬ (c == 46) = true := by simpa using hc
    rw [Python.rstripDot, List.reverse_concat, List.dropWhile_cons_of_neg (p := (· == 46)) hc',
      List.reverse_cons, List.reverse_reverse]

/-- A tidy domain without newlines that Python accepts, Go accepts. -/
theorem go_of_validateDomain {s c : Text} (hascii : ∀ x ∈ s, x.IsAscii) (hn : (10 : CodePoint) ∉ s)
    (htidy : Tidy s) (h : Python.validateDomain G' s = .ok c) :
    Go.validateDomain G (utf8 s) = .ok () := by
  have hsub : ∀ x ∈ domainCore s, x ∈ s := by
    intro x hx
    rcases htidy.domainCore with heq | heq <;> rw [heq]
    · exact hx
    · exact List.mem_append_left _ hx
  have hcore : ∀ x ∈ domainCore s, x.IsAscii := fun x hx => hascii x (hsub x hx)
  obtain ⟨hlower, heq⟩ := lowerDomain_of_ascii h hcore fun hin => hn (hsub 10 hin)
  have hgo : Go.validateDomain G (utf8 (domainCore s)) = .ok () := by
    rw [← validateDomain_lowerByte, map_lowerByte_utf8 hcore, ← heq]
    exact hlower.go
  rcases htidy.domainCore with hs | hs
  · rw [hs]
    exact hgo
  · have hend : utf8 s = utf8 (domainCore s) ++ [0x2E] := by
      conv_lhs => rw [hs, utf8_append]
      rfl
    have hlast : (utf8 (domainCore s)).getLast? ≠ some 0x2E := by
      intro hdot
      refine hlower.getLast?_utf8 ?_
      rw [heq, ← map_lowerByte_utf8 hcore, List.getLast?_map, hdot]
      rfl
    rw [hend]
    exact (validateDomain_concat hlast).mpr hgo

/-! ## From Go to Python -/

/-- What Go accepts as a domain is tidy. -/
theorem tidy_of_go {s : Text} (hascii : ∀ c ∈ s, c.IsAscii)
    (h : Go.validateDomain G (utf8 s) = .ok ()) : Tidy s := by
  obtain ⟨t, ht, hs, -⟩ := domainText_of_go hascii h
  have hchars : ∀ c ∈ s, Python.isAlnum c = true ∨ c = 45 ∨ c = 46 := by
    intro c hc
    rcases hs with rfl | rfl
    · exact ht.mem hc
    · rcases List.mem_append.mp hc with hc | hc
      · exact ht.mem hc
      · exact .inr (.inr (List.mem_singleton.mp hc))
  refine ⟨Python.strip_eq_self fun c hc => not_space (hchars c hc), ?_⟩
  rintro ⟨u, hu⟩
  refine ht.getLast?_ne ?_
  rcases hs with rfl | rfl
  · rw [← hu, List.getLast?_append]
    rfl
  · have hsplit : (u ++ [46]) ++ [46] = t ++ [46] := by rw [← hu, List.append_assoc]; rfl
    rw [← List.append_cancel_right hsplit]
    exact List.getLast?_concat

/-- The domains of the two languages, tidiness apart. -/
theorem go_validateDomain_iff {s : Text} (hascii : ∀ x ∈ s, x.IsAscii)
    (hn : (10 : CodePoint) ∉ s) :
    Go.validateDomain G (utf8 s) = .ok () ↔
      (∃ c, Python.validateDomain G' s = .ok c) ∧ Tidy s := by
  constructor
  · intro h
    obtain ⟨D, -, -, -, hpy⟩ := canonicalDomain_of_go G' hascii h
    exact ⟨⟨D, hpy⟩, tidy_of_go hascii h⟩
  · rintro ⟨⟨c, hc⟩, htidy⟩
    exact go_of_validateDomain hascii hn htidy hc

theorem localRe_of_go {loc : Text} (hascii : ∀ c ∈ loc, c.IsAscii)
    (h : Go.validateShadownameLocal G (utf8 loc) = .ok ()) : Python.localRe loc = true := by
  obtain ⟨hpos, hshort, hchars⟩ := local_of_go (clean_of_ascii hascii) h
  exact localRe_iff.mpr (.inl ⟨hpos, hshort, hchars⟩)

/-- The local parts of the two languages. -/
theorem go_local_iff {loc : Text} (hascii : ∀ c ∈ loc, c.IsAscii) (hn : (10 : CodePoint) ∉ loc) :
    Go.validateShadownameLocal G (utf8 loc) = .ok () ↔ Python.localRe loc = true := by
  refine ⟨localRe_of_go hascii, fun h => ?_⟩
  rw [← validateShadownameLocal_lowerByte, map_lowerByte_utf8 hascii]
  exact (lowerLocal_of_localRe h hn).go

/-! ## The three classes -/

theorem ascii_split {s : Text} {l q : Bytes} (hascii : ∀ c ∈ s, c.IsAscii)
    (h : utf8 s = l ++ 0x40 :: q) : ∃ loc p, s = loc ++ 64 :: p ∧ utf8 loc = l ∧ utf8 p = q := by
  have hs : s = (l ++ 0x40 :: q).map latin := by rw [← h, latin_utf8 hascii]
  have hbytes : ∀ b ∈ l ++ 0x40 :: q, b.toNat < 0x80 := by
    intro b hb
    rw [← h, utf8_ascii hascii] at hb
    obtain ⟨c, hc, rfl⟩ := List.mem_map.mp hb
    have hlt : c.val < 0x80 := hascii c hc
    rw [toNat_ofNat_of_lt (by omega)]
    exact hlt
  refine ⟨l.map latin, q.map latin, ?_, utf8_latin fun b hb => hbytes b (by simp [hb]),
    utf8_latin fun b hb => hbytes b (by simp [hb])⟩
  rw [hs, List.map_append, List.map_cons]
  rfl

theorem contains_at_utf8 {s : Text} (hascii : ∀ c ∈ s, c.IsAscii) :
    (utf8 s).contains 0x40 = Python.isShadowname s := by
  rw [Python.isShadowname, Bool.eq_iff_iff, List.contains_iff_mem, List.contains_iff_mem]
  constructor
  · intro h
    rw [← latin_utf8 hascii]
    exact List.mem_map.mpr ⟨0x40, h, rfl⟩
  · intro h
    rw [utf8_ascii hascii]
    exact List.mem_map.mpr ⟨64, h, rfl⟩

/-- The Shadownames of the two languages. -/
theorem splitShadowname_utf8_iff {s : Text} (hascii : ∀ c ∈ s, c.IsAscii)
    (hn : (10 : CodePoint) ∉ s) :
    (∃ parts, Go.splitShadowname G (utf8 s) = .ok parts) ↔
      (∃ c, Python.validateShadowname G' s = .ok c) ∧ Tidy (Python.partitionAt s).2 := by
  constructor
  · rintro ⟨⟨l, q⟩, h⟩
    obtain ⟨heq, hl, hq⟩ := splitShadowname_ok_iff.mp h
    obtain ⟨loc, p, rfl, rfl, rfl⟩ := ascii_split hascii heq
    rw [List.forall_mem_append, List.forall_mem_cons] at hascii
    have hre := localRe_of_go hascii.1 hl
    have hparts := partitionAt_of_not_mem (D := p) (at_not_mem_local hre)
    obtain ⟨D, -, -, -, hpy⟩ := canonicalDomain_of_go G' hascii.2.2 hq
    rw [hparts]
    refine ⟨⟨_, validateShadowname_ok_iff.mpr ⟨by simp [Python.isShadowname], ?_, D, ?_, rfl⟩⟩,
      tidy_of_go hascii.2.2 hq⟩
    · rw [hparts]
      exact hre
    · rw [hparts]
      exact hpy
  · rintro ⟨⟨c, hc⟩, htidy⟩
    obtain ⟨hat, hre, d, hd, -⟩ := validateShadowname_ok_iff.mp hc
    obtain ⟨loc, p, rfl, hnot⟩ := List.eq_append_cons_of_mem (List.contains_iff_mem.mp hat)
    rw [partitionAt_of_not_mem hnot] at hre hd htidy
    rw [List.forall_mem_append, List.forall_mem_cons] at hascii
    rw [List.mem_append, List.mem_cons, not_or, not_or] at hn
    have hutf : utf8 (loc ++ 64 :: p) = utf8 loc ++ 0x40 :: utf8 p := by
      rw [utf8_append, utf8_cons_ascii (by decide)]
      rfl
    exact ⟨_, splitShadowname_ok_iff.mpr ⟨hutf, (go_local_iff hascii.1 hn.1).mpr hre,
      go_of_validateDomain hascii.2.2 hn.2.2 htidy hd⟩⟩

theorem parsePublicKey_ok_iff {s : Text} :
    (∃ k, Python.parsePublicKey G' s = .ok k) ↔ ∃ c, Python.validateMultibasePk G' s = .ok c := by
  constructor
  · rintro ⟨k, hk⟩
    obtain ⟨c, hc, -⟩ := bind_eq_ok.mp hk
    exact ⟨c, hc⟩
  · rintro ⟨c, hc⟩
    have hparts := hc
    simp only [Python.validateMultibasePk, guard_eq_ok, bind_eq_ok, Python.reraise_eq_ok] at hparts
    obtain ⟨-, raw, ⟨dec, hdec, hstrip⟩, -⟩ := hparts
    exact ⟨raw, bind_eq_ok.mpr ⟨c, hc, bind_eq_ok.mpr ⟨dec, hdec, hstrip⟩⟩⟩

/-- The keys of the two languages. -/
theorem decodePubKey_utf8_iff {s : Text} (hascii : ∀ c ∈ s, c.IsAscii) :
    (∃ k, Go.decodePubKey G (utf8 s) = .ok k) ↔ ∃ k, Python.parsePublicKey G' s = .ok k := by
  constructor
  · rintro ⟨k, hk⟩
    have hpy := (parsePublicKey_of_decodePubKey G' hk).1
    rw [latin_utf8 hascii] at hpy
    exact ⟨k, hpy⟩
  · rintro hk
    obtain ⟨c, hc⟩ := parsePublicKey_ok_iff.mp hk
    rw [← latin_utf8 hascii] at hc
    exact decodePubKey_of_validate G hc

theorem classify_shadowname_iff {b : Bytes} :
    Go.classify G b = .shadowname ↔
      b.contains 0x40 = true ∧ ∃ parts, Go.splitShadowname G b = .ok parts := by
  rw [← isOk_iff, Go.classify]
  generalize b.contains 0x40 = hasAt
  cases hasAt <;> split_ifs <;> simp_all

theorem classify_pubKey_iff {b : Bytes} :
    Go.classify G b = .pubKey ↔ ∃ k, Go.decodePubKey G b = .ok k := by
  refine ⟨fun h => ?_, fun ⟨k, hk⟩ => classify_of_decodePubKey hk⟩
  rw [Go.classify] at h
  split_ifs at h with h1 h2 h3 h4
  exact isOk_iff.mp h4

theorem classify_domain_iff {b : Bytes} :
    Go.classify G b = .domain ↔ b.contains 0x40 = false ∧
      (bytes "z6Mk").isPrefixOf b = false ∧ Go.validateDomain G b = .ok () := by
  have hunit : Go.validateDomain G b = .ok () ↔ (Go.validateDomain G b).isOk = true :=
    ⟨fun h => isOk_iff.mpr ⟨_, h⟩, fun h => by obtain ⟨⟨⟩, hok⟩ := isOk_iff.mp h; exact hok⟩
  rw [hunit, Go.classify]
  generalize b.contains 0x40 = hasAt
  generalize (bytes "z6Mk").isPrefixOf b = marked
  clear hunit
  cases hasAt <;> cases marked <;> split_ifs <;> simp_all

theorem all_ascii {s : Text} (h : (s.all fun c => decide c.IsAscii) = true) :
    ∀ c ∈ s, c.IsAscii := fun c hc => of_decide_eq_true (List.all_eq_true.mp h c hc)

theorem z6Mk_prefix_utf8 {s : Text} (hascii : ∀ c ∈ s, c.IsAscii) :
    (bytes "z6Mk").isPrefixOf (utf8 s) = (text "z6Mk").isPrefixOf s := by
  rw [← z6Mk_prefix_latin, latin_utf8 hascii]

/-- Classification of ASCII strings without newlines, and the canonical forms where both languages
accept. Python removes whitespace around a domain and every dot at its end, Go one dot. -/
theorem classes_agree (G : Go.Runtime) (G' : Python.Runtime) {s : Text}
    (hascii : ∀ c ∈ s, c.IsAscii) (hn : (10 : CodePoint) ∉ s) :
    (Go.classify G (utf8 s) = .shadowname ↔ (64 : CodePoint) ∈ s ∧
      (∃ c, Python.canonicalizeIdentifier G' s = .ok c) ∧ Tidy (Python.partitionAt s).2) ∧
    (Go.classify G (utf8 s) = .pubKey ↔ ∃ k, Python.parsePublicKey G' s = .ok k) ∧
    (Go.classify G (utf8 s) = .domain ↔ (64 : CodePoint) ∉ s ∧ ¬ text "z6Mk" <+: s ∧
      (∃ c, Python.canonicalizeIssuerOrOrgIdentifier G' s = .ok c) ∧ Tidy s) ∧
    (Go.classify G (utf8 s) = .domain → ∃ D, Go.canonicalDomain G (utf8 s) = .ok (utf8 D) ∧
      Python.canonicalizeIssuerOrOrgIdentifier G' s = .ok D) ∧
    (Go.classify G (utf8 s) = .shadowname → s.getLast? ≠ some 46 →
      ∃ N, Go.canonicalShadowname G (utf8 s) = .ok (utf8 N) ∧
        Python.canonicalizeIdentifier G' s = .ok N) := by
  have hat : Python.isShadowname s = true ↔ (64 : CodePoint) ∈ s := List.contains_iff_mem
  have hpre : (text "z6Mk").isPrefixOf s = true ↔ text "z6Mk" <+: s :=
    List.isPrefixOf_iff_prefix
  have hname : Go.classify G (utf8 s) = .shadowname ↔ (64 : CodePoint) ∈ s ∧
      (∃ c, Python.canonicalizeIdentifier G' s = .ok c) ∧ Tidy (Python.partitionAt s).2 := by
    rw [classify_shadowname_iff, contains_at_utf8 hascii,
      @splitShadowname_utf8_iff G G' s hascii hn, hat]
    refine and_congr_right fun hin => ?_
    rw [Python.canonicalizeIdentifier, if_pos (hat.mpr hin)]
  have hdomain : Go.classify G (utf8 s) = .domain ↔ (64 : CodePoint) ∉ s ∧ ¬ text "z6Mk" <+: s ∧
      (∃ c, Python.canonicalizeIssuerOrOrgIdentifier G' s = .ok c) ∧ Tidy s := by
    rw [classify_domain_iff, contains_at_utf8 hascii, z6Mk_prefix_utf8 hascii,
      @go_validateDomain_iff G G' s hascii hn, Bool.eq_false_iff, Ne, hat, Bool.eq_false_iff, Ne,
      hpre]
    refine and_congr_right fun _ => and_congr_right fun hmark => ?_
    have hkey : ¬ Python.isPublicKeyIdentifier s = true := by
      rw [Python.isPublicKeyIdentifier, Bool.and_eq_true, hpre]
      exact fun h => hmark h.1
    rw [Python.canonicalizeIssuerOrOrgIdentifier, if_neg hkey]
  refine ⟨hname, ?_, hdomain, fun h => ?_, fun h hlast => ?_⟩
  · rw [classify_pubKey_iff]
    exact decodePubKey_utf8_iff hascii
  · obtain ⟨-, hmark, hvalid⟩ := classify_domain_iff.mp h
    obtain ⟨D, -, -, hgo, hpy⟩ := canonicalDomain_of_go G' hascii hvalid
    refine ⟨D, hgo, ?_⟩
    rw [z6Mk_prefix_utf8 hascii] at hmark
    rw [Python.canonicalizeIssuerOrOrgIdentifier, if_neg, hpy]
    rw [Python.isPublicKeyIdentifier, hmark, Bool.false_and]
    decide
  · obtain ⟨-, ⟨l, q⟩, hsplit⟩ := classify_shadowname_iff.mp h
    obtain ⟨heq, hl, hq⟩ := splitShadowname_ok_iff.mp hsplit
    obtain ⟨loc, p, rfl, rfl, rfl⟩ := ascii_split hascii heq
    rw [List.forall_mem_append, List.forall_mem_cons] at hascii
    have hre := localRe_of_go hascii.1 hl
    have hparts := partitionAt_of_not_mem (D := p) (at_not_mem_local hre)
    obtain ⟨D, -, -, hgo, hpy⟩ := canonicalDomain_of_go G' hascii.2.2 hq
    have hplast : (utf8 p).getLast? ≠ some 0x2E := by
      intro hdot
      rw [utf8_ascii hascii.2.2, List.getLast?_map, Option.map_eq_some_iff] at hdot
      obtain ⟨c, hc, hval⟩ := hdot
      have hlt : c.val < 0x80 := hascii.2.2 c (List.mem_of_mem_getLast? hc)
      have hval := congrArg UInt8.toNat hval
      rw [toNat_ofNat_of_lt (by omega)] at hval
      obtain rfl : c = 46 := Fin.ext hval
      rw [List.getLast?_append, List.getLast?_cons, hc] at hlast
      exact hlast rfl
    have hlower : G.lower (utf8 p) = utf8 D := by
      rw [← trimDot_of_getLast? hplast]
      exact (Go.canonicalDomain_ok_iff.mp hgo).2
    refine ⟨loc.map Python.lowerAscii ++ 64 :: D, canonicalShadowname_ok_iff.mpr
      ⟨_, _, hsplit, ?_⟩, ?_⟩
    · rw [utf8_append, utf8_cons_ascii (by decide), map_lowerByte_utf8 hascii.1, hlower]
      rfl
    · rw [Python.canonicalizeIdentifier, if_pos (by simp [Python.isShadowname])]
      refine validateShadowname_ok_iff.mpr ⟨by simp [Python.isShadowname], ?_, D, ?_, ?_⟩
      · rw [hparts]
        exact hre
      · rw [hparts]
        exact hpy
      · rw [hparts]

theorem classes_agree_hosts :
    Go.classify letterRuntime (utf8 (text "Alice@Acme.co")) = .shadowname ∧
    (∃ N, Go.canonicalShadowname letterRuntime (utf8 (text "Alice@Acme.co")) = .ok (utf8 N) ∧
      Python.canonicalizeIdentifier kelvinRuntime (text "Alice@Acme.co") = .ok N) ∧
    (∃ D, Go.canonicalDomain letterRuntime (utf8 (text "Acme.co.")) = .ok (utf8 D) ∧
      Python.canonicalizeIssuerOrOrgIdentifier kelvinRuntime (text "Acme.co.") = .ok D) := by
  have hname := classes_agree letterRuntime kelvinRuntime (s := text "Alice@Acme.co")
    (all_ascii (by decide)) (by decide)
  have hclass := hname.1.mpr ⟨by decide, ⟨text "alice@acme.co", by decide⟩,
    by decide⟩
  have hdomain := classes_agree letterRuntime kelvinRuntime (s := text "Acme.co.")
    (all_ascii (by decide)) (by decide)
  exact ⟨hclass, hname.2.2.2.2 hclass (by decide),
    hdomain.2.2.2.1 (by decide)⟩

/-- Whitespace before a domain and two dots after it: Python accepts, Go does not. -/
theorem classes_differ :
    (∀ s ∈ [text " acme.co", text "acme.co.."],
      ¬ (Go.classify letterRuntime (utf8 s) = .domain ↔ (64 : CodePoint) ∉ s ∧
        ¬ text "z6Mk" <+: s ∧
        ∃ c, Python.canonicalizeIssuerOrOrgIdentifier kelvinRuntime s = .ok c)) ∧
    ¬ (Go.classify letterRuntime (utf8 (text "alice@ acme.co")) = .shadowname ↔
      (64 : CodePoint) ∈ text "alice@ acme.co" ∧
        ∃ c, Python.canonicalizeIdentifier kelvinRuntime (text "alice@ acme.co") = .ok c) := by
  have hpy : ∀ s ∈ [text " acme.co", text "acme.co.."], (64 : CodePoint) ∉ s ∧
      ¬ text "z6Mk" <+: s ∧
      Python.canonicalizeIssuerOrOrgIdentifier kelvinRuntime s = .ok (text "acme.co") ∧
      Go.classify letterRuntime (utf8 s) = .unknown := by decide
  refine ⟨fun s hs h => ?_, fun h => ?_⟩
  · obtain ⟨hat, hmark, hok, hgo⟩ := hpy s hs
    have hdomain := h.mpr ⟨hat, hmark, _, hok⟩
    rw [hgo] at hdomain
    cases hdomain
  · have hname := h.mpr ⟨by decide, text "alice@acme.co", by decide⟩
    exact absurd hname (by decide)

end Shadownet.Identifiers
