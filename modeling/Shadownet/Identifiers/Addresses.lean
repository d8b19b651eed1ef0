import Shadownet.Identifiers.Grammar
import Shadownet.Python.Addressing

/-!
# The two spellings of a Shadowname address

`parse_shadow_address` takes a Shadowname alone or after `shadow://`. The first goes through the
identifier grammar, the second through `urlparse`.

* `spellings_agree_iff`: they agree unless the local part is `key` or the `$` of a pattern let a
  newline pass.
-/

namespace Shadownet.Identifiers

open Foundation Interop
open Python (unlined mem_unlined unlined_append unlined_self)

variable {G : Python.Runtime} {nfkc : Text → Text}

/-! ## The pieces of an accepted name -/

/-- The characters at which `urlparse` cuts an authority. -/
def cuts : List CodePoint := [47, 63, 35, 64, 58, 91, 93, 37]

/-- An accepted Shadowname without the white space at its end: the local part, white space, and
what `_validate_domain` strips to. -/
structure Pieces (G : Python.Runtime) (l a m D : Text) : Prop where
  loc : Python.localRe l = true
  space : ∀ c ∈ a, c.IsAscii ∧ Python.isSpace c = true
  ascii : ∀ c ∈ m, c.IsAscii
  stripped : Python.strip m = m
  valid : Python.validateDomain G m = .ok D

namespace Pieces

variable {l a m D : Text}

theorem domainCore_eq (h : Pieces G l a m D) : domainCore m = Python.rstripDot m := by
  rw [domainCore, h.stripped]

theorem lower_core (h : Pieces G l a m D) : (Python.rstripDot m).map Python.lowerAscii = D := by
  have hlower := (validateDomain_ok_iff.mp h.valid).1
  rw [h.domainCore_eq] at hlower
  rw [← hlower, Python.Runtime.lower, if_pos]
  refine List.all_eq_true.mpr fun c hc => decide_eq_true (h.ascii c ?_)
  rw [Python.rstripDot, List.mem_reverse] at hc
  exact List.mem_reverse.mp ((List.dropWhile_sublist _).mem hc)

/-- A character of the domain is a dot or is left by `rstrip`. -/
theorem mem_core {c : CodePoint} (hc : c ∈ m) : c = 46 ∨ c ∈ Python.rstripDot m := by
  rw [← List.mem_reverse, ← List.takeWhile_append_dropWhile (p := (· == 46)) (l := m.reverse)] at hc
  rcases List.mem_append.mp hc with hc | hc
  · exact .inl (beq_iff_eq.mp (List.mem_takeWhile_imp (p := (· == 46)) hc))
  · exact .inr (by rwa [Python.rstripDot, List.mem_reverse])

/-- A character that is not a letter and not in the canonical domain. -/
theorem not_mem_domain (h : Pieces G l a m D) {c : CodePoint} (hlower : Python.lowerAscii c = c)
    (hdot : c ≠ 46) (hD : c ∉ D) : c ∉ m := by
  intro hc
  rcases mem_core hc with rfl | hc
  · exact hdot rfl
  · rw [← h.lower_core] at hD
    exact hD (List.mem_map.mpr ⟨c, hc, hlower⟩)

theorem ne_nil (h : Pieces G l a m D) : m ≠ [] := by
  rintro rfl
  have hne := (validateDomain_ok_iff.mp h.valid).2.1
  rw [← h.lower_core] at hne
  exact hne rfl

theorem not_mem_cuts (h : Pieces G l a m D) {c : CodePoint} (hc : c ∈ cuts) :
    c ∉ l ∧ c ∉ a ∧ c ∉ m := by
  have hall : (cuts.all fun c => decide (Python.isAlnum c = false ∧ Python.isSpace c = false ∧
      Python.lowerAscii c = c ∧ c ≠ 95 ∧ c ≠ 46 ∧ c ≠ 45 ∧ c ≠ 10)) = true := by
    decide
  obtain ⟨halnum, hspace, hlower, h95, h46, h45, h10⟩ :=
    of_decide_eq_true (List.all_eq_true.mp hall c hc)
  refine ⟨fun hin => ?_, fun hin => ?_, h.not_mem_domain hlower h46 fun hin => ?_⟩
  · rcases localRe_chars h.loc c hin with h | h | h | h | h
    · rw [halnum] at h
      cases h
    · exact h95 h
    · exact h46 h
    · exact h45 h
    · exact h10 h
  · rw [(h.space c hin).2] at hspace
    cases hspace
  · rcases validateDomain_chars h.valid c hin with h | h | h | h
    · rw [halnum] at h
      cases h
    · exact h45 h
    · exact h10 h
    · exact h46 h

end Pieces

/-- A Shadowname the parser accepts, in pieces. -/
theorem exists_pieces {s c : Text} (hascii : ∀ x ∈ s, x.IsAscii)
    (h : Python.validateShadowname G s = .ok c) :
    ∃ l a m b D, s = l ++ 64 :: (a ++ m ++ b) ∧ Pieces G l a m D ∧
      (∀ x ∈ b, Python.isSpace x = true) ∧ c = l.map Python.lowerAscii ++ 64 :: D := by
  obtain ⟨hname, hre, D, hD, rfl⟩ := validateShadowname_ok_iff.mp h
  obtain ⟨l, d, rfl, hl⟩ : ∃ l d, s = l ++ 64 :: d ∧ (64 : CodePoint) ∉ l := by
    obtain ⟨l, d, hs, hl⟩ := List.eq_append_cons_of_mem (List.contains_iff_mem.mp hname)
    exact ⟨l, d, hs, hl⟩
  rw [partitionAt_of_not_mem hl] at hre hD ⊢
  obtain ⟨a, b, hd, ha, hb⟩ := Python.exists_strip d
  have hmem : ∀ x ∈ a ++ Python.strip d ++ b, x.IsAscii := fun x hx =>
    hascii x (List.mem_append_right _ (List.mem_cons_of_mem _ (hd ▸ hx)))
  refine ⟨l, a, Python.strip d, b, D, by rw [← hd], ?_, hb, rfl⟩
  refine ⟨hre, fun x hx => ⟨hmem x (by simp [hx]), ha x hx⟩, fun x hx => hmem x (by simp [hx]),
    Python.strip_strip d, ?_⟩
  rw [validateDomain_ok_iff] at hD ⊢
  rwa [domainCore, Python.strip_strip]

/-! ## The spelling without a scheme -/

namespace Pieces

variable {l a m b D : Text}

theorem local_head (h : Pieces G l a m D) : ∃ c t, l = c :: t ∧ Python.isSpace c = false := by
  have hbody : ∀ {t : Text}, LocalBody t → ∃ c u, t = c :: u ∧ Python.isSpace c = false := by
    intro t ht
    obtain ⟨c, u, rfl⟩ := List.exists_cons_of_ne_nil (List.length_pos_iff.mp ht.pos)
    refine ⟨c, u, rfl, ?_⟩
    rcases ht.chars c List.mem_cons_self with h | rfl | h | h
    · exact not_space (.inl h)
    · decide
    · exact not_space (.inr (.inr h))
    · exact not_space (.inr (.inl h))
  rcases localRe_iff.mp h.loc with hl | ⟨t, rfl, ht⟩
  · exact hbody hl
  · obtain ⟨c, u, rfl, hc⟩ := hbody ht
    exact ⟨c, u ++ [10], rfl, hc⟩

/-- What `strip` leaves of a spelling that starts without white space. -/
theorem strip_spelling (h : Pieces G l a m D) (hb : ∀ x ∈ b, Python.isSpace x = true)
    {c : CodePoint} (hc : Python.isSpace c = false) (t : Text) :
    Python.strip (c :: t ++ 64 :: (a ++ m ++ b)) = c :: t ++ 64 :: (a ++ m) := by
  have hself : Python.strip (c :: t ++ 64 :: (a ++ m)) = c :: t ++ 64 :: (a ++ m) := by
    refine Python.strip_eq_self_iff.mpr ⟨fun d hd => ?_, fun d hd => ?_⟩
    · obtain rfl : c = d := Option.some.inj hd
      exact hc
    · obtain ⟨u, e, hm⟩ := (List.eq_nil_or_concat' m).resolve_left h.ne_nil
      have hlast : m.getLast? = some e := by
        rw [hm]
        exact List.getLast?_concat
      rw [List.getLast?_append, List.getLast?_cons, List.getLast?_append, hlast] at hd
      obtain rfl : e = d := Option.some.inj hd
      exact (Python.strip_eq_self_iff.mp h.stripped).2 e hlast
  have hpad := Python.strip_padded (a := []) nofun hb hself
  simpa only [List.nil_append, List.append_assoc, List.cons_append] using hpad

theorem validateShadowname_eq (h : Pieces G l a m D) :
    Python.validateShadowname G (l ++ 64 :: (a ++ m)) =
      .ok (l.map Python.lowerAscii ++ 64 :: D) := by
  have hcore : domainCore (a ++ m) = domainCore m := by
    have hstrip := Python.strip_padded (b := []) (fun c hc => (h.space c hc).2) nofun h.stripped
    rw [List.append_nil] at hstrip
    rw [domainCore, hstrip, domainCore, h.stripped]
  have hvalid : Python.validateDomain G (a ++ m) = .ok D := by
    have hm := h.valid
    rw [validateDomain_ok_iff] at hm ⊢
    rwa [hcore]
  have hparts := partitionAt_of_not_mem (D := a ++ m) (at_not_mem_local h.loc)
  refine validateShadowname_ok_iff.mpr ⟨by simp [Python.isShadowname], ?_, D, ?_, ?_⟩
  · rw [hparts]
    exact h.loc
  · rw [hparts]
    exact hvalid
  · rw [hparts]

theorem parse_plain (h : Pieces G l a m D) (hb : ∀ x ∈ b, Python.isSpace x = true) :
    Python.parseShadowAddress G nfkc (l ++ 64 :: (a ++ m ++ b)) =
      .ok (.shadowname (l.map Python.lowerAscii ++ 64 :: D)) := by
  have hstrip : Python.strip (l ++ 64 :: (a ++ m ++ b)) = l ++ 64 :: (a ++ m) := by
    obtain ⟨c, t, rfl, hc⟩ := h.local_head
    exact h.strip_spelling hb hc t
  have hslash : ¬ text "://" <:+: l ++ 64 :: (a ++ m) := by
    intro hin
    have hmem : (47 : CodePoint) ∈ l ++ 64 :: (a ++ m) := hin.subset (by decide)
    obtain ⟨h1, h2, h3⟩ := h.not_mem_cuts (c := 47) (by decide)
    simp only [List.mem_append, List.mem_cons, h1, h2, h3, or_self, or_false, false_or] at hmem
    cases hmem
  have hne : l ++ 64 :: (a ++ m) ≠ [] := by simp
  rw [Python.parseShadowAddress, hstrip]
  simp only [hne, if_false, hslash, not_false_eq_true, if_true, Python.canonicalShadowname,
    h.validateShadowname_eq]
  rfl

end Pieces

/-! ## The spelling with the scheme -/

theorem lower_ascii {t : Text} (h : ∀ c ∈ t, c.IsAscii) : G.lower t = t.map Python.lowerAscii := by
  rw [Python.Runtime.lower, if_pos (List.all_eq_true.mpr fun c hc => decide_eq_true (h c hc))]

theorem mem_of_mem_rstripDot {c : CodePoint} {m : Text} (h : c ∈ Python.rstripDot m) : c ∈ m := by
  rw [Python.rstripDot, List.mem_reverse] at h
  exact List.mem_reverse.mp ((List.dropWhile_sublist _).mem h)

theorem mem_of_mem_domainCore {c : CodePoint} {d : Text} (h : c ∈ domainCore d) : c ∈ d := by
  obtain ⟨a, b, hd, -, -⟩ := Python.exists_strip d
  rw [hd]
  exact List.mem_append_left _ (List.mem_append_right _ (mem_of_mem_rstripDot h))

theorem rstripDot_map {m : Text} (h : ∀ c ∈ m, c.IsAscii) :
    Python.rstripDot (m.map Python.lowerAscii) = (Python.rstripDot m).map Python.lowerAscii := by
  have hdrop : ∀ t : Text, (∀ c ∈ t, c.IsAscii) →
      (t.map Python.lowerAscii).dropWhile (· == 46) =
        (t.dropWhile (· == 46)).map Python.lowerAscii := by
    intro t ht
    induction t with
    | nil => rfl
    | cons c t ih =>
      rw [List.forall_mem_cons] at ht
      rw [List.map_cons, List.dropWhile_cons, List.dropWhile_cons, lowerAscii_eq_dot ht.1]
      split_ifs
      · exact ih ht.2
      · rfl
  rw [Python.rstripDot, ← List.map_reverse, hdrop _ fun c hc => h c (List.mem_reverse.mp hc),
    ← List.map_reverse]
  rfl

/-- The parts of the URL of a name. -/
def nameParts (l d : Text) : Python.ParseResult :=
  ⟨text "shadow", unlined l ++ 64 :: unlined d, [], [], []⟩

namespace Pieces

variable {l a m b D : Text}

/-- The authority of the URL has no place to cut but its `@`. -/
theorem not_mem_unlined (h : Pieces G l a m D) {c : CodePoint} (hc : c ∈ cuts) :
    c ∉ unlined l ∧ c ∉ unlined (a ++ m) := by
  obtain ⟨h1, h2, h3⟩ := h.not_mem_cuts hc
  refine ⟨fun hin => h1 (mem_unlined.mp hin).1, fun hin => ?_⟩
  rcases List.mem_append.mp (mem_unlined.mp hin).1 with h | h
  · exact h2 h
  · exact h3 h

theorem ascii_domain (h : Pieces G l a m D) : ∀ c ∈ unlined (a ++ m), c.IsAscii := by
  intro c hc
  rcases List.mem_append.mp (mem_unlined.mp hc).1 with hc | hc
  · exact (h.space c hc).1
  · exact h.ascii c hc

theorem parse_uri (h : Pieces G l a m D) (hb : ∀ x ∈ b, Python.isSpace x = true) :
    Python.parseShadowAddress G nfkc (text "shadow://" ++ (l ++ 64 :: (a ++ m ++ b))) =
      Python.shadowAddressOf G (nameParts l (a ++ m)) := by
  have hlit : text "shadow://" = 115 :: text "hadow://" := by decide
  have hlit' : text "shadow://" = text "shadow" ++ [58, 47, 47] := by decide
  have hstrip : Python.strip (text "shadow://" ++ (l ++ 64 :: (a ++ m ++ b))) =
      text "shadow://" ++ (l ++ 64 :: (a ++ m)) := by
    have hs := h.strip_spelling hb (c := 115) (by decide) (text "hadow://" ++ l)
    rw [hlit]
    simpa only [List.cons_append, List.append_assoc] using hs
  have hsub : text "://" <:+: text "shadow://" ++ (l ++ 64 :: (a ++ m)) :=
    ⟨text "shadow", l ++ 64 :: (a ++ m), by rw [hlit', show text "://" = [58, 47, 47] by decide]⟩
  have hclean : Python.cleanUrl (text "shadow://" ++ (l ++ 64 :: (a ++ m))) =
      text "shadow" ++ 58 :: 47 :: 47 :: (unlined l ++ 64 :: unlined (a ++ m)) := by
    have hkeep : unlined (text "shadow://") = text "shadow://" := by decide
    have hat : unlined (64 :: (a ++ m)) = 64 :: unlined (a ++ m) := rfl
    rw [hlit, List.cons_append, Python.cleanUrl_cons (by decide), ← List.cons_append, ← hlit,
      unlined_append, unlined_append, hkeep, hat, hlit']
    rfl
  have hmem : ∀ c ∈ unlined l ++ 64 :: unlined (a ++ m), c.IsAscii := by
    intro c hc
    rcases List.mem_append.mp hc with hc | hc
    · exact localRe_ascii h.loc c (mem_unlined.mp hc).1
    · rcases List.mem_cons.mp hc with rfl | hc
      · decide
      · exact h.ascii_domain c hc
  have hcut : ∀ c ∈ cuts, c ≠ 64 → c ∉ unlined l ++ 64 :: unlined (a ++ m) := by
    intro c hc hne hin
    obtain ⟨h1, h2⟩ := h.not_mem_unlined hc
    rcases List.mem_append.mp hin with hin | hin
    · exact h1 hin
    · exact (List.mem_cons.mp hin).elim hne h2
  have hends : ∀ c ∈ unlined l ++ 64 :: unlined (a ++ m), Python.endsAuthority c = false := by
    intro c hc
    rw [Python.endsAuthority, Bool.or_eq_false_iff, Bool.or_eq_false_iff, beq_eq_false_iff_ne,
      beq_eq_false_iff_ne, beq_eq_false_iff_ne]
    refine ⟨⟨?_, ?_⟩, ?_⟩
    · rintro rfl
      exact hcut 47 (by decide) (by decide) hc
    · rintro rfl
      exact hcut 63 (by decide) (by decide) hc
    · rintro rfl
      exact hcut 35 (by decide) (by decide) hc
  have hsplit : Python.splitUrl (text "shadow://" ++ (l ++ 64 :: (a ++ m))) =
      nameParts l (a ++ m) := by
    rw [Python.splitUrl_bare hclean (by decide) (by decide) (by decide) hends]
    rfl
  have hok : Python.authorityOk nfkc (unlined l ++ 64 :: unlined (a ++ m)) = true := by
    have h91 : (unlined l ++ 64 :: unlined (a ++ m)).contains 91 = false :=
      Bool.eq_false_iff.mpr (mt List.contains_iff_mem.mp (hcut 91 (by decide) (by decide)))
    have h93 : (unlined l ++ 64 :: unlined (a ++ m)).contains 93 = false :=
      Bool.eq_false_iff.mpr (mt List.contains_iff_mem.mp (hcut 93 (by decide) (by decide)))
    have hall : (unlined l ++ 64 :: unlined (a ++ m)).all (fun c => decide c.IsAscii) = true :=
      List.all_eq_true.mpr fun c hc => decide_eq_true (hmem c hc)
    rw [Python.authorityOk, Python.bracketsOk, Python.normalizedOk, h91, h93, hall]
    rfl
  rw [Python.parseShadowAddress, hstrip]
  simp only [hsub, not_true_eq_false, if_false, Python.urlparse, hsplit]
  have hne : text "shadow://" ++ (l ++ 64 :: (a ++ m)) ≠ [] := by simp
  have hok' : Python.authorityOk nfkc (nameParts l (a ++ m)).netloc = true := hok
  rw [if_neg hne, if_neg (not_not.mpr hok')]
  rfl

/-- The host of the URL. -/
theorem hostname_name (h : Pieces G l a m D) :
    (nameParts l (a ++ m)).hostname G = (unlined (a ++ m)).map Python.lowerAscii ∧
      Python.hostinfo (nameParts l (a ++ m)).netloc = (unlined (a ++ m), []) := by
  have hnot : ∀ c ∈ cuts, c ∉ unlined (a ++ m) := fun c hc => (h.not_mem_unlined hc).2
  have hinfo : Python.hostinfo (nameParts l (a ++ m)).netloc = (unlined (a ++ m), []) := by
    rw [nameParts, Python.hostinfo, Python.rpartition_append (hnot 64 (by decide))]
    simp only [Python.partition_self (hnot 91 (by decide)),
      Python.partition_self (hnot 58 (by decide)), Bool.false_eq_true, if_false]
  refine ⟨?_, hinfo⟩
  rw [Python.ParseResult.hostname, hinfo]
  simp only [Python.partition_self (hnot 37 (by decide)), Bool.false_eq_true, if_false,
    List.append_nil]
  exact lower_ascii h.ascii_domain

/-- The URL of a name is read as the name again, unless its local part is `key`. -/
theorem shadowAddressOf_name (h : Pieces G l a m D) {address : Python.ShadowAddress} :
    Python.shadowAddressOf G (nameParts l (a ++ m)) = .ok address ↔
      (unlined l).map Python.lowerAscii ≠ text "key" ∧ unlined l ≠ [] ∧ unlined (a ++ m) ≠ [] ∧
      ∃ name, Python.validateShadowname G
          (unlined l ++ 64 :: (unlined (a ++ m)).map Python.lowerAscii) = .ok name ∧
        address = .shadowname name := by
  have husername : (nameParts l (a ++ m)).username = some (unlined l) := by
    rw [Python.ParseResult.username, nameParts,
      Python.rpartition_append (h.not_mem_unlined (c := 64) (by decide)).2]
    simp only [if_true, Python.partition_self (h.not_mem_unlined (c := 58) (by decide)).1]
  have hpassword : (nameParts l (a ++ m)).password = none := by
    rw [Python.ParseResult.password, nameParts,
      Python.rpartition_append (h.not_mem_unlined (c := 64) (by decide)).2]
    simp only [Python.partition_self (h.not_mem_unlined (c := 58) (by decide)).1, Bool.and_false,
      Bool.false_eq_true, if_false]
  have hscheme : ¬ (nameParts l (a ++ m)).scheme.map Python.lowerAscii ≠ Python.shadowScheme :=
    not_not.mpr (show (text "shadow").map Python.lowerAscii = text "shadow" by decide)
  have hnetloc : (nameParts l (a ++ m)).netloc ≠ [] := by simp [nameParts]
  have hlower : G.lower (unlined l) = (unlined l).map Python.lowerAscii :=
    lower_ascii fun c hc => localRe_ascii h.loc c (mem_unlined.mp hc).1
  obtain ⟨hhost, hinfo⟩ := h.hostname_name
  have hport : (nameParts l (a ++ m)).port G = .ok none := by
    rw [Python.ParseResult.port, hinfo]
    rfl
  have hempty : ¬ ((nameParts l (a ++ m)).path ≠ [] ∧ (nameParts l (a ++ m)).path ≠ [47]) := by
    simp [nameParts]
  have hquery : ¬ (nameParts l (a ++ m)).query ≠ [] := by simp [nameParts]
  have hfragment : ¬ (nameParts l (a ++ m)).fragment ≠ [] := by simp [nameParts]
  rw [Python.shadowAddressOf, if_neg hscheme, if_neg hnetloc, if_neg hempty, if_neg hquery,
    husername]
  by_cases hkey : (unlined l).map Python.lowerAscii = text "key"
  · simp only [hlower, hkey, if_true, Python.parseDirect, hpassword]
    exact iff_of_false nofun fun h => h.1 rfl
  · simp only [hlower, hkey, if_false, hpassword, not_true_eq_false, ne_eq, not_false_eq_true,
      true_and, Python.parseShadownameUri, husername, hhost, Option.getD_some, List.map_eq_nil_iff,
      hport, hfragment, bind_eq_ok, guard_eq_ok, pure_eq_ok, Python.canonicalShadowname,
      Python.reraise_eq_ok, not_or, Except.ok.injEq, exists_eq_left']
    constructor
    · rintro ⟨name, ⟨⟨h1, h2⟩, hname⟩, rfl⟩
      exact ⟨h1, h2, name, hname, rfl⟩
    · rintro ⟨h1, h2, name, hname, rfl⟩
      exact ⟨name, ⟨⟨h1, h2⟩, hname⟩, rfl⟩

/-- The pieces of the name as the URL gives it back. -/
theorem lower_unlined (h : Pieces G l a m D) (hn : (10 : CodePoint) ∉ Python.rstripDot m) :
    Pieces G l ((unlined a).map Python.lowerAscii) (m.map Python.lowerAscii) D ∧
      unlined (a ++ m) = unlined a ++ m := by
  have hspace : ∀ {c : CodePoint}, c.IsAscii →
      (Python.lowerAscii c).IsAscii ∧ Python.isSpace (Python.lowerAscii c) = Python.isSpace c := by
    have hall : ∀ i : Fin 0x80, Python.isSpace (Python.lowerAscii (Fin.castLE (by decide) i)) =
        Python.isSpace (Fin.castLE (by decide) i) := by
      decide
    exact fun {c} hc => ⟨lowerAscii_isAscii hc, hall ⟨c.val, hc⟩⟩
  have hstrip : Python.strip (m.map Python.lowerAscii) = m.map Python.lowerAscii := by
    obtain ⟨hhead, hlast⟩ := Python.strip_eq_self_iff.mp h.stripped
    refine Python.strip_eq_self_iff.mpr ⟨fun c hc => ?_, fun c hc => ?_⟩
    · rw [List.head?_map] at hc
      obtain ⟨d, hd, rfl⟩ := Option.map_eq_some_iff.mp hc
      exact (hspace (h.ascii d (List.mem_of_mem_head? hd))).2.trans (hhead d hd)
    · rw [List.getLast?_map] at hc
      obtain ⟨d, hd, rfl⟩ := Option.map_eq_some_iff.mp hc
      exact (hspace (h.ascii d (List.mem_of_getLast? hd))).2.trans (hlast d hd)
  refine ⟨⟨h.loc, fun c hc => ?_, fun c hc => ?_, hstrip, ?_⟩, ?_⟩
  · obtain ⟨d, hd, rfl⟩ := List.mem_map.mp hc
    have hd := h.space d (mem_unlined.mp hd).1
    exact ⟨(hspace hd.1).1, (hspace hd.1).2.trans hd.2⟩
  · obtain ⟨d, hd, rfl⟩ := List.mem_map.mp hc
    exact (hspace (h.ascii d hd)).1
  · obtain ⟨-, hne, hshort, hlabels⟩ := validateDomain_ok_iff.mp h.valid
    have hcore : domainCore (m.map Python.lowerAscii) = D := by
      rw [domainCore, hstrip, rstripDot_map h.ascii, h.lower_core]
    have hD : G.lower D = D := by
      rw [← h.lower_core, lower_ascii fun c hc => ?_, List.map_map]
      · exact List.map_congr_left fun c _ => lowerAscii_idem c
      · obtain ⟨d, hd, rfl⟩ := List.mem_map.mp hc
        exact lowerAscii_isAscii (h.ascii d (mem_of_mem_rstripDot hd))
    exact validateDomain_ok_iff.mpr ⟨by rw [hcore, hD], hne, hshort, hlabels⟩
  · have hnot : ∀ {c : CodePoint}, c = 9 ∨ c = 13 → c ∉ m := by
      intro c hc
      refine h.not_mem_domain ?_ ?_ fun hin => ?_
      · rcases hc with rfl | rfl <;> rfl
      · rcases hc with rfl | rfl <;> decide
      · rcases hc with rfl | rfl <;>
          rcases validateDomain_chars h.valid _ hin with h | h | h | h <;>
            exact absurd h (by decide)
    rw [unlined_append, @unlined_self m fun c hc => ⟨?_, ?_, ?_⟩]
    · rintro rfl
      exact hnot (.inl rfl) hc
    · rintro rfl
      exact hnot (.inr rfl) hc
    · rintro rfl
      rcases mem_core hc with h | h
      · cases h
      · exact hn h

end Pieces

/-- **Both spellings of a Shadowname address agree** for local parts other than `key`, when no
newline got past the patterns. -/
theorem spellings_agree_iff (G : Python.Runtime) (nfkc : Text → Text) {s c : Text}
    (hascii : ∀ x ∈ s, x.IsAscii) (h : Python.validateShadowname G s = .ok c) :
    (∃ name, Python.parseShadowAddress G nfkc s = .ok (.shadowname name) ∧
      Python.parseShadowAddress G nfkc (text "shadow://" ++ s) = .ok (.shadowname name)) ↔
    (Python.partitionAt s).1.map Python.lowerAscii ≠ text "key" ∧
      (10 : CodePoint) ∉ (Python.partitionAt s).1 ∧
      (10 : CodePoint) ∉ domainCore (Python.partitionAt s).2 := by
  obtain ⟨l, a, m, b, D, rfl, hp, hb, rfl⟩ := exists_pieces hascii h
  have hat := at_not_mem_local hp.loc
  have hcore : domainCore (a ++ m ++ b) = Python.rstripDot m := by
    rw [domainCore, Python.strip_padded (fun c hc => (hp.space c hc).2) hb hp.stripped]
  rw [partitionAt_of_not_mem hat, hcore]
  simp only [hp.parse_plain hb, hp.parse_uri hb, hp.shadowAddressOf_name, Except.ok.injEq,
    Python.ShadowAddress.shadowname.injEq, exists_eq_left']
  constructor
  · rintro ⟨hkey, -, -, name, hname, hsame⟩
    -- The second name is made of texts without newlines.
    have hat' : (64 : CodePoint) ∉ unlined l := (hp.not_mem_unlined (by decide)).1
    obtain ⟨-, -, E, hE, rfl⟩ := validateShadowname_ok_iff.mp hname
    rw [partitionAt_of_not_mem hat'] at hE hsame
    obtain ⟨hloc, rfl⟩ := cut_first_unique (not_mem_lowerAscii (localRe_ascii hp.loc) hat)
      (not_mem_lowerAscii (fun c hc => localRe_ascii hp.loc c (mem_unlined.mp hc).1) hat') hsame
    have hnot : ∀ t : Text, (10 : CodePoint) ∉ (unlined t).map Python.lowerAscii := by
      intro t hin
      obtain ⟨c, hc, hc10⟩ := List.mem_map.mp hin
      exact (mem_unlined.mp hc).2.2.2 ((Python.lowerAscii_eq_iff (d := 10) (by decide)).mp hc10)
    refine ⟨by rwa [hloc], fun hin => ?_, fun hin => ?_⟩
    · exact hnot l (hloc ▸ List.mem_map.mpr ⟨10, hin, rfl⟩)
    · have hD : (10 : CodePoint) ∈ D := hp.lower_core ▸ List.mem_map.mpr ⟨10, hin, rfl⟩
      rw [← (validateDomain_ok_iff.mp hE).1, lower_ascii fun c hc => ?_] at hD
      · obtain ⟨c, hc, hc10⟩ := List.mem_map.mp hD
        rw [(Python.lowerAscii_eq_iff (d := 10) (by decide)).mp hc10] at hc
        exact hnot _ (mem_of_mem_domainCore hc)
      · obtain ⟨d, hd, rfl⟩ := List.mem_map.mp (mem_of_mem_domainCore hc)
        exact lowerAscii_isAscii (hp.ascii_domain d hd)
  · rintro ⟨hkey, hl, hm⟩
    obtain ⟨hp', hunlined⟩ := hp.lower_unlined hm
    have hself : unlined l = l := by
      refine unlined_self fun c hc => ⟨?_, ?_, ?_⟩
      · rintro rfl
        rcases localRe_chars hp.loc 9 hc with h | h | h | h | h <;> exact absurd h (by decide)
      · rintro rfl
        rcases localRe_chars hp.loc 13 hc with h | h | h | h | h <;> exact absurd h (by decide)
      · rintro rfl
        exact hl hc
    have hne : unlined a ++ m ≠ [] := by simp [hp.ne_nil]
    obtain ⟨c, t, rfl, -⟩ := hp.local_head
    rw [hself, hunlined, List.map_append]
    exact ⟨hkey, by simp, hne, _, hp'.validateShadowname_eq, rfl⟩

theorem spellings_agree_alice :
    (∃ name, Python.parseShadowAddress Python.bareRuntime id (text "Alice@B.co. ") =
        .ok (.shadowname name) ∧
      Python.parseShadowAddress Python.bareRuntime id (text "shadow://" ++ text "Alice@B.co. ") =
        .ok (.shadowname name)) :=
  (@spellings_agree_iff Python.bareRuntime id (text "Alice@B.co. ") (text "alice@b.co")
    (fun c hc => by
      have hall : ((text "Alice@B.co. ").all fun c => decide c.IsAscii) = true := by decide
      exact of_decide_eq_true (List.all_eq_true.mp hall c hc))
    (by decide)).mpr (by decide)

/-- The name of the local part `key` is not an address after `shadow://`. -/
theorem key_spelling_rejected :
    Python.validateShadowname Python.bareRuntime (text "key@b.co") = .ok (text "key@b.co") ∧
      Python.parseShadowAddress Python.bareRuntime id (text "key@b.co") =
        .ok (.shadowname (text "key@b.co")) ∧
      Python.parseShadowAddress Python.bareRuntime id (text "shadow://" ++ text "key@b.co") =
        .error (Python.shadowAddressError
          (text "direct URI must have 'key:<pubkey>' in userinfo")) := by
  decide

end Shadownet.Identifiers
