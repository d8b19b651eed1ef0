import Shadownet.Go.Ascii
import Shadownet.Interop.Jcs
import Shadownet.Python.Identifiers

/-!
# Shadownames in both languages

The provider works with Go strings, the SDK with Python texts. An ASCII domain in the canonical
form of Go is in the canonical form of Python, and a local part that Go accepts is one that
Python accepts.

* `validateDomain_of_canonical`, `validateShadowname_of_go`.
* `clean_of_validateDomain`: a domain that Python accepts has no surrogates.
-/

namespace Shadownet.Interop

open Foundation
open Python (Clean)

theorem clean_of_ascii {s : Text} (h : ∀ c ∈ s, c.IsAscii) : Clean s := by
  intro c hc hs
  have hlt : c.val < 0x80 := h c hc
  unfold CodePoint.IsSurrogate at hs
  omega

theorem length_utf8_ascii {s : Text} (h : ∀ c ∈ s, c.IsAscii) : (utf8 s).length = s.length := by
  rw [utf8_ascii h, List.length_map]

/-! ## Labels -/

theorem splitOn_map {α β : Type} [BEq α] [BEq β] {f : α → β} {a : α} {b : β} {s : List α}
    (h : ∀ c ∈ s, (f c == b) = (c == a)) :
    (s.map f).splitOn b = (s.splitOn a).map (List.map f) := by
  induction s with
  | nil => rfl
  | cons c s ih =>
    rw [List.forall_mem_cons] at h
    rw [List.map_cons, List.splitOn_cons_eq_if_modifyHead, List.splitOn_cons_eq_if_modifyHead,
      ih h.2, h.1]
    split_ifs
    · rfl
    · obtain ⟨l, ls, hl⟩ := List.exists_cons_of_ne_nil (List.splitOn_ne_nil a s)
      rw [hl]
      rfl

/-- A label accepted by the loop has letters and digits, and hyphens inside. -/
theorem labelLoop_eq_ok {G : Go.Runtime} {label : Bytes} {n i : Nat} {s : Text}
    (hascii : ∀ c ∈ s, c.IsAscii)
    (h : Go.labelLoop G label n i (s.map fun c => (c, utf8Char c)) = .ok ()) :
    ∀ j (hj : j < s.length), Go.isAlnum s[j].val = true ∨
      (s[j].val = 45 ∧ i + j ≠ 0 ∧ i + j + 1 ≠ n) := by
  induction s generalizing i with
  | nil =>
    intro j hj
    cases hj
  | cons c s ih =>
    rw [List.forall_mem_cons] at hascii
    have hlen : (utf8Char c).length = 1 := by rw [utf8Char_ascii hascii.1]; rfl
    rw [List.map_cons, Go.labelLoop, hlen] at h
    have hnext : Go.labelLoop G label n (i + 1) (s.map fun c => (c, utf8Char c)) = .ok () ∧
        (Go.isAlnum c.val = true ∨ (c.val = 45 ∧ i ≠ 0 ∧ i + 1 ≠ n)) := by
      split_ifs at h with h1 h2 h3 h4
      · exact ⟨h, .inl h1⟩
      · exact ⟨h, .inr ⟨h2, by omega, by omega⟩⟩
      · exact absurd hascii.1 h4.1
    intro j hj
    cases j with
    | zero => exact hnext.2
    | succ j =>
      have hrest := ih hascii.2 hnext.1 j (by simpa using hj)
      rw [List.getElem_cons_succ, show i + (j + 1) = i + 1 + j by omega]
      exact hrest

/-- Letters and digits, with hyphens inside. -/
structure LabelText (s : Text) : Prop where
  pos : 1 ≤ s.length
  short : s.length ≤ 63
  chars : ∀ j (hj : j < s.length), Python.isAlnum s[j] = true ∨
    (s[j] = 45 ∧ j ≠ 0 ∧ j + 1 ≠ s.length)

/-- What Go accepts as a label. -/
theorem LabelText.of_go {G : Go.Runtime} {s : Text} (hascii : ∀ c ∈ s, c.IsAscii)
    (h : Go.validateDomainLabel G (utf8 s) = .ok ()) : LabelText s := by
  rw [Go.validateDomainLabel, guard_eq_ok, length_utf8_ascii hascii,
    segments_utf8 (clean_of_ascii hascii)] at h
  obtain ⟨hlen, hloop⟩ := h
  refine ⟨by omega, by omega, fun j hj => ?_⟩
  rcases labelLoop_eq_ok hascii hloop j hj with h | ⟨h, h0, hn⟩
  · exact .inl h
  · exact .inr ⟨Fin.ext h, by omega, by omega⟩

theorem LabelText.mem {s : Text} (h : LabelText s) {c : CodePoint} (hc : c ∈ s) :
    Python.isAlnum c = true ∨ c = 45 := by
  obtain ⟨j, hj, rfl⟩ := List.mem_iff_getElem.mp hc
  exact (h.chars j hj).imp id And.left

theorem LabelText.labelRe {s : Text} (h : LabelText s) : Python.labelRe s = true := by
  have hall : (s.all fun c => Python.isAlnum c || c == 45) = true := by
    refine List.all_eq_true.mpr fun c hc => ?_
    rw [Bool.or_eq_true, beq_iff_eq]
    exact h.mem hc
  have hends : ∀ j (hj : j < s.length), j = 0 ∨ j + 1 = s.length →
      Python.isAlnum s[j] = true := by
    intro j hj hj'
    rcases h.chars j hj with h | ⟨-, h0, hn⟩
    · exact h
    · omega
  have hhead : (s.head?.all Python.isAlnum) = true := by
    cases s with
    | nil => rfl
    | cons c s => exact hends 0 (by simp) (.inl rfl)
  have hlast : (s.getLast?.all Python.isAlnum) = true := by
    cases s with
    | nil => rfl
    | cons c s =>
      rw [List.getLast?_eq_getElem?, List.getElem?_eq_getElem (by simp)]
      exact hends ((c :: s).length - 1) (by simp) (.inr (by simp))
  rw [Python.labelRe, Python.matchesBeforeEnd, Bool.or_eq_true]
  left
  simp only [hall, hhead, hlast, Bool.and_true, Bool.and_eq_true, decide_eq_true_eq]
  exact ⟨h.pos, h.short⟩

/-! ## Domains -/

theorem lower_utf8 (G : Go.Runtime) {s : Text} (h : ∀ c ∈ s, c.IsAscii) :
    G.lower (utf8 s) = utf8 (s.map G.lowerRune) := by
  rw [Go.Runtime.lower, runes_utf8 (clean_of_ascii h)]

theorem lowerRune_ascii (G : Go.Runtime) {c : CodePoint} (h : c.IsAscii) :
    G.lowerRune c = Python.lowerAscii c := by
  rw [Go.Runtime.lowerRune, Python.lowerAscii]
  split_ifs <;> rfl

theorem lowerAscii_isAscii {c : CodePoint} (h : c.IsAscii) : (Python.lowerAscii c).IsAscii := by
  have hlt : c.val < 0x80 := h
  show (Python.lowerAscii c).val < 0x80
  rw [Python.lowerAscii]
  split_ifs with hup
  · show (c.val + 32) % 0x110000 < 0x80
    omega
  · exact hlt

theorem mem_of_mem_splitOn {D label : Text} {c : CodePoint} (hl : label ∈ D.splitOn 46)
    (hc : c ∈ label) : c ∈ D := by
  induction D generalizing label with
  | nil =>
    rw [List.splitOn_eq_singleton (by simp), List.mem_singleton] at hl
    rw [hl] at hc
    cases hc
  | cons d D ih =>
    rw [List.splitOn_cons_eq_if_modifyHead] at hl
    obtain ⟨l, ls, hls⟩ := List.exists_cons_of_ne_nil (List.splitOn_ne_nil 46 D)
    split_ifs at hl
    · rcases List.mem_cons.mp hl with rfl | hl
      · cases hc
      · exact List.mem_cons_of_mem _ (ih hl hc)
    · rw [hls, List.modifyHead_cons] at hl
      rcases List.mem_cons.mp hl with rfl | hl
      · rcases List.mem_cons.mp hc with rfl | hc
        · simp
        · exact List.mem_cons_of_mem _ (ih (by rw [hls]; simp) hc)
      · exact List.mem_cons_of_mem _ (ih (by rw [hls]; simp [hl]) hc)

/-- Every character is a separator or stands in a label. -/
theorem mem_splitOn_of_mem {D : Text} {c : CodePoint} (hc : c ∈ D) :
    c = 46 ∨ ∃ label ∈ D.splitOn 46, c ∈ label := by
  induction D with
  | nil => cases hc
  | cons d D ih =>
    rw [List.splitOn_cons_eq_if_modifyHead]
    obtain ⟨l, ls, hls⟩ := List.exists_cons_of_ne_nil (List.splitOn_ne_nil 46 D)
    split_ifs with hd
    · rcases List.mem_cons.mp hc with rfl | hc
      · exact .inl (beq_iff_eq.mp hd)
      · rcases ih hc with h | ⟨label, hl, h⟩
        · exact .inl h
        · exact .inr ⟨label, List.mem_cons_of_mem _ hl, h⟩
    · rw [hls, List.modifyHead_cons]
      rcases List.mem_cons.mp hc with rfl | hc
      · exact .inr ⟨_, List.mem_cons_self, List.mem_cons_self⟩
      · rcases ih hc with h | ⟨label, hl, h⟩
        · exact .inl h
        · rw [hls] at hl
          rcases List.mem_cons.mp hl with rfl | hl
          · exact .inr ⟨_, List.mem_cons_self, List.mem_cons_of_mem _ h⟩
          · exact .inr ⟨label, List.mem_cons_of_mem _ hl, h⟩

theorem labelRe_chars {label : Text} (h : Python.labelRe label = true) :
    ∀ c ∈ label, Python.isAlnum c = true ∨ c = 45 ∨ c = 10 := by
  rw [Python.labelRe, Python.matchesBeforeEnd, Bool.or_eq_true] at h
  have hchar : ∀ {t : Text}, (t.all fun c => Python.isAlnum c || c == 45) = true →
      ∀ c ∈ t, Python.isAlnum c = true ∨ c = 45 ∨ c = 10 := by
    intro t ht c hc
    have := List.all_eq_true.mp ht c hc
    rw [Bool.or_eq_true, beq_iff_eq] at this
    exact this.imp id .inl
  intro c hc
  rcases h with h | h
  · simp only [Bool.and_eq_true] at h
    exact hchar h.1.2 c hc
  · simp only [Bool.and_eq_true, beq_iff_eq] at h
    obtain ⟨hlast, ⟨-, hall⟩, -⟩ := h
    rcases List.getLast?_eq_some_iff.mp hlast with ⟨t, rfl⟩
    rw [List.dropLast_concat] at hall
    rcases List.mem_append.mp hc with hc | hc
    · exact hchar hall c hc
    · exact .inr (.inr (List.mem_singleton.mp hc))

theorem isAlnum_ascii {c : CodePoint} (h : Python.isAlnum c = true) : c.IsAscii := by
  simp only [Python.isAlnum, Bool.or_eq_true, Bool.and_eq_true, decide_eq_true_eq] at h
  show c.val < 0x80
  omega

/-- The characters of what `_validate_domain` returns. -/
theorem validateDomain_chars {G : Python.Runtime} {value D : Text}
    (h : Python.validateDomain G value = .ok D) :
    ∀ c ∈ D, Python.isAlnum c = true ∨ c = 45 ∨ c = 10 ∨ c = 46 := by
  simp only [Python.validateDomain, guard_eq_ok] at h
  obtain ⟨-, h⟩ := h
  intro c hc
  split at h
  · exact (throw_eq_ok.mp h).elim
  · next hfind =>
    rw [pure_eq_ok.mp h] at hfind
    rcases mem_splitOn_of_mem hc with rfl | ⟨label, hl, hcl⟩
    · exact .inr (.inr (.inr rfl))
    · have hre : Python.labelRe label = true := by
        simpa using List.find?_eq_none.mp hfind label hl
      rcases labelRe_chars hre c hcl with h | h | h
      · exact .inl h
      · exact .inr (.inl h)
      · exact .inr (.inr (.inl h))

/-- What `_validate_domain` returns has no surrogates. -/
theorem clean_of_validateDomain {G : Python.Runtime} {value D : Text}
    (h : Python.validateDomain G value = .ok D) : Clean D := by
  refine clean_of_ascii fun c hc => ?_
  rcases validateDomain_chars h c hc with h | rfl | rfl | rfl
  · exact isAlnum_ascii h
  all_goals decide

theorem not_space {c : CodePoint} (h : Python.isAlnum c = true ∨ c = 45 ∨ c = 46) :
    Python.isSpace c = false := by
  have hval : 45 ≤ c.val ∧ c.val < 0x80 := by
    rcases h with h | rfl | rfl
    · have hlt : c.val < 0x80 := isAlnum_ascii h
      simp only [Python.isAlnum, Bool.or_eq_true, Bool.and_eq_true, decide_eq_true_eq] at h
      omega
    · decide
    · decide
  have hall : ∀ i : Fin 0x80, 45 ≤ i.val → Python.isSpace (Fin.castLE (by decide) i) = false := by
    decide
  exact hall ⟨c.val, hval.2⟩ hval.1

theorem isAlnum_lowerAscii {c : CodePoint} (h : Python.isAlnum c = true) :
    Python.isAlnum (Python.lowerAscii c) = true := by
  have hall : ∀ i : Fin 0x80, Python.isAlnum (Fin.castLE (by decide) i) = true →
      Python.isAlnum (Python.lowerAscii (Fin.castLE (by decide) i)) = true := by
    decide
  exact hall ⟨c.val, isAlnum_ascii h⟩ h

theorem lowerAscii_eq_dot {c : CodePoint} (h : c.IsAscii) :
    (Python.lowerAscii c == 46) = (c == 46) := by
  have hall : ∀ i : Fin 0x80, (Python.lowerAscii (Fin.castLE (by decide) i) == 46) =
      ((Fin.castLE (by decide) i : CodePoint) == 46) := by
    decide
  exact hall ⟨c.val, h⟩

theorem lowerAscii_idem (c : CodePoint) :
    Python.lowerAscii (Python.lowerAscii c) = Python.lowerAscii c := by
  have hc := c.isLt
  rw [Python.lowerAscii, Python.lowerAscii]
  split_ifs with h h' <;> try rfl
  rw [Fin.val_ofNat, Nat.mod_eq_of_lt (by omega)] at h'
  omega

theorem LabelText.lower {s : Text} (h : LabelText s) : LabelText (s.map Python.lowerAscii) where
  pos := by rw [List.length_map]; exact h.pos
  short := by rw [List.length_map]; exact h.short
  chars := by
    intro j hj
    rw [List.getElem_map]
    rcases h.chars j (by simpa using hj) with halnum | ⟨hhyphen, hpos, hlast⟩
    · exact .inl (isAlnum_lowerAscii halnum)
    · rw [hhyphen]
      exact .inr ⟨rfl, hpos, by simpa using hlast⟩

/-- A domain of ASCII characters, without a dot at its end. -/
structure DomainText (t : Text) : Prop where
  pos : 1 ≤ t.length
  short : t.length ≤ 253
  labels : ∀ label ∈ t.splitOn 46, LabelText label

namespace DomainText

variable {t : Text}

theorem mem (h : DomainText t) {c : CodePoint} (hc : c ∈ t) :
    Python.isAlnum c = true ∨ c = 45 ∨ c = 46 := by
  rcases mem_splitOn_of_mem hc with rfl | ⟨label, hl, hcl⟩
  · exact .inr (.inr rfl)
  · exact ((h.labels label hl).mem hcl).imp id .inl

theorem ascii (h : DomainText t) : ∀ c ∈ t, c.IsAscii := by
  intro c hc
  rcases h.mem hc with h | rfl | rfl
  · exact isAlnum_ascii h
  all_goals decide

theorem lower (h : DomainText t) : DomainText (t.map Python.lowerAscii) where
  pos := by rw [List.length_map]; exact h.pos
  short := by rw [List.length_map]; exact h.short
  labels := by
    rw [splitOn_map fun c hc => lowerAscii_eq_dot (h.ascii c hc)]
    intro label hl
    obtain ⟨part, hp, rfl⟩ := List.mem_map.mp hl
    exact (h.labels part hp).lower

/-- The last label is not empty. -/
theorem getLast?_ne (h : DomainText t) : t.getLast? ≠ some 46 := by
  intro hlast
  obtain ⟨u, rfl⟩ := List.getLast?_eq_some_iff.mp hlast
  have hempty : ([] : Text) ∈ (u ++ [46]).splitOn 46 := by
    rw [List.splitOn_append_cons_self]
    exact List.mem_append_right _ (List.mem_singleton.mpr rfl)
  cases (h.labels [] hempty).pos

theorem rstripDot (h : DomainText t) : Python.rstripDot t = t := by
  rcases List.eq_nil_or_concat' t with rfl | ⟨u, c, rfl⟩
  · rfl
  · have hc : c ≠ 46 := by
      rintro rfl
      exact h.getLast?_ne (by simp)
    rw [Python.rstripDot, List.reverse_concat, List.dropWhile_cons_of_neg (by simpa using hc),
      List.reverse_cons, List.reverse_reverse]

/-- `_validate_domain` of a domain, with or without the dot at its end. -/
theorem validateDomain (h : DomainText t) (G : Python.Runtime) {s : Text}
    (hs : s = t ∨ s = t ++ [46]) :
    Python.validateDomain G s = .ok (t.map Python.lowerAscii) := by
  have hstrip : Python.strip s = s := by
    refine Python.strip_eq_self fun c hc => not_space ?_
    rcases hs with rfl | rfl
    · exact h.mem hc
    · rcases List.mem_append.mp hc with hc | hc
      · exact h.mem hc
      · exact .inr (.inr (List.mem_singleton.mp hc))
  have hdot : Python.rstripDot s = t := by
    rcases hs with rfl | rfl
    · exact h.rstripDot
    · have hdrop : Python.rstripDot (t ++ [46]) = Python.rstripDot t := by
        rw [Python.rstripDot, List.reverse_concat]
        rfl
      rw [hdrop, h.rstripDot]
  have hlow : G.lower t = t.map Python.lowerAscii := by
    rw [Python.Runtime.lower,
      if_pos (List.all_eq_true.mpr fun c hc => decide_eq_true (h.ascii c hc))]
  have hfind : ((t.map Python.lowerAscii).splitOn 46).find?
      (fun label => !Python.labelRe label) = none := by
    refine List.find?_eq_none.mpr fun label hl => ?_
    simpa using (h.lower.labels label hl).labelRe
  have hrange : ¬ (t.map Python.lowerAscii = [] ∨ 253 < (t.map Python.lowerAscii).length) := by
    have hpos := h.lower.pos
    have hshort := h.lower.short
    rintro (h | h)
    · rw [h] at hpos
      cases hpos
    · omega
  rw [Python.validateDomain, hstrip, hdot, hlow, if_neg hrange, hfind]
  rfl

end DomainText

/-- `strings.Split(s, ".")` of an ASCII text. -/
theorem splitDots_utf8 {s : Text} (h : ∀ c ∈ s, c.IsAscii) :
    Go.splitDots (utf8 s) = (s.splitOn 46).map utf8 := by
  rw [Go.splitDots, utf8_ascii h, splitOn_map (a := 46) fun c hc => ?_]
  · refine List.map_congr_left fun label hl => ?_
    rw [utf8_ascii fun c hc => h c (mem_of_mem_splitOn hl hc)]
  · have hval : c.val < 0x80 := h c hc
    rw [Bool.eq_iff_iff, beq_iff_eq, beq_iff_eq, ← UInt8.toNat_inj,
      toNat_ofNat_of_lt (by omega), Fin.ext_iff]
    rfl

/-- What Go accepts as a domain. -/
theorem domainText_of_go {G : Go.Runtime} {s : Text} (hascii : ∀ c ∈ s, c.IsAscii)
    (h : Go.validateDomain G (utf8 s) = .ok ()) :
    ∃ t, DomainText t ∧ (s = t ∨ s = t ++ [46]) ∧ Go.trimDot (utf8 s) = utf8 t := by
  -- The dot that Go trims is a character of its own.
  obtain ⟨t, hs, htrim⟩ : ∃ t, (s = t ∨ s = t ++ [46]) ∧ Go.trimDot (utf8 s) = utf8 t := by
    rw [Go.trimDot]
    split_ifs with hdot
    · rcases List.eq_nil_or_concat' s with rfl | ⟨t, c, rfl⟩
      · cases hdot
      · have hc : c.val < 0x80 := hascii c (by simp)
        have hsplit : utf8 (t ++ [c]) = utf8 t ++ [UInt8.ofNat c.val] := by
          rw [utf8_append, utf8_cons_ascii hc]
          rfl
        rw [hsplit] at hdot ⊢
        have hlast : UInt8.ofNat c.val = 0x2E := by simpa using hdot
        have hval : c = 46 := by
          refine Fin.ext ?_
          rw [← toNat_ofNat_of_lt (show c.val < 256 by omega), hlast]
          rfl
        exact ⟨t, .inr (by rw [hval]), by rw [List.dropLast_concat]⟩
    · exact ⟨s, .inl rfl, rfl⟩
  have hascii' : ∀ c ∈ t, c.IsAscii := by
    intro c hc
    rcases hs with rfl | rfl
    · exact hascii c hc
    · exact hascii c (List.mem_append_left _ hc)
  rw [Go.validateDomain, htrim, guard_eq_ok, length_utf8_ascii hascii',
    splitDots_utf8 hascii', forM_eq_ok] at h
  refine ⟨t, ⟨by omega, by omega, fun label hl => ?_⟩, hs, htrim⟩
  exact .of_go (fun c hc => hascii' c (mem_of_mem_splitOn hl hc)) (h.2 _ (List.mem_map_of_mem hl))

/-- A domain has one canonical form in both languages. -/
theorem canonicalDomain_of_go {G : Go.Runtime} (G' : Python.Runtime) {s : Text}
    (hascii : ∀ c ∈ s, c.IsAscii) (h : Go.validateDomain G (utf8 s) = .ok ()) :
    ∃ D, DomainText D ∧ D.map Python.lowerAscii = D ∧
      Go.canonicalDomain G (utf8 s) = .ok (utf8 D) ∧ Python.validateDomain G' s = .ok D := by
  obtain ⟨t, ht, hs, htrim⟩ := domainText_of_go hascii h
  refine ⟨t.map Python.lowerAscii, ht.lower, ?_, ?_, ht.validateDomain G' hs⟩
  · rw [List.map_map]
    exact List.map_congr_left fun c _ => lowerAscii_idem c
  · have hmap : t.map G.lowerRune = t.map Python.lowerAscii :=
      List.map_congr_left fun c hc => lowerRune_ascii G (ht.ascii c hc)
    rw [Go.canonicalDomain_ok_iff, htrim, lower_utf8 G ht.ascii, hmap]
    exact ⟨h, rfl⟩

/-- The canonical domain of Go is its own canonical form in Python. -/
theorem validateDomain_of_canonical (G : Go.Runtime) (G' : Python.Runtime) {D : Text}
    (hascii : ∀ c ∈ D, c.IsAscii) (h : Go.canonicalDomain G (utf8 D) = .ok (utf8 D)) :
    Python.validateDomain G' D = .ok D := by
  obtain ⟨D', hD', -, hcanonical, hvalid⟩ :=
    canonicalDomain_of_go G' hascii (Go.canonicalDomain_ok_iff.mp h).1
  have hsame : utf8 D = utf8 D' := Except.ok.inj (h.symm.trans hcanonical)
  rw [hvalid, utf8_injective (clean_of_ascii hascii) (clean_of_ascii hD'.ascii) hsame]

/-! ## Shadownames -/

/-- The characters of a local part. -/
theorem local_of_go {G : Go.Runtime} {loc : Text} (hclean : Clean loc)
    (h : Go.validateShadownameLocal G (utf8 loc) = .ok ()) :
    1 ≤ loc.length ∧ loc.length ≤ 63 ∧
      ∀ c ∈ loc, Python.isAlnum c = true ∨ c = 95 ∨ c = 46 ∨ c = 45 := by
  rw [Go.validateShadownameLocal, guard_eq_ok, runes_utf8 hclean] at h
  obtain ⟨hlen, h⟩ := h
  have hchars : ∀ c ∈ loc, Python.isAlnum c = true ∨ c = 95 ∨ c = 46 ∨ c = 45 := by
    split at h
    · exact (throw_eq_ok.mp h).elim
    · next hfind =>
      intro c hc
      have hc' := List.find?_eq_none.mp hfind c hc
      simp only [Bool.not_eq_true', Bool.not_eq_false, Bool.or_eq_true, beq_iff_eq] at hc'
      rcases hc' with ((h | h) | h) | h
      · exact .inl h
      · exact .inr (.inl (Fin.ext h))
      · exact .inr (.inr (.inr (Fin.ext h)))
      · exact .inr (.inr (.inl (Fin.ext h)))
  have hascii : ∀ c ∈ loc, c.IsAscii := by
    intro c hc
    rcases hchars c hc with h | rfl | rfl | rfl
    · exact isAlnum_ascii h
    all_goals decide
  rw [length_utf8_ascii hascii] at hlen
  exact ⟨by omega, by omega, hchars⟩

theorem partitionAt_of_not_mem {loc D : Text} (h : (64 : CodePoint) ∉ loc) :
    Python.partitionAt (loc ++ 64 :: D) = (loc, D) := by
  have hne : ∀ c ∈ loc, (c != 64) = true := fun c hc => by
    rw [bne_iff_ne]
    rintro rfl
    exact h hc
  rw [Python.partitionAt, List.takeWhile_append_of_pos hne, List.dropWhile_append_of_pos hne]
  simp

theorem not_mem_lowerAscii {loc : Text} (hascii : ∀ c ∈ loc, c.IsAscii)
    (h : (64 : CodePoint) ∉ loc) : (64 : CodePoint) ∉ loc.map Python.lowerAscii := by
  intro hin
  obtain ⟨c, hc, hlow⟩ := List.mem_map.mp hin
  have hall : ∀ i : Fin 0x80, Python.lowerAscii (Fin.castLE (by decide) i) = 64 → i = 64 := by
    decide
  have h64 := hall ⟨c.val, hascii c hc⟩ hlow
  have : c = 64 := Fin.ext (by simpa using congrArg Fin.val h64)
  exact h (this ▸ hc)

theorem localRe_chars {loc : Text} (h : Python.localRe loc = true) :
    ∀ c ∈ loc, Python.isAlnum c = true ∨ c = 95 ∨ c = 46 ∨ c = 45 ∨ c = 10 := by
  have hset : ∀ {t : Text}, (t.all fun c => Python.isAlnum c || c == 95 || c == 46 || c == 45) =
      true → ∀ c ∈ t, Python.isAlnum c = true ∨ c = 95 ∨ c = 46 ∨ c = 45 ∨ c = 10 := by
    intro t ht c hc
    have hc := List.all_eq_true.mp ht c hc
    simp only [Bool.or_eq_true, beq_iff_eq] at hc
    tauto
  rw [Python.localRe, Python.matchesBeforeEnd, Bool.or_eq_true] at h
  rcases h with h | h
  · rw [Bool.and_eq_true] at h
    exact hset h.2
  · simp only [Bool.and_eq_true, beq_iff_eq] at h
    obtain ⟨t, rfl⟩ := List.getLast?_eq_some_iff.mp h.1
    rw [List.dropLast_concat] at h
    intro c hc
    rcases List.mem_append.mp hc with hc | hc
    · exact hset h.2.2 c hc
    · simp [List.mem_singleton.mp hc]

theorem localRe_ascii {loc : Text} (h : Python.localRe loc = true) : ∀ c ∈ loc, c.IsAscii := by
  intro c hc
  rcases localRe_chars h c hc with h | rfl | rfl | rfl | rfl
  · exact isAlnum_ascii h
  all_goals decide

theorem lower_of_localRe (G : Python.Runtime) {loc : Text} (h : Python.localRe loc = true) :
    G.lower loc = loc.map Python.lowerAscii := by
  rw [Python.Runtime.lower,
    if_pos (List.all_eq_true.mpr fun c hc => decide_eq_true (localRe_ascii h c hc))]

theorem at_not_mem_local {loc : Text} (h : Python.localRe loc = true) : (64 : CodePoint) ∉ loc := by
  intro hin
  rcases localRe_chars h 64 hin with h | h | h | h | h <;> exact absurd h (by decide)

/-- A canonical Shadowname has one `@`. -/
theorem validateShadowname_parts {G : Python.Runtime} {value name : Text}
    (h : Python.validateShadowname G value = .ok name) :
    ∃ loc D, name = loc ++ 64 :: D ∧ (64 : CodePoint) ∉ loc ∧ (64 : CodePoint) ∉ D ∧ Clean D := by
  simp only [Python.validateShadowname, guard_eq_ok, bind_eq_ok, pure_eq_ok, not_not] at h
  obtain ⟨-, hre, D, hD, rfl⟩ := h
  refine ⟨_, D, rfl, ?_, ?_, clean_of_validateDomain hD⟩
  · rw [lower_of_localRe G hre]
    exact not_mem_lowerAscii (localRe_ascii hre) (at_not_mem_local hre)
  · intro hin
    rcases validateDomain_chars hD 64 hin with h | h | h | h <;> exact absurd h (by decide)

/-- A local part that Go accepts, at a canonical domain, is a Shadowname in Python. -/
theorem validateShadowname_of_go (G : Go.Runtime) (G' : Python.Runtime) {loc D : Text}
    (hclean : Clean loc) (hloc : Go.validateShadownameLocal G (utf8 loc) = .ok ())
    (hascii : ∀ c ∈ D, c.IsAscii) (hD : Go.canonicalDomain G (utf8 D) = .ok (utf8 D)) :
    ∃ name, Python.validateShadowname G' (loc ++ 64 :: D) = .ok name ∧
      (Python.partitionAt name).2 = D := by
  obtain ⟨hpos, hlen, hchars⟩ := local_of_go hclean hloc
  have hat : (64 : CodePoint) ∉ loc := fun hin => by
    rcases hchars 64 hin with h | h | h | h <;> exact absurd h (by decide)
  have hlocAscii : ∀ c ∈ loc, c.IsAscii := by
    intro c hc
    rcases hchars c hc with h | rfl | rfl | rfl
    · exact isAlnum_ascii h
    all_goals decide
  have hre : Python.localRe loc = true := by
    rw [Python.localRe, Python.matchesBeforeEnd, Bool.or_eq_true]
    left
    simp only [Bool.and_eq_true, decide_eq_true_eq, List.all_eq_true, Bool.or_eq_true, beq_iff_eq]
    exact ⟨⟨hpos, hlen⟩, fun c hc => by
      rcases hchars c hc with h | h | h | h
      · exact .inl (.inl (.inl h))
      · exact .inl (.inl (.inr h))
      · exact .inl (.inr h)
      · exact .inr h⟩
  have hlower : G'.lower loc = loc.map Python.lowerAscii := by
    rw [Python.Runtime.lower,
      if_pos (List.all_eq_true.mpr fun c hc => decide_eq_true (hlocAscii c hc))]
  have hat' := not_mem_lowerAscii hlocAscii hat
  refine ⟨loc.map Python.lowerAscii ++ 64 :: D, ?_, by rw [partitionAt_of_not_mem hat']⟩
  have hname : Python.isShadowname (loc ++ 64 :: D) = true := by
    simp [Python.isShadowname]
  rw [Python.validateShadowname, if_neg (by simp [hname]), partitionAt_of_not_mem hat]
  simp only [hre, not_true_eq_false, if_false, validateDomain_of_canonical G G' hascii hD, ok_bind,
    hlower]
  rfl

/-! ## Canonical forms are accepted again -/

theorem matchesBeforeEnd_map {p : Text → Bool}
    (hp : ∀ s, p s = true → p (s.map Python.lowerAscii) = true)
    {s : Text} (h : Python.matchesBeforeEnd p s = true) :
    Python.matchesBeforeEnd p (s.map Python.lowerAscii) = true := by
  rw [Python.matchesBeforeEnd, Bool.or_eq_true, Bool.and_eq_true, beq_iff_eq] at h ⊢
  rcases h with h | ⟨hlast, h⟩
  · exact .inl (hp s h)
  · obtain ⟨t, rfl⟩ := List.getLast?_eq_some_iff.mp hlast
    rw [List.dropLast_concat] at h
    right
    rw [List.map_append, List.map_singleton, List.dropLast_concat]
    exact ⟨by rw [List.getLast?_concat]; rfl, hp t h⟩

/-- What a label is up to a newline at its end. -/
structure LabelBody (s : Text) : Prop where
  pos : 1 ≤ s.length
  short : s.length ≤ 63
  chars : ∀ c ∈ s, Python.isAlnum c = true ∨ c = 45
  head : ∀ c, s.head? = some c → Python.isAlnum c = true
  last : ∀ c, s.getLast? = some c → Python.isAlnum c = true

theorem labelBody_iff {s : Text} :
    (1 ≤ s.length && s.length ≤ 63 && s.all (fun c => Python.isAlnum c || c == 45) &&
      (s.head?.all Python.isAlnum && s.getLast?.all Python.isAlnum)) = true ↔ LabelBody s := by
  simp only [Bool.and_eq_true, decide_eq_true_eq, List.all_eq_true, Bool.or_eq_true, beq_iff_eq,
    Option.all_eq_true]
  constructor
  · rintro ⟨⟨⟨h1, h2⟩, h3⟩, h4, h5⟩
    exact ⟨h1, h2, h3, h4, h5⟩
  · rintro ⟨h1, h2, h3, h4, h5⟩
    exact ⟨⟨⟨h1, h2⟩, h3⟩, h4, h5⟩

theorem labelRe_iff {s : Text} :
    Python.labelRe s = true ↔ LabelBody s ∨ ∃ t, s = t ++ [10] ∧ LabelBody t := by
  rw [Python.labelRe, Python.matchesBeforeEnd, Bool.or_eq_true, labelBody_iff, Bool.and_eq_true,
    beq_iff_eq, labelBody_iff]
  refine or_congr_right ⟨?_, ?_⟩
  · rintro ⟨hlast, h⟩
    obtain ⟨t, rfl⟩ := List.getLast?_eq_some_iff.mp hlast
    rw [List.dropLast_concat] at h
    exact ⟨t, rfl, h⟩
  · rintro ⟨t, rfl, h⟩
    rw [List.dropLast_concat]
    exact ⟨List.getLast?_concat, h⟩

theorem LabelBody.lower {s : Text} (h : LabelBody s) : LabelBody (s.map Python.lowerAscii) where
  pos := by rw [List.length_map]; exact h.pos
  short := by rw [List.length_map]; exact h.short
  chars := by
    intro c hc
    obtain ⟨d, hd, rfl⟩ := List.mem_map.mp hc
    exact (h.chars d hd).imp isAlnum_lowerAscii fun hd => by rw [hd]; rfl
  head := by
    intro c hc
    rw [List.head?_map, Option.map_eq_some_iff] at hc
    obtain ⟨d, hd, rfl⟩ := hc
    exact isAlnum_lowerAscii (h.head d hd)
  last := by
    intro c hc
    rw [List.getLast?_map, Option.map_eq_some_iff] at hc
    obtain ⟨d, hd, rfl⟩ := hc
    exact isAlnum_lowerAscii (h.last d hd)

theorem labelRe_lower {s : Text} (h : Python.labelRe s = true) :
    Python.labelRe (s.map Python.lowerAscii) = true := by
  refine matchesBeforeEnd_map (fun t ht => ?_) h
  rw [labelBody_iff] at ht ⊢
  exact ht.lower

theorem localRe_lower {s : Text} (h : Python.localRe s = true) :
    Python.localRe (s.map Python.lowerAscii) = true := by
  refine matchesBeforeEnd_map (fun t ht => ?_) h
  simp only [Bool.and_eq_true, List.length_map, List.all_eq_true, Bool.or_eq_true] at ht ⊢
  refine ⟨ht.1, fun c hc => ?_⟩
  obtain ⟨d, hd, rfl⟩ := List.mem_map.mp hc
  rcases ht.2 d hd with ((h | h) | h) | h
  · exact .inl (.inl (.inl (isAlnum_lowerAscii h)))
  · rw [beq_iff_eq.mp h]
    exact .inl (.inl (.inr rfl))
  · rw [beq_iff_eq.mp h]
    exact .inl (.inr rfl)
  · rw [beq_iff_eq.mp h]
    exact .inr rfl

/-- A character other than the separator goes to the last label. -/
theorem splitOn_concat (D : Text) {c : CodePoint} (hc : c ≠ 46) :
    ∃ ls l, D.splitOn 46 = ls ++ [l] ∧ (D ++ [c]).splitOn 46 = ls ++ [l ++ [c]] := by
  induction D with
  | nil =>
    refine ⟨[], [], List.splitOn_eq_singleton (by simp), List.splitOn_eq_singleton ?_⟩
    simpa using fun h => hc h.symm
  | cons d D ih =>
    obtain ⟨ls, l, h, h'⟩ := ih
    rw [List.cons_append, List.splitOn_cons_eq_if_modifyHead, List.splitOn_cons_eq_if_modifyHead,
      h, h']
    split_ifs
    · exact ⟨[] :: ls, l, rfl, rfl⟩
    · cases ls with
      | nil => exact ⟨[], d :: l, rfl, rfl⟩
      | cons l₀ ls => exact ⟨(d :: l₀) :: ls, l, rfl, rfl⟩

theorem labelRe_ne_nil {s : Text} (h : Python.labelRe s = true) : s ≠ [] := by
  rintro rfl
  exact absurd h (by decide)

theorem labelRe_head {c : CodePoint} {s : Text} (h : Python.labelRe (c :: s) = true) :
    Python.isAlnum c = true := by
  rcases labelRe_iff.mp h with hb | ⟨t, ht, hb⟩
  · exact hb.head c rfl
  · cases t with
    | nil => cases hb.pos
    | cons d t =>
      rw [(List.cons.inj ht).1]
      exact hb.head d rfl

/-- A domain whose labels match begins with a letter or digit. -/
theorem domain_head {c : CodePoint} {D : Text}
    (h : ∀ label ∈ (c :: D).splitOn 46, Python.labelRe label = true) : Python.isAlnum c = true := by
  rw [List.splitOn_cons_eq_if_modifyHead] at h
  obtain ⟨l, ls, hls⟩ := List.exists_cons_of_ne_nil (List.splitOn_ne_nil 46 D)
  rw [hls] at h
  split_ifs at h
  · exact absurd rfl (labelRe_ne_nil (h [] List.mem_cons_self))
  · exact labelRe_head (h (c :: l) List.mem_cons_self)

/-- The last label holds the last character. -/
theorem getLast?_of_splitOn {D u : Text} {ls : List Text} {d : CodePoint}
    (h : D.splitOn 46 = ls ++ [u ++ [d]]) : D.getLast? = some d := by
  have hends : ∀ {ls' : List Text} {l : Text}, D.splitOn 46 = ls' ++ [l] → l = u ++ [d] :=
    fun h' => (List.cons.inj (List.append_inj' (h'.symm.trans h) rfl).2).1
  rcases List.eq_nil_or_concat' D with rfl | ⟨D', c, rfl⟩
  · have hnil : List.splitOn 46 ([] : Text) = [] ++ [[]] := List.splitOn_eq_singleton (by simp)
    exact absurd (hends hnil) (by simp)
  · by_cases hc : c = 46
    · subst hc
      have hdot : List.splitOn 46 (D' ++ [46]) = List.splitOn 46 D' ++ [[]] :=
        List.splitOn_append_cons_self _ _
      exact absurd (hends hdot) (by simp)
    · obtain ⟨ls', l, -, hl⟩ := splitOn_concat D' hc
      rw [List.getLast?_concat, (List.cons.inj (List.append_inj' (hends hl) rfl).2).1]

/-- It ends with a letter or digit, up to one newline. -/
theorem domain_last {c : CodePoint} {D : Text}
    (h : ∀ label ∈ (D ++ [c]).splitOn 46, Python.labelRe label = true) :
    Python.isAlnum c = true ∨ c = 10 ∧ (∃ d, D.getLast? = some d ∧ Python.isAlnum d = true) ∧
      ∀ label ∈ D.splitOn 46, Python.labelRe label = true := by
  have hdot : c ≠ 46 := by
    rintro rfl
    rw [List.splitOn_append_cons_self] at h
    exact labelRe_ne_nil (h [] (List.mem_append_right _ (List.mem_singleton.mpr rfl))) rfl
  obtain ⟨ls, l, hl, hlc⟩ := splitOn_concat D hdot
  rw [hlc] at h
  rcases labelRe_iff.mp (h _ (List.mem_append_right _ (List.mem_singleton.mpr rfl))) with
    hb | ⟨t, ht, hb⟩
  · exact .inl (hb.last c List.getLast?_concat)
  · obtain ⟨rfl, hc⟩ := List.append_inj' ht rfl
    refine .inr ⟨(List.cons.inj hc).1, ?_, fun label hmem => ?_⟩
    · rcases List.eq_nil_or_concat' l with rfl | ⟨u, d, rfl⟩
      · cases hb.pos
      · exact ⟨d, getLast?_of_splitOn hl, hb.last d List.getLast?_concat⟩
    · rw [hl] at hmem
      rcases List.mem_append.mp hmem with hmem | hmem
      · exact h label (List.mem_append_left _ hmem)
      · rw [List.mem_singleton.mp hmem]
        exact labelRe_iff.mpr (.inl hb)

theorem strip_of_ends {D : Text} {c d : CodePoint} (hc : D.head? = some c)
    (hd : D.getLast? = some d)
    (hhead : Python.isSpace c = false) (hlast : Python.isSpace d = false) : Python.strip D = D := by
  obtain ⟨t, rfl⟩ := List.head?_eq_some_iff.mp hc
  rw [Python.strip, List.dropWhile_cons_of_neg (by simp [hhead])]
  obtain ⟨u, hu⟩ := List.getLast?_eq_some_iff.mp hd
  rw [hu, List.reverse_concat, List.dropWhile_cons_of_neg (by simp [hlast]), List.reverse_cons,
    List.reverse_reverse]

theorem strip_newline {D : Text} {c d : CodePoint} (hc : D.head? = some c)
    (hd : D.getLast? = some d) (hhead : Python.isSpace c = false)
    (hlast : Python.isSpace d = false) : Python.strip (D ++ [10]) = D := by
  obtain ⟨t, rfl⟩ := List.head?_eq_some_iff.mp hc
  have hspace : Python.isSpace 10 = true := by decide
  rw [Python.strip, List.cons_append, List.dropWhile_cons_of_neg (by simp [hhead]),
    ← List.cons_append, List.reverse_concat, List.dropWhile_cons_of_pos hspace]
  obtain ⟨u, hu⟩ := List.getLast?_eq_some_iff.mp hd
  rw [hu, List.reverse_concat, List.dropWhile_cons_of_neg (by simp [hlast]), List.reverse_cons,
    List.reverse_reverse]

theorem rstripDot_of_last {D : Text} {d : CodePoint} (hd : D.getLast? = some d)
    (hlast : Python.isAlnum d = true) : Python.rstripDot D = D := by
  obtain ⟨u, rfl⟩ := List.getLast?_eq_some_iff.mp hd
  have hdot : ¬ (d == 46) = true := by
    rw [beq_iff_eq]
    rintro rfl
    exact absurd hlast (by decide)
  rw [Python.rstripDot, List.reverse_concat, List.dropWhile_cons_of_neg (p := (· == 46)) hdot,
    List.reverse_cons, List.reverse_reverse]

/-- What `_validate_domain` returns, it accepts. -/
theorem validateDomain_again {G : Python.Runtime} {value D : Text}
    (h : Python.validateDomain G value = .ok D) : ∃ E, Python.validateDomain G D = .ok E := by
  have hchars := validateDomain_chars h
  simp only [Python.validateDomain, guard_eq_ok] at h
  obtain ⟨hrange, h⟩ := h
  split at h
  · exact (throw_eq_ok.mp h).elim
  next hfind =>
  rw [pure_eq_ok.mp h] at hrange hfind
  have hlabels : ∀ label ∈ D.splitOn 46, Python.labelRe label = true := by
    intro label hl
    simpa using List.find?_eq_none.mp hfind label hl
  obtain ⟨hne, hlen⟩ := not_or.mp hrange
  obtain ⟨c, t, rfl⟩ := List.exists_cons_of_ne_nil hne
  have hc := domain_head hlabels
  -- the labels of the text without the newline that stripping removes
  obtain ⟨E, d, hstrip, hd, hdn, hE, hmem, hlenE⟩ : ∃ E d, Python.strip (c :: t) = E ∧
      E.getLast? = some d ∧ Python.isAlnum d = true ∧
      (∀ label ∈ E.splitOn 46, Python.labelRe label = true) ∧ (∀ x ∈ E, x ∈ c :: t) ∧
      E.length ≤ 253 := by
    rcases List.eq_nil_or_concat' (c :: t) with hnil | ⟨u, d, hu⟩
    · cases hnil
    rw [hu] at hlabels hlen ⊢
    rcases domain_last hlabels with hd | ⟨rfl, ⟨d, hd, hdn⟩, hlabels'⟩
    · refine ⟨u ++ [d], d, strip_of_ends ?_ List.getLast?_concat (not_space (.inl hc))
        (not_space (.inl hd)), List.getLast?_concat, hd, hlabels, fun x hx => hx, by omega⟩
      rw [← hu]
      rfl
    · have hhead : u.head? = some c := by
        cases u with
        | nil => cases hd
        | cons x u => rw [(List.cons.inj hu).1, List.head?_cons]
      refine ⟨u, d, strip_newline hhead hd (not_space (.inl hc)) (not_space (.inl hdn)), hd, hdn,
        hlabels', fun x hx => List.mem_append_left _ hx, ?_⟩
      rw [List.length_append] at hlen
      omega
  have hascii : ∀ x ∈ E, x.IsAscii := by
    intro x hx
    rcases hchars x (hmem x hx) with h | rfl | rfl | rfl
    · exact isAlnum_ascii h
    all_goals decide
  have hlower : G.lower E = E.map Python.lowerAscii := by
    rw [Python.Runtime.lower,
      if_pos (List.all_eq_true.mpr fun x hx => decide_eq_true (hascii x hx))]
  have hfind' : ((E.map Python.lowerAscii).splitOn 46).find?
      (fun label => !Python.labelRe label) = none := by
    refine List.find?_eq_none.mpr fun label hl => ?_
    rw [splitOn_map fun x hx => lowerAscii_eq_dot (hascii x hx)] at hl
    obtain ⟨part, hp, rfl⟩ := List.mem_map.mp hl
    simpa using labelRe_lower (hE part hp)
  have hrange' : ¬ (E.map Python.lowerAscii = [] ∨ 253 < (E.map Python.lowerAscii).length) := by
    rw [List.length_map, List.map_eq_nil_iff]
    rintro (rfl | h)
    · cases hd
    · omega
  refine ⟨E.map Python.lowerAscii, ?_⟩
  rw [Python.validateDomain, hstrip, rstripDot_of_last hd hdn, hlower, if_neg hrange', hfind']
  rfl

/-- A canonical Shadowname splits. -/
theorem splitShadowname_again {G : Python.Runtime} {value name : Text}
    (h : Python.validateShadowname G value = .ok name) :
    ∃ parts, Python.splitShadowname G name = .ok parts := by
  simp only [Python.validateShadowname, guard_eq_ok, bind_eq_ok, pure_eq_ok, not_not] at h
  obtain ⟨-, hre, D, hD, rfl⟩ := h
  obtain ⟨E, hE⟩ := validateDomain_again hD
  generalize (Python.partitionAt value).1 = loc at hre
  rw [lower_of_localRe G hre]
  have hat := not_mem_lowerAscii (localRe_ascii hre) (at_not_mem_local hre)
  have hname : Python.isShadowname (loc.map Python.lowerAscii ++ 64 :: D) = true := by
    simp [Python.isShadowname]
  refine ⟨Python.partitionAt (G.lower (loc.map Python.lowerAscii) ++ 64 :: E), ?_⟩
  simp only [Python.splitShadowname, Python.validateShadowname, bind_eq_ok, guard_eq_ok, pure_eq_ok,
    partitionAt_of_not_mem hat, not_not]
  exact ⟨_, ⟨hname, localRe_lower hre, E, hE, rfl⟩, rfl⟩

end Shadownet.Interop
