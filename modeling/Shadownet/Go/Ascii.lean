import Shadownet.Go.Identifiers

/-!
# ASCII characters in Go strings

An ASCII byte of a string is always a code point of its own, whatever stands around it
(`mem_runes_of_ascii`). So a domain has no `@` (`at_not_mem_domain`), and the three forms of
identifiers exclude each other.
-/

namespace Shadownet.Go

open Foundation

theorem ascii_of_mem_utf8Char {c : CodePoint} {b : UInt8} (hb : b.toNat < 0x80)
    (h : b ∈ utf8Char c) : c.val = b.toNat := by
  have hval : c.val < 0x110000 := c.isLt
  rw [utf8Char] at h
  split_ifs at h with h1 h2 h3
  · rw [List.mem_singleton.mp h, toNat_ofNat_of_lt (by omega)]
  all_goals
    simp only [List.mem_cons, List.not_mem_nil, or_false] at h
    rcases h with rfl | h
    · rw [toNat_ofNat_of_lt (by omega)] at hb
      omega
  · rw [h, toNat_ofNat_of_lt (by omega)] at hb
    omega
  · rcases h with rfl | rfl <;> rw [toNat_ofNat_of_lt (by omega)] at hb <;> omega
  · rcases h with rfl | rfl | rfl <;> rw [toNat_ofNat_of_lt (by omega)] at hb <;> omega

theorem utf8Next_ascii {b : UInt8} (hb : b.toNat < 0x80) (bs : Bytes) :
    ∃ c, utf8Next (b :: bs) = some (c, bs) ∧ c.val = b.toNat := by
  have hlt : b.toNat < 0x110000 := by omega
  refine ⟨⟨b.toNat, hlt⟩, ?_, rfl⟩
  have hs : ¬ CodePoint.IsSurrogate ⟨b.toNat, hlt⟩ := by
    rintro ⟨hlow, -⟩
    have : 0xD800 ≤ b.toNat := hlow
    omega
  rw [utf8Next, if_pos hb, utf8Multi, contRun, Option.bind_some, scalarFrom, dif_pos hlt,
    if_pos ⟨Nat.zero_le _, hs⟩]
  rfl

/-- What one step of ranging over a string takes. -/
theorem nextRune_cases (b : UInt8) (bs : Bytes) :
    (∃ c rest, nextRune b bs = (c, rest) ∧ b :: bs = utf8Char c ++ rest) ∨
      (0x80 ≤ b.toNat ∧ nextRune b bs = (0xFFFD, bs)) := by
  rw [nextRune]
  cases h : utf8Next (b :: bs) with
  | some r => exact .inl ⟨r.1, r.2, rfl, (utf8Next_eq_some h).1⟩
  | none =>
    refine .inr ⟨?_, rfl⟩
    by_contra hb
    obtain ⟨c, hc, -⟩ := utf8Next_ascii (b := b) (by omega) bs
    rw [hc] at h
    cases h

/-- An ASCII byte is a code point of the string. -/
theorem mem_segments_of_ascii {s : Bytes} {b : UInt8} (hb : b.toNat < 0x80) (h : b ∈ s) :
    ∃ p ∈ segments s, p.1.val = b.toNat := by
  rw [segments]
  obtain ⟨fuel, hfuel, heq⟩ : ∃ fuel, s.length ≤ fuel ∧ s.length = fuel := ⟨_, le_rfl, rfl⟩
  rw [heq]
  clear heq
  induction fuel generalizing s with
  | zero =>
    rw [List.length_eq_zero_iff.mp (Nat.le_zero.mp hfuel)] at h
    cases h
  | succ fuel ih =>
    cases s with
    | nil => cases h
    | cons a s =>
      rw [segmentsFuel]
      rcases nextRune_cases a s with ⟨c, rest, hnext, heq⟩ | ⟨ha, hnext⟩
      · rw [hnext]
        rw [heq] at h
        rcases List.mem_append.mp h with h | h
        · exact ⟨_, List.mem_cons_self, ascii_of_mem_utf8Char hb h⟩
        · have hlen : rest.length ≤ fuel := by
            have hc := List.length_pos_iff.mpr (utf8Char_ne_nil c)
            have := congrArg List.length heq
            rw [List.length_append, List.length_cons] at this
            rw [List.length_cons] at hfuel
            omega
          obtain ⟨p, hp, hval⟩ := ih h hlen
          exact ⟨p, List.mem_cons_of_mem _ hp, hval⟩
      · rw [hnext]
        rcases List.mem_cons.mp h with rfl | h
        · omega
        · obtain ⟨p, hp, hval⟩ := ih h (by simpa using hfuel)
          exact ⟨p, List.mem_cons_of_mem _ hp, hval⟩

/-! ## Domains -/

/-- The code points of an accepted label. -/
theorem labelLoop_runes {G : Runtime} {label : Bytes} {n i : Nat} {ps : List (CodePoint × Bytes)}
    (h : labelLoop G label n i ps = .ok ()) :
    ∀ p ∈ ps, isAlnum p.1.val = true ∨ p.1.val = 45 ∨ ¬ p.1.IsAscii := by
  induction ps generalizing i with
  | nil => simp
  | cons p ps ih =>
    rw [labelLoop] at h
    refine List.forall_mem_cons.mpr ?_
    split_ifs at h with h1 h2 h3 h4
    · exact ⟨.inl h1, ih h⟩
    · exact ⟨.inr (.inl h2), ih h⟩
    · exact ⟨.inr (.inr h4.1), ih h⟩

theorem mem_splitOn_of_ne {s : Bytes} {b sep : UInt8} (hb : b ≠ sep) (h : b ∈ s) :
    ∃ part ∈ s.splitOn sep, b ∈ part := by
  induction s with
  | nil => cases h
  | cons a s ih =>
    rw [List.splitOn_cons_eq_if_modifyHead]
    obtain ⟨l, ls, hls⟩ := List.exists_cons_of_ne_nil (List.splitOn_ne_nil sep s)
    split_ifs with ha
    · rcases List.mem_cons.mp h with rfl | h
      · exact absurd (beq_iff_eq.mp ha) hb
      · obtain ⟨part, hp, hin⟩ := ih h
        exact ⟨part, List.mem_cons_of_mem _ hp, hin⟩
    · rw [hls, List.modifyHead_cons]
      rcases List.mem_cons.mp h with rfl | h
      · exact ⟨_, List.mem_cons_self, List.mem_cons_self⟩
      · obtain ⟨part, hp, hin⟩ := ih h
        rw [hls] at hp
        rcases List.mem_cons.mp hp with rfl | hp
        · exact ⟨_, List.mem_cons_self, List.mem_cons_of_mem _ hin⟩
        · exact ⟨part, List.mem_cons_of_mem _ hp, hin⟩

theorem mem_trimDot_of_ne {s : Bytes} {b : UInt8} (hb : b ≠ 0x2E) (h : b ∈ s) : b ∈ trimDot s := by
  rw [trimDot]
  split_ifs with hdot
  · obtain ⟨t, rfl⟩ := List.getLast?_eq_some_iff.mp hdot
    rw [List.dropLast_concat]
    rcases List.mem_append.mp h with h | h
    · exact h
    · exact absurd (List.mem_singleton.mp h) hb
  · exact h

/-- The ASCII bytes of a domain. -/
theorem ascii_of_mem_domain {G : Runtime} {s : Bytes} (h : validateDomain G s = .ok ())
    {b : UInt8} (hb : b.toNat < 0x80) (hin : b ∈ s) :
    isAlnum b.toNat = true ∨ b = 0x2D ∨ b = 0x2E := by
  by_cases hdot : b = 0x2E
  · exact .inr (.inr hdot)
  rw [validateDomain, guard_eq_ok] at h
  obtain ⟨label, hl, hlabel⟩ := mem_splitOn_of_ne hdot (mem_trimDot_of_ne hdot hin)
  have hok := forM_eq_ok.mp h.2 label hl
  rw [validateDomainLabel, guard_eq_ok] at hok
  obtain ⟨p, hp, hval⟩ := mem_segments_of_ascii hb hlabel
  rcases labelLoop_runes hok.2 p hp with h | h | h
  · exact .inl (hval ▸ h)
  · exact .inr (.inl (UInt8.toNat_inj.mp (hval.symm.trans h)))
  · exact absurd (show p.1.val < 0x80 by omega) h

/-- A domain has no `@`. -/
theorem at_not_mem_domain {G : Runtime} {s : Bytes} (h : validateDomain G s = .ok ()) :
    (0x40 : UInt8) ∉ s := by
  intro hin
  rcases ascii_of_mem_domain h (by decide) hin with h | h | h <;> exact absurd h (by decide)

/-! ## Keys -/

theorem alphabet_of_decodeLoop {G : Runtime} {s out out' : Bytes} {i : Nat}
    (h : b58DecodeLoop G i out s = .ok out') : ∀ b ∈ s, b ∈ b58Alphabet := by
  induction s generalizing i out with
  | nil => simp
  | cons b s ih =>
    rw [b58DecodeLoop] at h
    cases hi : b58Index b with
    | none =>
      rw [hi] at h
      cases h
    | some v =>
      rw [hi] at h
      refine List.forall_mem_cons.mpr ⟨?_, ih h⟩
      simp only [b58Index] at hi
      split_ifs at hi with hlt
      exact List.idxOf_lt_length_iff.mp (Nat.lt_of_lt_of_eq hlt (by decide))

theorem alphabet_of_b58decode {G : Runtime} {s raw : Bytes} (h : b58decode G s = .ok raw) :
    ∀ b ∈ s, b ∈ b58Alphabet := by
  simp only [b58decode, bind_eq_ok, pure_eq_ok] at h
  obtain ⟨out, hloop, -⟩ := h
  rw [← List.prefix_iff_eq_append.mp (List.takeWhile_prefix (p := (· == 0x31)) (l := s))]
  refine List.forall_mem_append.mpr ⟨fun b hb => ?_, alphabet_of_decodeLoop hloop⟩
  have hone : b = 0x31 := by simpa using List.all_eq_true.mp List.all_takeWhile b hb
  rw [hone]
  decide

/-- The characters of a public key identifier. -/
theorem alphabet_of_decodePubKey {G : Runtime} {s raw : Bytes} (h : decodePubKey G s = .ok raw) :
    ∀ b ∈ s, b ∈ b58Alphabet := by
  simp only [decodePubKey, guard_eq_ok, bind_eq_ok, mapError_eq_ok, not_not] at h
  obtain ⟨hp, dec, hdec, -⟩ := h
  obtain ⟨r, rfl⟩ := List.isPrefixOf_iff_prefix.mp hp
  refine List.forall_mem_cons.mpr ⟨by decide, ?_⟩
  exact alphabet_of_b58decode hdec

theorem alphabet_ascii {b : UInt8} (h : b ∈ b58Alphabet) : b.toNat < 0x80 := by
  have hall : (b58Alphabet.all fun b => b.toNat < 0x80) = true := by decide
  simpa using List.all_eq_true.mp hall b h

/-! ## The forms -/

theorem at_mem_of_shadowname {G : Runtime} {s : Bytes} (h : classify G s = .shadowname) :
    (0x40 : UInt8) ∈ s := by
  rw [classify] at h
  split_ifs at h with h1
  exact List.contains_iff_mem.mp h1

theorem validateDomain_of_classify {G : Runtime} {s : Bytes} (h : classify G s = .domain) :
    validateDomain G s = .ok () := by
  rw [classify] at h
  split_ifs at h with h1 h2 h3 h4 h5
  obtain ⟨⟨⟩, hok⟩ := isOk_iff.mp h5
  exact hok

/-- The canonical form of a string that has one. -/
theorem canonicalDomain_ok_iff {G : Runtime} {s c : Bytes} :
    canonicalDomain G s = .ok c ↔ validateDomain G s = .ok () ∧ G.lower (trimDot s) = c := by
  simp only [canonicalDomain, bind_eq_ok, pure_eq_ok]
  constructor
  · rintro ⟨⟨⟩, hv, hc⟩
    exact ⟨hv, hc⟩
  · rintro ⟨hv, hc⟩
    exact ⟨(), hv, hc⟩

/-- A Shadowname has no canonical form as a domain. -/
theorem canonicalDomain_of_shadowname {G : Runtime} {s : Bytes}
    (h : classify G s = .shadowname) : ∃ e, canonicalDomain G s = .error e := by
  cases hc : canonicalDomain G s with
  | error e => exact ⟨e, rfl⟩
  | ok c =>
    exact absurd (at_mem_of_shadowname h) (at_not_mem_domain (canonicalDomain_ok_iff.mp hc).1)

end Shadownet.Go
