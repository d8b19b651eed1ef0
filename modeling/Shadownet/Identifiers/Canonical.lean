import Shadownet.Identifiers.Domains

/-!
# Canonical forms in the Go code

`CanonicalDomain` and `CanonicalShadowname` check the string they are given and return another
one, its lower case. Lower-casing keeps every rule of the grammar but the limits on bytes: a
letter beyond ASCII can have a longer lower case. And `CanonicalShadowname` keeps the dot at the
end of the provider, which `CanonicalDomain` trims.

* `canonical_forms`: when the canonical forms are valid, stable and complete.
-/

namespace Shadownet.Identifiers

open Foundation Go

/-- What the code relies on in the tables of `unicode`: lower-casing takes a letter or digit to
one, is idempotent there, and surrogates are no letters. -/
structure UnicodeTables (G : Go.Runtime) : Prop where
  lower_letter : ∀ r : CodePoint, ¬ r.IsAscii → G.isLetterOrDigit r = true →
    isAlnum (G.toLower r).val = true ∨
      (¬ (G.toLower r).IsAscii ∧ G.isLetterOrDigit (G.toLower r) = true)
  lower_idem : ∀ r : CodePoint, ¬ r.IsAscii → G.isLetterOrDigit r = true →
    G.lowerRune (G.toLower r) = G.toLower r
  surrogate : ∀ r : CodePoint, r.IsSurrogate → G.isLetterOrDigit r = false

variable {G : Go.Runtime}

/-! ## Lower case of a label -/

theorem isAlnum_lt {n : Nat} (h : isAlnum n = true) : n < 0x80 := by
  simp only [isAlnum, Bool.or_eq_true, Bool.and_eq_true, decide_eq_true_eq] at h
  omega

theorem lowerRune_of_ascii {r : CodePoint} (h : r.IsAscii) : G.lowerRune r = lowerLetter r :=
  Interop.lowerRune_ascii G h

theorem lowerRune_of_not_ascii {r : CodePoint} (h : ¬ r.IsAscii) : G.lowerRune r = G.toLower r := by
  have hval : ¬ r.val < 0x80 := h
  rw [Runtime.lowerRune, if_neg (by omega), if_neg h]

theorem lowerLetter_ascii {r : CodePoint} (h : r.IsAscii) : (lowerLetter r).IsAscii :=
  Interop.lowerAscii_isAscii h

theorem lowerLetter_idem (r : CodePoint) : lowerLetter (lowerLetter r) = lowerLetter r :=
  Interop.lowerAscii_idem r

theorem LabelRune.ascii_or {r : CodePoint} (h : LabelRune G r) :
    r.IsAscii ∨ (¬ r.IsAscii ∧ G.isLetterOrDigit r = true) := by
  rcases h with h | h | h
  · exact .inl (isAlnum_lt h)
  · exact .inl (show r.val < 0x80 by omega)
  · exact .inr h

namespace UnicodeTables

variable (hG : UnicodeTables G)
include hG

theorem labelRune {r : CodePoint} (h : LabelRune G r) : LabelRune G (G.lowerRune r) := by
  rcases h.ascii_or with ha | ⟨hna, hl⟩
  · rw [lowerRune_of_ascii ha]
    exact labelRune_lowerLetter.mpr h
  · rw [lowerRune_of_not_ascii hna]
    exact (hG.lower_letter r hna hl).imp id .inr

theorem lowerRune_idem {r : CodePoint} (h : LabelRune G r) :
    G.lowerRune (G.lowerRune r) = G.lowerRune r := by
  rcases h.ascii_or with ha | ⟨hna, hl⟩
  · rw [lowerRune_of_ascii ha, lowerRune_of_ascii (lowerLetter_ascii ha), lowerLetter_idem]
  · rw [lowerRune_of_not_ascii hna, hG.lower_idem r hna hl]

theorem lowerRune_eq_hyphen {r : CodePoint} (h : LabelRune G r) : G.lowerRune r = 45 ↔ r = 45 := by
  rcases h.ascii_or with ha | ⟨hna, hl⟩
  · rw [lowerRune_of_ascii ha, lowerLetter_eq_hyphen]
  · have hleft : G.toLower r ≠ 45 := by
      intro h45
      rcases hG.lower_letter r hna hl with h | ⟨h, -⟩ <;> rw [h45] at h <;>
        exact absurd h (by decide)
    have hright : r ≠ 45 := by
      rintro rfl
      exact hna (by decide)
    rw [lowerRune_of_not_ascii hna]
    exact iff_of_false hleft hright

theorem not_surrogate {r : CodePoint} (h : LabelRune G r) : ¬ r.IsSurrogate := by
  intro hs
  rcases h.ascii_or with ha | ⟨-, hl⟩
  · have hlow : r.val < 0x80 := ha
    have hhigh : 0xD800 ≤ r.val := hs.1
    omega
  · rw [hG.surrogate r hs] at hl
    cases hl

/-- The code points of a lower-case label. -/
theorem runes_lower {l : Bytes} (h : ∀ r ∈ runes l, LabelRune G r) :
    runes (G.lower l) = (runes l).map G.lowerRune := by
  refine Interop.runes_utf8 fun r hr => ?_
  obtain ⟨q, hq, rfl⟩ := List.mem_map.mp hr
  exact hG.not_surrogate (hG.labelRune (h q hq))

theorem lower_lower {l : Bytes} (h : ∀ r ∈ runes l, LabelRune G r) :
    G.lower (G.lower l) = G.lower l := by
  rw [Runtime.lower, hG.runes_lower h, List.map_map, Runtime.lower]
  exact congrArg utf8 (List.map_congr_left fun r hr => hG.lowerRune_idem (h r hr))

/-- A lower-case label keeps every rule but the limit on its bytes. -/
theorem validateDomainLabel_lower {l : Bytes} (h : validateDomainLabel G l = .ok ()) :
    validateDomainLabel G (G.lower l) = .ok () ↔ (G.lower l).length ≤ 63 := by
  obtain ⟨hpos, -, hrunes, hhead, hlast⟩ := validateDomainLabel_iff.mp h
  refine ⟨fun h' => (validateDomainLabel_iff.mp h').2.1, fun hlen => ?_⟩
  have hne : runes (G.lower l) ≠ [] := by
    rw [hG.runes_lower hrunes, Ne, List.map_eq_nil_iff, runes_eq_nil]
    exact label_ne_nil h
  refine validateDomainLabel_iff.mpr ⟨?_, hlen, ?_, ?_, ?_⟩
  · exact List.length_pos_iff.mpr fun h0 => hne (runes_eq_nil.mpr h0)
  · rw [hG.runes_lower hrunes, List.forall_mem_map]
    exact fun r hr => hG.labelRune (hrunes r hr)
  · rw [hG.runes_lower hrunes, List.head?_map, Ne, Option.map_eq_some_iff]
    rintro ⟨r, hr, h45⟩
    rw [hG.lowerRune_eq_hyphen (hrunes r (List.mem_of_mem_head? hr))] at h45
    exact hhead (h45 ▸ hr)
  · rw [hG.runes_lower hrunes, List.getLast?_map, Ne, Option.map_eq_some_iff]
    rintro ⟨r, hr, h45⟩
    rw [hG.lowerRune_eq_hyphen (hrunes r (List.mem_of_mem_getLast? hr))] at h45
    exact hlast (h45 ▸ hr)

/-- Lower-casing makes no dots. -/
theorem dot_not_mem_lower {l : Bytes} (h : ∀ r ∈ runes l, LabelRune G r) :
    (0x2E : UInt8) ∉ G.lower l := by
  intro hin
  obtain ⟨c, hc, hmem⟩ := List.mem_flatMap.mp hin
  obtain ⟨r, hr, rfl⟩ := List.mem_map.mp hc
  have hval : (G.lowerRune r).val = 0x2E := ascii_of_mem_utf8Char (by decide) hmem
  rcases hG.labelRune (h r hr) with h1 | h1 | h1
  · rw [hval] at h1
    exact absurd h1 (by decide)
  · omega
  · exact h1.1 (show (G.lowerRune r).val < 0x80 by omega)

end UnicodeTables

/-! ## Lower case of a domain -/

theorem lower_append_dot (G : Go.Runtime) (s t : Bytes) :
    G.lower (s ++ 0x2E :: t) = G.lower s ++ 0x2E :: G.lower t := by
  have hdot : G.lowerRune (Fin.ofNat _ (0x2E : UInt8).toNat) = 46 := by
    rw [lowerRune_of_ascii (by decide)]
    decide
  rw [Runtime.lower, runes_append_ascii (by decide), List.map_append, List.map_cons, utf8_append,
    hdot, utf8_cons_ascii (by decide)]
  rfl

theorem lower_intercalate (G : Go.Runtime) (ls : List Bytes) :
    G.lower ([0x2E].intercalate ls) = [0x2E].intercalate (ls.map G.lower) := by
  induction ls with
  | nil => rfl
  | cons l ls ih =>
    by_cases hls : ls = []
    · subst hls
      rw [List.intercalate_singleton, List.map_singleton, List.intercalate_singleton]
    · have hmap : ls.map G.lower ≠ [] := by simpa using hls
      rw [List.intercalate_cons_of_ne_nil hls, List.map_cons, List.intercalate_cons_of_ne_nil hmap,
        ← ih, List.append_assoc, List.append_assoc]
      exact lower_append_dot G l _

theorem trimDot_lower_concat (s : Bytes) : trimDot (G.lower (s ++ [0x2E])) = G.lower s := by
  rw [lower_append_dot]
  exact trimDot_concat _

/-- The bytes of a string in lower case, summed over its characters. -/
def lowerSize (G : Go.Runtime) (s : Bytes) : Nat :=
  ((runes s).map fun r => (utf8Char (G.lowerRune r)).length).sum

theorem length_lower (G : Go.Runtime) (s : Bytes) : (G.lower s).length = lowerSize G s := by
  rw [Runtime.lower, utf8, List.length_flatMap, List.map_map, lowerSize]
  rfl

/-- The limits of the grammar hold for the lower-case letters of a domain. -/
def LowerFits (G : Go.Runtime) (s : Bytes) : Prop :=
  lowerSize G (trimDot s) ≤ 253 ∧ ∀ l ∈ splitDots (trimDot s), lowerSize G l ≤ 63

namespace UnicodeTables

variable (hG : UnicodeTables G)
include hG

theorem splitDots_lower {s : Bytes} (h : validateDomain G s = .ok ()) :
    splitDots (G.lower (trimDot s)) = (splitDots (trimDot s)).map G.lower := by
  have hlabels := (validateDomain_iff.mp h).2
  have hjoin : [0x2E].intercalate (splitDots (trimDot s)) = trimDot s := by
    rw [splitDots, List.intercalate_splitOn]
  conv_lhs => rw [← hjoin, lower_intercalate]
  refine List.splitOn_intercalate _ (fun l hl => ?_) (by simp [splitDots])
  obtain ⟨m, hm, rfl⟩ := List.mem_map.mp hl
  exact hG.dot_not_mem_lower (validateDomainLabel_iff.mp (hlabels m hm)).2.2.1

theorem label_lower_ne_nil {s : Bytes} (h : validateDomain G s = .ok ()) :
    ∀ l ∈ splitDots (G.lower (trimDot s)), l ≠ [] := by
  rw [hG.splitDots_lower h, List.forall_mem_map]
  intro l hl
  have hlabel := (validateDomain_iff.mp h).2 l hl
  rw [← runes_eq_nil.ne, hG.runes_lower (validateDomainLabel_iff.mp hlabel).2.2.1, Ne,
    List.map_eq_nil_iff, runes_eq_nil]
  exact label_ne_nil hlabel

/-- Trimming the dot and lower-casing commute. -/
theorem trimDot_lower {s : Bytes} (h : validateDomain G s = .ok ()) :
    trimDot (G.lower s) = G.lower (trimDot s) := by
  rcases eq_trimDot s with hs | hs
  · rw [← hs]
    rw [hs]
    exact trimDot_of_getLast? (getLast?_ne_of_splitOn (hG.label_lower_ne_nil h))
  · conv_lhs => rw [hs]
    exact trimDot_lower_concat _

/-- When the lower-case form of a domain is a domain. -/
theorem validateDomain_lower {s : Bytes} (h : validateDomain G s = .ok ()) :
    validateDomain G (G.lower s) = .ok () ↔ LowerFits G s := by
  rw [validateDomain_iff, hG.trimDot_lower h, hG.splitDots_lower h, List.forall_mem_map,
    length_lower, LowerFits]
  refine and_congr_right fun _ => forall₂_congr fun l hl => ?_
  rw [hG.validateDomainLabel_lower ((validateDomain_iff.mp h).2 l hl), length_lower]

theorem domain_lower_lower {s : Bytes} (h : validateDomain G s = .ok ()) :
    G.lower (G.lower (trimDot s)) = G.lower (trimDot s) := by
  have hlabels := (validateDomain_iff.mp h).2
  have hjoin : [0x2E].intercalate (splitDots (trimDot s)) = trimDot s := by
    rw [splitDots, List.intercalate_splitOn]
  have hlower : ∀ l ∈ splitDots (trimDot s), (G.lower ∘ G.lower) l = G.lower l := by
    intro l hl
    rw [Function.comp_apply, hG.lower_lower (validateDomainLabel_iff.mp (hlabels l hl)).2.2.1]
  rw [← hjoin, lower_intercalate, lower_intercalate, List.map_map, List.map_congr_left hlower]

theorem provider_lower_lower {s : Bytes} (h : validateDomain G s = .ok ()) :
    G.lower (G.lower s) = G.lower s := by
  rcases eq_trimDot s with hs | hs
  · rw [hs]
    exact hG.domain_lower_lower h
  · rw [hs, lower_append_dot, lower_append_dot, hG.domain_lower_lower h]
    rfl

end UnicodeTables

/-! ## Domains -/

/-- The canonical form of a domain is a domain and its own canonical form. -/
def StableDomain (G : Go.Runtime) (s : Bytes) : Prop :=
  ∀ c, canonicalDomain G s = .ok c → validateDomain G c = .ok () ∧ canonicalDomain G c = .ok c

theorem trimDot_trimDot {s : Bytes} (h : validateDomain G s = .ok ()) :
    trimDot (trimDot s) = trimDot s := trimDot_of_getLast? (getLast?_trimDot h)

theorem validateDomain_trimDot {s : Bytes} (h : validateDomain G s = .ok ()) :
    validateDomain G (trimDot s) = .ok () := by
  rw [validateDomain_iff, trimDot_trimDot h]
  exact validateDomain_iff.mp h

theorem stableDomain_iff (hG : UnicodeTables G) {s : Bytes} :
    StableDomain G s ↔ (validateDomain G s = .ok () → LowerFits G s) := by
  have hfits : validateDomain G s = .ok () →
      (validateDomain G (G.lower (trimDot s)) = .ok () ↔ LowerFits G s) := by
    intro h
    rw [hG.validateDomain_lower (validateDomain_trimDot h), LowerFits, trimDot_trimDot h, LowerFits]
  constructor
  · intro hs h
    exact (hfits h).mp (hs _ (canonicalDomain_ok_iff.mpr ⟨h, rfl⟩)).1
  · intro hs c hc
    obtain ⟨h, rfl⟩ := canonicalDomain_ok_iff.mp hc
    have hv := (hfits h).mpr (hs h)
    refine ⟨hv, canonicalDomain_ok_iff.mpr ⟨hv, ?_⟩⟩
    rw [hG.trimDot_lower (validateDomain_trimDot h), trimDot_trimDot h, hG.domain_lower_lower h]

/-! ## Local parts -/

/-- The code points of a local part. -/
def LocalRune (r : CodePoint) : Prop :=
  isAlnum r.val = true ∨ r.val = 95 ∨ r.val = 45 ∨ r.val = 46

theorem validateShadownameLocal_iff {l : Bytes} :
    validateShadownameLocal G l = .ok () ↔ 1 ≤ l.length ∧ l.length ≤ 63 ∧
      ∀ r ∈ runes l, LocalRune r := by
  rw [validateShadownameLocal, guard_eq_ok, not_or, Nat.not_lt, Nat.not_lt, and_assoc]
  refine and_congr_right fun _ => and_congr_right fun _ => ?_
  have hrune : ∀ r : CodePoint, LocalRune r ↔ ¬ (!(isAlnum r.val || r.val == 95 || r.val == 45 ||
      r.val == 46)) = true := by
    intro r
    simp only [LocalRune, Bool.not_eq_true', Bool.not_eq_false, Bool.or_eq_true, beq_iff_eq,
      or_assoc]
  simp only [hrune]
  rw [← List.find?_eq_none]
  split
  next r hr => exact ⟨fun h => (throw_eq_ok.mp h).elim, fun h => by rw [h] at hr; cases hr⟩
  next hr => exact ⟨fun _ => hr, fun _ => rfl⟩

theorem LocalRune.ascii {r : CodePoint} (h : LocalRune r) : r.IsAscii := by
  rcases h with h | h | h | h
  · exact isAlnum_lt h
  all_goals exact (show r.val < 0x80 by omega)

theorem localRune_lowerLetter {r : CodePoint} : LocalRune (lowerLetter r) ↔ LocalRune r := by
  by_cases h : 65 ≤ r.val ∧ r.val ≤ 90
  · have hval : (lowerLetter r).val = r.val + 32 := by
      rw [lowerLetter, if_pos h]
      exact Nat.mod_eq_of_lt (by omega)
    simp only [LocalRune, isAlnum, Bool.or_eq_true, Bool.and_eq_true, decide_eq_true_eq, hval]
    omega
  · rw [lowerLetter, if_neg h]

theorem validateShadownameLocal_lowerByte {l : Bytes} :
    validateShadownameLocal G (l.map lowerByte) = .ok () ↔
      validateShadownameLocal G l = .ok () := by
  rw [validateShadownameLocal_iff, validateShadownameLocal_iff, List.length_map,
    runes_map_lowerByte, List.forall_mem_map]
  simp only [localRune_lowerLetter]

/-- `strings.ToLower` of an ASCII string works byte by byte. -/
theorem lower_of_ascii (G : Go.Runtime) {l : Bytes} (h : ∀ r ∈ runes l, r.IsAscii) :
    G.lower l = l.map lowerByte := by
  induction l using rune_induction with
  | hnil => rfl
  | hcons b bs ih =>
    rw [runes_cons] at h
    obtain ⟨hfirst, hrest⟩ := List.forall_mem_cons.mp h
    by_cases hb : b.toNat < 0x80
    · obtain ⟨c, hc, hval⟩ := nextRune_ascii hb bs
      rw [hc] at hrest hfirst ih
      have hlow : (lowerLetter c).val = (lowerByte b).toNat := by
        rw [lowerLetter, lowerByte_toNat, hval]
        split_ifs
        · exact Nat.mod_eq_of_lt (by omega)
        · exact hval
      rw [Runtime.lower, runes_cons, hc, List.map_cons, lowerRune_of_ascii hfirst,
        utf8_cons_ascii (lowerLetter_ascii hfirst), hlow, UInt8.ofNat_toNat, List.map_cons,
        ← ih hrest, Runtime.lower]
    · exact absurd hfirst (nextRune_not_ascii hb bs)

theorem lower_local {l : Bytes} (h : validateShadownameLocal G l = .ok ()) :
    G.lower l = l.map lowerByte :=
  lower_of_ascii G fun r hr => ((validateShadownameLocal_iff.mp h).2.2 r hr).ascii

/-! ## Shadownames -/

theorem splitAt_eq_some {s l p : Bytes} :
    splitAt s = some (l, p) ↔ s = l ++ 0x40 :: p ∧ (0x40 : UInt8) ∉ l := by
  constructor
  · intro h
    rw [splitAt] at h
    split_ifs at h with hat
    obtain ⟨rfl, rfl⟩ := Prod.mk.inj (Option.some.inj h)
    have hnot : (0x40 : UInt8) ∉ s.takeWhile (· != 0x40) := fun hin => by
      simpa using List.all_eq_true.mp List.all_takeWhile _ hin
    have hrest : s.dropWhile (· != 0x40) ≠ [] := by
      intro hnil
      rw [← List.takeWhile_append_dropWhile (p := (· != 0x40)) (l := s), hnil,
        List.append_nil] at hat
      exact hnot (List.contains_iff_mem.mp hat)
    obtain ⟨b, bs, hb⟩ := List.exists_cons_of_ne_nil hrest
    have hfirst : b = 0x40 := by
      have := List.head_dropWhile_not (· != 0x40) (l := s) hrest
      simpa [hb] using this
    refine ⟨?_, hnot⟩
    conv_lhs => rw [← List.takeWhile_append_dropWhile (p := (· != 0x40)) (l := s), hb, hfirst]
    rw [hb, List.drop_one, List.tail_cons]
  · rintro ⟨rfl, hl⟩
    have hne : ∀ b ∈ l, (b != 0x40) = true := fun b hb => by
      rw [bne_iff_ne]
      rintro rfl
      exact hl hb
    rw [splitAt, if_pos (by simp), List.takeWhile_append_of_pos hne,
      List.dropWhile_append_of_pos hne]
    simp

theorem at_not_mem_shadownameLocal {l : Bytes} (h : validateShadownameLocal G l = .ok ()) :
    (0x40 : UInt8) ∉ l := by
  intro hin
  obtain ⟨q, hq, hval⟩ := mem_segments_of_ascii (by decide : (0x40 : UInt8).toNat < 0x80) hin
  have hrune := (validateShadownameLocal_iff.mp h).2.2 q.1 (List.mem_map.mpr ⟨q, hq, rfl⟩)
  have h64 : q.1.val = 64 := hval
  rcases hrune with h | h | h | h
  · rw [h64] at h
    exact absurd h (by decide)
  all_goals omega

theorem splitShadowname_ok_iff {s l p : Bytes} :
    splitShadowname G s = .ok (l, p) ↔ s = l ++ 0x40 :: p ∧
      validateShadownameLocal G l = .ok () ∧ validateDomain G p = .ok () := by
  rw [splitShadowname]
  constructor
  · intro h
    split at h
    · cases h
    next l' p' hsplit =>
      simp only [bind_eq_ok, pure_eq_ok, Prod.mk.injEq] at h
      obtain ⟨⟨⟩, hl, ⟨⟩, hp, rfl, rfl⟩ := h
      exact ⟨(splitAt_eq_some.mp hsplit).1, hl, hp⟩
  · rintro ⟨rfl, hl, hp⟩
    rw [splitAt_eq_some.mpr ⟨rfl, at_not_mem_shadownameLocal hl⟩]
    simp only [hl, hp, ok_bind]
    rfl

example : splitShadowname letterRuntime (bytes "alice@acme.co") =
    .ok (bytes "alice", bytes "acme.co") := by
  decide

theorem canonicalShadowname_ok_iff {s c : Bytes} :
    canonicalShadowname G s = .ok c ↔ ∃ l p, splitShadowname G s = .ok (l, p) ∧
      c = l.map lowerByte ++ 0x40 :: G.lower p := by
  simp only [canonicalShadowname, bind_eq_ok, Prod.exists, pure_eq_ok]
  refine exists₂_congr fun l p => and_congr_right fun h => ?_
  rw [lower_local (splitShadowname_ok_iff.mp h).2.1, eq_comm]

/-- The lower-case form of a Shadowname is one exactly when the provider's is a domain. -/
theorem splitShadowname_lower {l p : Bytes} (hl : validateShadownameLocal G l = .ok ()) :
    splitShadowname G (l.map lowerByte ++ 0x40 :: G.lower p) =
        .ok (l.map lowerByte, G.lower p) ↔ validateDomain G (G.lower p) = .ok () := by
  rw [splitShadowname_ok_iff]
  exact ⟨fun h => h.2.2, fun h => ⟨rfl, validateShadownameLocal_lowerByte.mpr hl, h⟩⟩

theorem map_lowerByte_twice (l : Bytes) : (l.map lowerByte).map lowerByte = l.map lowerByte := by
  rw [List.map_map]
  refine List.map_congr_left fun b _ => ?_
  rw [Function.comp_apply, ← UInt8.toNat_inj, lowerByte_toNat, lowerByte_toNat]
  split_ifs <;> omega

/-- Shadownames that differ only in the case of ASCII letters split alike. -/
theorem splitShadowname_sameLetters {s s' l p : Bytes} (h : SameLetters s s')
    (hs : splitShadowname G s = .ok (l, p)) :
    ∃ l' p', splitShadowname G s' = .ok (l', p') ∧ SameLetters l l' ∧ SameLetters p p' := by
  obtain ⟨rfl, hl, hp⟩ := splitShadowname_ok_iff.mp hs
  have hmap : s'.map lowerByte = l.map lowerByte ++ lowerByte 0x40 :: p.map lowerByte := by
    rw [← h, List.map_append, List.map_cons]
  obtain ⟨l', r, rfl, hl', hr⟩ := List.map_eq_append_iff.mp hmap
  obtain ⟨b, p', rfl, hb, hp'⟩ := List.map_eq_cons_iff.mp hr
  obtain rfl : b = 0x40 := (lowerByte_eq_iff (by decide) (by decide)).mp hb
  refine ⟨l', p', splitShadowname_ok_iff.mpr ⟨rfl, ?_, ?_⟩, hl'.symm, hp'.symm⟩
  · rw [← validateShadownameLocal_lowerByte, hl', validateShadownameLocal_lowerByte]
    exact hl
  · exact (validateDomain_sameLetters hp'.symm).mp hp

theorem canonicalShadowname_sameLetters {s s' c : Bytes} (h : SameLetters s s')
    (hs : canonicalShadowname G s = .ok c) : canonicalShadowname G s' = .ok c := by
  obtain ⟨l, p, hsplit, rfl⟩ := canonicalShadowname_ok_iff.mp hs
  obtain ⟨l', p', hsplit', hl, hp⟩ := splitShadowname_sameLetters h hsplit
  refine canonicalShadowname_ok_iff.mpr ⟨l', p', hsplit', ?_⟩
  rw [hp.lower, hl]

/-- One of two strings has one dot more at its end. -/
def DotVariant (s s' : Bytes) : Prop :=
  s.getLast? ≠ some 0x2E ∧ s' = s ++ [0x2E] ∨ s'.getLast? ≠ some 0x2E ∧ s = s' ++ [0x2E]

theorem canonicalDomain_dotVariant {s s' c : Bytes} (h : DotVariant s s') :
    canonicalDomain G s = .ok c ↔ canonicalDomain G s' = .ok c := by
  rcases h with ⟨hlast, rfl⟩ | ⟨hlast, rfl⟩
  · exact (canonicalDomain_concat hlast).symm
  · exact canonicalDomain_concat hlast

/-- A dot at the end of the provider stays in the canonical form. -/
theorem canonicalShadowname_concat {s c : Bytes} (hlast : s.getLast? ≠ some 0x2E)
    (hs : canonicalShadowname G s = .ok c) :
    canonicalShadowname G (s ++ [0x2E]) = .ok (c ++ [0x2E]) := by
  obtain ⟨l, p, hsplit, rfl⟩ := canonicalShadowname_ok_iff.mp hs
  obtain ⟨rfl, hl, hp⟩ := splitShadowname_ok_iff.mp hsplit
  have hp' : validateDomain G (p ++ [0x2E]) = .ok () := by
    have hpl : p.getLast? ≠ some 0x2E := by
      intro h
      rw [List.getLast?_append, List.getLast?_cons, h] at hlast
      exact hlast rfl
    exact (validateDomain_concat hpl).mpr hp
  refine canonicalShadowname_ok_iff.mpr
    ⟨l, p ++ [0x2E], splitShadowname_ok_iff.mpr ⟨?_, hl, hp'⟩, ?_⟩
  · rw [List.append_assoc, List.cons_append]
  · rw [lower_append_dot, List.append_assoc, List.cons_append]
    rfl

/-- The forms of one Shadowname with and without the dot differ. -/
theorem canonicalShadowname_dotVariant {s s' c : Bytes} (h : DotVariant s s')
    (hs : canonicalShadowname G s = .ok c) : canonicalShadowname G s' ≠ .ok c := by
  intro hs'
  rcases h with ⟨hlast, rfl⟩ | ⟨hlast, rfl⟩
  · have heq := Except.ok.inj ((canonicalShadowname_concat hlast hs).symm.trans hs')
    simpa using congrArg List.length heq
  · have heq := Except.ok.inj ((canonicalShadowname_concat hlast hs').symm.trans hs)
    simpa using congrArg List.length heq

example : canonicalShadowname letterRuntime (bytes "Alice@Acme.co.") =
    .ok (bytes "alice@acme.co.") := by
  decide

/-- The canonical form of a Shadowname is a Shadowname, its own canonical form, and that of the
spellings that differ from it in the case of ASCII letters or in a dot at the end. -/
def CompleteShadowname (G : Go.Runtime) (s : Bytes) : Prop :=
  ∀ c, canonicalShadowname G s = .ok c → (∃ parts, splitShadowname G c = .ok parts) ∧
    canonicalShadowname G c = .ok c ∧
    ∀ s', SameLetters s s' ∨ DotVariant s s' → canonicalShadowname G s' = .ok c

theorem exists_dotVariant {s l p : Bytes} (h : splitShadowname G s = .ok (l, p)) :
    ∃ s', DotVariant s s' := by
  obtain ⟨rfl, -, hp⟩ := splitShadowname_ok_iff.mp h
  rcases eq_trimDot p with heq | heq
  · refine ⟨_, .inl ⟨?_, rfl⟩⟩
    have hlast := getLast?_trimDot hp
    rw [← heq] at hlast
    rw [List.getLast?_append, List.getLast?_cons]
    cases hq : p.getLast? with
    | none => simp
    | some b => simpa [hq] using hlast
  · refine ⟨l ++ 0x40 :: trimDot p, .inr ⟨?_, ?_⟩⟩
    · have hlast := getLast?_trimDot hp
      rw [List.getLast?_append, List.getLast?_cons]
      cases hq : (trimDot p).getLast? with
      | none => simp
      | some b => simpa [hq] using hlast
    · rw [List.append_assoc, List.cons_append, ← heq]

/-- The canonical form of a Shadowname is one, and its own form, when the provider's fits. -/
theorem canonicalShadowname_stable (hG : UnicodeTables G) {s l p c : Bytes}
    (hs : splitShadowname G s = .ok (l, p)) (hc : canonicalShadowname G s = .ok c) :
    (∃ parts, splitShadowname G c = .ok parts) ∧ canonicalShadowname G c = .ok c ↔
      LowerFits G p := by
  obtain ⟨-, hl, hp⟩ := splitShadowname_ok_iff.mp hs
  have hform : c = l.map lowerByte ++ 0x40 :: G.lower p := by
    obtain ⟨l', p', hs', hc'⟩ := canonicalShadowname_ok_iff.mp hc
    obtain ⟨rfl, rfl⟩ := Prod.mk.inj (Except.ok.inj (hs.symm.trans hs'))
    exact hc'
  subst hform
  rw [← hG.validateDomain_lower hp, ← splitShadowname_lower hl]
  constructor
  · rintro ⟨-, hcan⟩
    obtain ⟨l', p', hs', hc'⟩ := canonicalShadowname_ok_iff.mp hcan
    obtain ⟨heq, hl', hp'⟩ := splitShadowname_ok_iff.mp hs'
    -- the first at-sign of the form is the one it was built with
    have hlen : l'.length = (l.map lowerByte).length := by
      have h := congrArg (fun t => (t.takeWhile (· != 0x40)).length) heq
      have hnot : ∀ {u q : Bytes}, validateShadownameLocal G u = .ok () →
          ((u ++ 0x40 :: q).takeWhile (· != 0x40)).length = u.length := by
        intro u q hu
        have hat := at_not_mem_shadownameLocal hu
        rw [List.takeWhile_append_of_pos fun b hb => by
          rw [bne_iff_ne]
          rintro rfl
          exact hat hb]
        simp
      rw [hnot (validateShadownameLocal_lowerByte.mpr hl), hnot hl'] at h
      exact h.symm
    obtain ⟨rfl, hrest⟩ := List.append_inj heq hlen.symm
    rw [hs', (List.cons.inj hrest).2]
  · intro hsplit
    refine ⟨⟨_, hsplit⟩, canonicalShadowname_ok_iff.mpr ⟨_, _, hsplit, ?_⟩⟩
    rw [map_lowerByte_twice, hG.provider_lower_lower hp]

/-- When the canonical forms are valid, stable and complete. For a Shadowname the spelling with
the other ending never has the same form. -/
theorem canonical_forms (hG : UnicodeTables G) (s : Bytes) :
    (StableDomain G s ∧ CompleteShadowname G s ↔
      (validateDomain G s = .ok () → LowerFits G s) ∧
        ¬ ∃ parts, splitShadowname G s = .ok parts) ∧
    (∀ c s', canonicalDomain G s = .ok c → SameLetters s s' ∨ DotVariant s s' →
      canonicalDomain G s' = .ok c) ∧
    (∀ l p, splitShadowname G s = .ok (l, p) → ∃ c, canonicalShadowname G s = .ok c ∧
      ((∃ parts, splitShadowname G c = .ok parts) ∧ canonicalShadowname G c = .ok c ↔
        LowerFits G p) ∧
      (∀ s', SameLetters s s' → canonicalShadowname G s' = .ok c) ∧
      (∀ s', DotVariant s s' → canonicalShadowname G s' ≠ .ok c)) := by
  refine ⟨?_, fun c s' hc hs => ?_, fun l p hs => ?_⟩
  · rw [stableDomain_iff hG]
    refine and_congr_right fun _ => ⟨fun hcomplete => ?_, fun hnone c hc => ?_⟩
    · rintro ⟨⟨l, p⟩, hs⟩
      have hc := canonicalShadowname_ok_iff.mpr ⟨l, p, hs, rfl⟩
      obtain ⟨s', hdot⟩ := exists_dotVariant hs
      exact canonicalShadowname_dotVariant hdot hc ((hcomplete _ hc).2.2 s' (.inr hdot))
    · obtain ⟨l, p, hs, -⟩ := canonicalShadowname_ok_iff.mp hc
      exact absurd ⟨_, hs⟩ hnone
  · rcases hs with hs | hs
    · exact (canonicalDomain_sameLetters hs).mp hc
    · exact (canonicalDomain_dotVariant hs).mp hc
  · have hc := canonicalShadowname_ok_iff.mpr ⟨l, p, hs, rfl⟩
    exact ⟨_, hc, canonicalShadowname_stable hG hs hc,
      fun s' h => canonicalShadowname_sameLetters h hc,
      fun s' h => canonicalShadowname_dotVariant h hc⟩

theorem letterTables : UnicodeTables letterRuntime where
  lower_letter r _ hl := by
    right
    rcases Bool.or_eq_true_iff.mp hl with h | h <;> rw [beq_iff_eq.mp h] <;> decide
  lower_idem r _ hl := by
    rcases Bool.or_eq_true_iff.mp hl with h | h <;> rw [beq_iff_eq.mp h] <;> decide
  surrogate r hs := by
    refine Bool.eq_false_iff.mpr fun hl => ?_
    rcases Bool.or_eq_true_iff.mp hl with h | h <;> rw [beq_iff_eq.mp h] at hs <;>
      exact absurd hs (by decide)

theorem canonical_forms_host :
    StableDomain letterRuntime (bytes "Acme.co.") ∧
      CompleteShadowname letterRuntime (bytes "Acme.co.") :=
  (canonical_forms letterTables (bytes "Acme.co.")).1.mpr ⟨fun _ => by
    unfold LowerFits
    decide, fun ⟨_, h⟩ => by
    have hok := isOk_iff.mpr ⟨_, h⟩
    exact absurd hok (by decide)⟩

/-- The dot stays in the form of a Shadowname, and a label of 62 bytes has a form of 93. -/
theorem canonical_forms_fail :
    ¬ CompleteShadowname letterRuntime (bytes "alice@acme.co") ∧
      ¬ StableDomain letterRuntime (utf8 (List.replicate 31 0x23A)) := by
  refine ⟨fun h => ?_, fun h => ?_⟩
  · have hsame := (h (bytes "alice@acme.co") (by decide)).2.2 (bytes "alice@acme.co.")
      (.inr (.inl ⟨by decide, by decide⟩))
    exact absurd hsame (by decide)
  · have hvalid := (h (utf8 (List.replicate 31 0x2C65)) (by decide +kernel)).1
    exact absurd hvalid (by decide)

end Shadownet.Identifiers
