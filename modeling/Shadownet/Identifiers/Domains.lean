import Shadownet.Foundation.Split
import Shadownet.Go.Runes
import Shadownet.Interop.Names

/-!
# Domains in the Go code

What `ValidateDomain` accepts, said through the code points of the labels, and what follows for
`IsSubdomainOf`: it compares raw strings, and this is the comparison of label lists.

* `validateDomainLabel_iff`, `validateDomain_iff`: the accepted labels and domains.
* `isSubdomainOf_order`: sub-domains are the label suffixes.
-/

namespace Shadownet.Identifiers

open Foundation Go

variable {G : Go.Runtime}

/-! ## Labels -/

/-- The code points a label may have, hyphens at its ends apart. -/
def LabelRune (G : Go.Runtime) (r : CodePoint) : Prop :=
  isAlnum r.val = true ∨ r.val = 45 ∨ (¬ r.IsAscii ∧ G.isLetterOrDigit r = true)

theorem segments_mem {s : Bytes} {p : CodePoint × Bytes} (h : p ∈ segments s) :
    p.2 ≠ [] ∧ (p.2 = utf8Char p.1 ∨ p.1 = 0xFFFD) := by
  induction s using rune_induction with
  | hnil => cases h
  | hcons b bs ih =>
    rw [segments_cons] at h
    rcases List.mem_cons.mp h with rfl | h
    · rcases nextRune_cases b bs with ⟨c, rest, hnext, heq⟩ | ⟨-, hnext⟩
      · rw [hnext]
        have htake : (b :: bs).take ((b :: bs).length - rest.length) = utf8Char c := by
          rw [heq, List.length_append, Nat.add_sub_cancel, List.take_left]
        exact ⟨by rw [htake]; exact utf8Char_ne_nil c, .inl htake⟩
      · rw [hnext]
        refine ⟨?_, .inr rfl⟩
        rw [List.length_cons, Nat.add_sub_cancel_left]
        simp
    · exact ih h

/-- The loop accepts admissible code points without a hyphen at the ends. -/
theorem labelLoop_iff {label : Bytes} {n i : Nat} {ps : List (CodePoint × Bytes)}
    (hbytes : i + (ps.flatMap Prod.snd).length = n) (hne : ∀ p ∈ ps, p.2 ≠ [])
    (hone : ∀ p ∈ ps, p.1 = 45 → p.2.length = 1) :
    labelLoop G label n i ps = .ok () ↔ (∀ p ∈ ps, LabelRune G p.1) ∧
      (i = 0 → (ps.map Prod.fst).head? ≠ some 45) ∧ (ps.map Prod.fst).getLast? ≠ some 45 := by
  induction ps generalizing i with
  | nil => simp [labelLoop, pure, Except.pure]
  | cons p ps ih =>
    obtain ⟨r, bs⟩ := p
    obtain ⟨hbs, hne'⟩ := List.forall_mem_cons.mp hne
    obtain ⟨hlen, hone'⟩ := List.forall_mem_cons.mp hone
    have hpos : 0 < bs.length := List.length_pos_iff.mpr hbs
    rw [List.flatMap_cons, List.length_append] at hbytes
    have hrest := ih (i := i + bs.length) (by simp only at hbytes ⊢; omega) hne' hone'
    have hvac : (i + bs.length = 0 → (ps.map Prod.fst).head? ≠ some 45) ↔ True :=
      iff_true_intro fun h0 => absurd h0 (by omega)
    rw [hvac, true_and] at hrest
    -- the last code point is this one only if no other follows
    have hlast : (((r, bs) :: ps).map Prod.fst).getLast? ≠ some 45 ↔
        (ps = [] → r ≠ 45) ∧ (ps.map Prod.fst).getLast? ≠ some 45 := by
      cases ps with
      | nil => simp
      | cons q qs => simp [List.getLast?_cons_cons]
    rw [List.forall_mem_cons, hlast, labelLoop]
    have hval : ∀ {x : CodePoint}, x ≠ 45 ↔ x.val ≠ 45 := fun {x} => by
      rw [Ne, Fin.ext_iff]
      rfl
    by_cases h1 : isAlnum r.val = true
    · have hr : r ≠ 45 := hval.mpr fun h => by rw [h] at h1; exact absurd h1 (by decide)
      rw [if_pos h1, hrest]
      simp [LabelRune, h1, hr]
    rw [if_neg h1]
    by_cases h2 : r.val = 45
    · obtain rfl : r = 45 := Fin.ext h2
      have hbs1 : bs.length = 1 := hlen rfl
      have hend : i + 1 = n ↔ ps = [] := by
        constructor
        · intro hn
          cases ps with
          | nil => rfl
          | cons q qs =>
            have hq := List.length_pos_iff.mpr (hne' q (by simp))
            rw [List.flatMap_cons, List.length_append] at hbytes
            simp only at hbytes
            omega
        · rintro rfl
          simp at hbytes
          omega
      rw [if_pos h2]
      split_ifs with h3
      · simp only [false_iff]
        rintro ⟨-, hfirst, hl, -⟩
        rcases h3 with h3 | h3
        · exact hfirst h3 rfl
        · exact hl (hend.mp h3) rfl
      · rw [not_or] at h3
        rw [hrest]
        have hadm : LabelRune G 45 := .inr (.inl rfl)
        have hsome : ps ≠ [] := fun h => h3.2 (hend.mpr h)
        simp [hadm, h3.1, hsome]
    rw [if_neg h2]
    have hr : r ≠ 45 := hval.mpr h2
    split_ifs with h4
    · rw [hrest]
      have hadm : LabelRune G r := .inr (.inr h4)
      simp [hadm, hr]
    · simp only [false_iff]
      rintro ⟨⟨h | h | h, -⟩, -⟩
      · exact h1 h
      · exact h2 h
      · exact h4 h

/-- What `validateDomainLabel` accepts: the bytes count, the code points decide. -/
theorem validateDomainLabel_iff {l : Bytes} :
    validateDomainLabel G l = .ok () ↔ 1 ≤ l.length ∧ l.length ≤ 63 ∧
      (∀ r ∈ runes l, LabelRune G r) ∧ (runes l).head? ≠ some 45 ∧
      (runes l).getLast? ≠ some 45 := by
  have hone : ∀ p ∈ segments l, p.1 = 45 → p.2.length = 1 := by
    intro p hp h45
    rcases (segments_mem hp).2 with h | h
    · rw [h, h45]
      rfl
    · rw [h45] at h
      exact absurd h (by decide)
  rw [validateDomainLabel, guard_eq_ok,
    labelLoop_iff (by rw [segments_flat, Nat.zero_add]) (fun p hp => (segments_mem hp).1) hone,
    runes, List.forall_mem_map]
  simp only [not_or, Nat.not_lt, forall_const, and_assoc]

/-! ## Domains -/

theorem validateDomain_iff {s : Bytes} :
    validateDomain G s = .ok () ↔ (trimDot s).length ≤ 253 ∧
      ∀ l ∈ splitDots (trimDot s), validateDomainLabel G l = .ok () := by
  rw [validateDomain, guard_eq_ok, forM_eq_ok, not_or, Nat.not_lt, Nat.not_lt]
  refine ⟨fun h => ⟨h.1.2, h.2⟩, fun h => ⟨⟨?_, h.1⟩, h.2⟩⟩
  -- an empty domain has one empty label
  rcases Nat.eq_zero_or_pos (trimDot s).length with h0 | hpos
  · rw [List.length_eq_zero_iff.mp h0] at h
    have hempty := (validateDomainLabel_iff.mp (h.2 [] (List.mem_singleton.mpr rfl))).1
    exact absurd hempty (by decide)
  · exact hpos

theorem label_ne_nil {l : Bytes} (h : validateDomainLabel G l = .ok ()) : l ≠ [] := by
  rintro rfl
  exact absurd (validateDomainLabel_iff.mp h).1 (by decide)

/-- The dot that is trimmed is the only one at the end. -/
theorem getLast?_trimDot {s : Bytes} (h : validateDomain G s = .ok ()) :
    (trimDot s).getLast? ≠ some 0x2E :=
  getLast?_ne_of_splitOn fun l hl => label_ne_nil ((validateDomain_iff.mp h).2 l hl)

theorem trimDot_of_getLast? {s : Bytes} (h : s.getLast? ≠ some 0x2E) : trimDot s = s := if_neg h

theorem trimDot_concat (s : Bytes) : trimDot (s ++ [0x2E]) = s := by
  rw [trimDot, if_pos List.getLast?_concat, List.dropLast_concat]

/-- A domain is its labels, with or without the dot at the end. -/
theorem eq_trimDot (s : Bytes) : s = trimDot s ∨ s = trimDot s ++ [0x2E] := by
  rw [trimDot]
  split_ifs with h
  · obtain ⟨u, rfl⟩ := List.getLast?_eq_some_iff.mp h
    exact .inr (by rw [List.dropLast_concat])
  · exact .inl rfl

/-! ## Letter case -/

theorem lowerByte_eq_iff {b d : UInt8} (hd : ¬ (65 ≤ d.toNat ∧ d.toNat ≤ 90))
    (hd' : ¬ (97 ≤ d.toNat ∧ d.toNat ≤ 122)) : lowerByte b = d ↔ b = d := by
  rw [← UInt8.toNat_inj, lowerByte_toNat, ← UInt8.toNat_inj]
  split_ifs <;> omega

theorem lowerLetter_eq_hyphen {r : CodePoint} : lowerLetter r = 45 ↔ r = 45 := by
  rw [lowerLetter]
  split_ifs with h
  · rw [Fin.ext_iff, Fin.ext_iff]
    have hval : (Fin.ofNat 0x110000 (r.val + 32)).val = r.val + 32 := Nat.mod_eq_of_lt (by omega)
    have h45 : (45 : CodePoint).val = 45 := rfl
    rw [hval, h45]
    omega
  · rfl

theorem labelRune_lowerLetter {r : CodePoint} : LabelRune G (lowerLetter r) ↔ LabelRune G r := by
  by_cases h : 65 ≤ r.val ∧ r.val ≤ 90
  · have hval : (lowerLetter r).val = r.val + 32 := by
      rw [lowerLetter, if_pos h]
      exact Nat.mod_eq_of_lt (by omega)
    have hupper : isAlnum r.val = true := by
      simp only [isAlnum, Bool.or_eq_true, Bool.and_eq_true, decide_eq_true_eq]
      omega
    have hlower : isAlnum (lowerLetter r).val = true := by
      simp only [isAlnum, Bool.or_eq_true, Bool.and_eq_true, decide_eq_true_eq]
      omega
    exact ⟨fun _ => .inl hupper, fun _ => .inl hlower⟩
  · rw [lowerLetter, if_neg h]

theorem validateDomainLabel_lowerByte {l : Bytes} :
    validateDomainLabel G (l.map lowerByte) = .ok () ↔ validateDomainLabel G l = .ok () := by
  rw [validateDomainLabel_iff, validateDomainLabel_iff, List.length_map, runes_map_lowerByte,
    List.forall_mem_map, List.head?_map, List.getLast?_map]
  simp only [labelRune_lowerLetter, Ne, Option.map_eq_some_iff, lowerLetter_eq_hyphen,
    exists_eq_right]

theorem splitDots_lowerByte (s : Bytes) :
    splitDots (s.map lowerByte) = (splitDots s).map (List.map lowerByte) := by
  refine Interop.splitOn_map fun b _ => ?_
  rw [Bool.eq_iff_iff, beq_iff_eq, beq_iff_eq, lowerByte_eq_iff (by decide) (by decide)]

theorem trimDot_lowerByte (s : Bytes) : trimDot (s.map lowerByte) = (trimDot s).map lowerByte := by
  rw [trimDot, trimDot, List.getLast?_map]
  simp only [Option.map_eq_some_iff, lowerByte_eq_iff (d := 0x2E) (by decide) (by decide),
    exists_eq_right]
  split_ifs
  · rw [List.map_dropLast]
  · rfl

theorem validateDomain_lowerByte {s : Bytes} :
    validateDomain G (s.map lowerByte) = .ok () ↔ validateDomain G s = .ok () := by
  rw [validateDomain_iff, validateDomain_iff, trimDot_lowerByte, List.length_map,
    splitDots_lowerByte, List.forall_mem_map]
  simp only [validateDomainLabel_lowerByte]

theorem validateDomain_sameLetters {s t : Bytes} (h : SameLetters s t) :
    validateDomain G s = .ok () ↔ validateDomain G t = .ok () := by
  rw [← validateDomain_lowerByte, h, validateDomain_lowerByte]

theorem trimDot_sameLetters {s t : Bytes} (h : SameLetters s t) :
    SameLetters (trimDot s) (trimDot t) := by
  rw [SameLetters, ← trimDot_lowerByte, ← trimDot_lowerByte, h]

/-- The canonical form forgets the case of ASCII letters. -/
theorem canonicalDomain_sameLetters {s t c : Bytes} (h : SameLetters s t) :
    canonicalDomain G s = .ok c ↔ canonicalDomain G t = .ok c := by
  rw [canonicalDomain_ok_iff, canonicalDomain_ok_iff, validateDomain_sameLetters h,
    (trimDot_sameLetters h).lower]

theorem validateDomain_concat {s : Bytes} (h : s.getLast? ≠ some 0x2E) :
    validateDomain G (s ++ [0x2E]) = .ok () ↔ validateDomain G s = .ok () := by
  rw [validateDomain_iff, validateDomain_iff, trimDot_concat, trimDot_of_getLast? h]

/-- It forgets one dot at the end. -/
theorem canonicalDomain_concat {s c : Bytes} (h : s.getLast? ≠ some 0x2E) :
    canonicalDomain G (s ++ [0x2E]) = .ok c ↔ canonicalDomain G s = .ok c := by
  rw [canonicalDomain_ok_iff, canonicalDomain_ok_iff, validateDomain_concat h, trimDot_concat,
    trimDot_of_getLast? h]

/-! ## Sub-domains -/

/-- `IsSubdomainOf` is inclusion of label lists as a suffix. -/
theorem isSubdomainOf_iff {c p : Bytes} :
    isSubdomainOf G c p = true ↔ ∃ C P, canonicalDomain G c = .ok C ∧
      canonicalDomain G p = .ok P ∧ splitDots P <:+ splitDots C := by
  rw [isSubdomainOf]
  cases hc : canonicalDomain G c with
  | error e => simp
  | ok C =>
    cases hp : canonicalDomain G p with
    | error e => simp
    | ok P =>
      simp only [Bool.or_eq_true, beq_iff_eq, List.isSuffixOf_iff_suffix, Except.ok.injEq,
        exists_and_left, exists_eq_left', splitDots]
      exact splitOn_suffix_iff.symm

theorem isSubdomainOf_congr {c c' p p' : Bytes}
    (hc : ∀ C, canonicalDomain G c = .ok C ↔ canonicalDomain G c' = .ok C)
    (hp : ∀ P, canonicalDomain G p = .ok P ↔ canonicalDomain G p' = .ok P) :
    isSubdomainOf G c p = isSubdomainOf G c' p' := by
  rw [Bool.eq_iff_iff, isSubdomainOf_iff, isSubdomainOf_iff]
  simp only [hc, hp]

theorem splitDots_injective {s t : Bytes} (h : splitDots s = splitDots t) : s = t := by
  have hs : [0x2E].intercalate (splitDots s) = s := List.intercalate_splitOn _
  rw [← hs, h]
  exact List.intercalate_splitOn _

/-- The order of domains by their labels. -/
theorem isSubdomainOf_order (G : Go.Runtime) :
    (∀ c p, isSubdomainOf G c p = true ↔ ∃ C P, canonicalDomain G c = .ok C ∧
      canonicalDomain G p = .ok P ∧ splitDots P <:+ splitDots C) ∧
    (∀ c, validateDomain G c = .ok () → isSubdomainOf G c c = true) ∧
    (∀ a b c, isSubdomainOf G a b = true → isSubdomainOf G b c = true →
      isSubdomainOf G a c = true) ∧
    (∀ c p, isSubdomainOf G c p = true → isSubdomainOf G p c = true →
      canonicalDomain G c = canonicalDomain G p) ∧
    (∀ c c' p p', SameLetters c c' → SameLetters p p' →
      isSubdomainOf G c p = isSubdomainOf G c' p') ∧
    (∀ c p, c.getLast? ≠ some 0x2E → isSubdomainOf G (c ++ [0x2E]) p = isSubdomainOf G c p) ∧
    (∀ c p, p.getLast? ≠ some 0x2E → isSubdomainOf G c (p ++ [0x2E]) = isSubdomainOf G c p) ∧
    (∀ c p C P before, canonicalDomain G c = .ok C → canonicalDomain G p = .ok P →
      C = before ++ P → before ≠ [] → before.getLast? ≠ some 0x2E →
      isSubdomainOf G c p = false) := by
  refine ⟨fun c p => isSubdomainOf_iff, fun c hc => ?_, fun a b c hab hbc => ?_,
    fun c p hcp hpc => ?_, fun c c' p p' hc hp => ?_, fun c p hc => ?_, fun c p hp => ?_,
    fun c p C P before hC hP heq hne hlast => ?_⟩
  · have hC := canonicalDomain_ok_iff.mpr ⟨hc, rfl⟩
    exact isSubdomainOf_iff.mpr ⟨_, _, hC, hC, List.suffix_refl _⟩
  · obtain ⟨A, B, hA, hB, hAB⟩ := isSubdomainOf_iff.mp hab
    obtain ⟨B', C, hB', hC, hBC⟩ := isSubdomainOf_iff.mp hbc
    obtain rfl : B = B' := Except.ok.inj (hB.symm.trans hB')
    exact isSubdomainOf_iff.mpr ⟨A, C, hA, hC, hBC.trans hAB⟩
  · obtain ⟨C, P, hC, hP, hCP⟩ := isSubdomainOf_iff.mp hcp
    obtain ⟨P', C', hP', hC', hPC⟩ := isSubdomainOf_iff.mp hpc
    obtain rfl : C = C' := Except.ok.inj (hC.symm.trans hC')
    obtain rfl : P = P' := Except.ok.inj (hP.symm.trans hP')
    have hlabels : splitDots P = splitDots C :=
      hCP.eq_of_length (le_antisymm hCP.length_le hPC.length_le)
    rw [hC, hP, splitDots_injective hlabels]
  · exact isSubdomainOf_congr (fun _ => canonicalDomain_sameLetters hc)
      fun _ => canonicalDomain_sameLetters hp
  · exact isSubdomainOf_congr (fun _ => canonicalDomain_concat hc) fun _ => Iff.rfl
  · exact isSubdomainOf_congr (fun _ => Iff.rfl) fun _ => canonicalDomain_concat hp
  · rw [isSubdomainOf, hC, hP, heq]
    refine Bool.eq_false_iff.mpr fun h => ?_
    rcases Bool.or_eq_true_iff.mp h with h | h
    · have hlen := congrArg List.length (beq_iff_eq.mp h)
      rw [List.length_append] at hlen
      exact hne (List.length_eq_zero_iff.mp (by omega))
    · obtain ⟨l, hl⟩ := List.isSuffixOf_iff_suffix.mp h
      have hsplit : (l ++ [0x2E]) ++ P = before ++ P := by rw [← hl, List.append_assoc]; rfl
      rw [← List.append_cancel_right hsplit] at hlast
      exact hlast List.getLast?_concat

/-- A runtime whose tables hold one pair of letters beyond ASCII: `U+023A` of two bytes and its
lower case `U+2C65` of three. -/
def letterRuntime : Go.Runtime where
  quote s := 0x22 :: s ++ [0x22]
  quoteRune := utf8Char
  isLetterOrDigit r := r == 0x23A || r == 0x2C65
  toLower r := if r = 0x23A then 0x2C65 else r
  jsonError _ := []
  base64Error _ := []
  sha256 b := b
  parseSigned _ := throw []
  preVerify _ := pure ()
  signCompact _ _ _ _ := throw []

theorem isSubdomainOf_order_host :
    isSubdomainOf letterRuntime (bytes "ns.hr.acme.co") (bytes "Acme.co.") = true ∧
      isSubdomainOf letterRuntime (bytes "fakeacme.co") (bytes "acme.co") = false :=
  ⟨(isSubdomainOf_order letterRuntime).2.2.1 _ (bytes "HR.acme.co") _ (by decide)
      (by decide),
    (isSubdomainOf_order letterRuntime).2.2.2.2.2.2.2 _ _ (bytes "fakeacme.co") (bytes "acme.co")
      (bytes "fake") (by decide) (by decide) (by decide)
      (by decide) (by decide)⟩

end Shadownet.Identifiers
