import Shadownet.Go.Ascii
import Shadownet.Go.Jcs

/-!
# What may follow the document

`CanonicalizeBytes` reads one value and then asks the decoder for `More()`, which is about the
elements of an array or object: a closing bracket or brace counts as no more. So a document
followed by one of these, and anything after it, is accepted.

* `readValue_suffix`: what the reader leaves is the end of what it was given.
* `canonicalizeBytes_complete_iff`: on which inputs success means a complete document.
-/

namespace Shadownet.Go

open Foundation

/-! ## What the reader leaves -/

theorem skipSpace_suffix (bs : Bytes) : skipSpace bs <:+ bs := by
  induction bs with
  | nil => exact List.suffix_refl _
  | cons b bs ih =>
    rw [skipSpace]
    split_ifs
    · exact ih.trans (List.suffix_cons b bs)
    · exact List.suffix_refl _

/-- What follows the first byte after white space. -/
theorem suffix_of_skipSpace {bs rest : Bytes} {b : UInt8} (h : skipSpace bs = b :: rest) :
    rest <:+ bs :=
  (List.suffix_cons b rest).trans (h ▸ skipSpace_suffix bs)

theorem hex4_suffix {bs rest : Bytes} {n : Nat} (h : hex4 bs = some (n, rest)) : rest <:+ bs := by
  unfold hex4 at h
  split at h
  · simp only [Option.bind_eq_bind, Option.bind_eq_some_iff, Option.pure_def, Option.some.injEq,
      Prod.mk.injEq] at h
    obtain ⟨a, -, b, -, c, -, d, -, -, rfl⟩ := h
    exact ⟨[_, _, _, _], rfl⟩
  · cases h

theorem lowHalf_suffix {bs rest : Bytes} {n : Nat} (h : lowHalf bs = some (n, rest)) :
    rest <:+ bs := by
  unfold lowHalf at h
  split at h
  · next tail =>
    exact (hex4_suffix (Option.filter_eq_some_iff.mp h).1).trans ⟨[_, _], rfl⟩
  · cases h

theorem unicodeEscape_suffix {bs s rest : Bytes} (h : unicodeEscape bs = some (s, rest)) :
    rest <:+ bs := by
  simp only [unicodeEscape, Option.bind_eq_bind, Option.bind_eq_some_iff] at h
  obtain ⟨⟨u, tail⟩, hhex, h⟩ := h
  refine List.IsSuffix.trans ?_ (hex4_suffix hhex)
  simp only at h
  split_ifs at h with h1 h2
  · split at h
    · next l tail' hlow =>
      obtain ⟨-, rfl⟩ := Prod.mk.inj (Option.some.inj h)
      exact lowHalf_suffix hlow
    · obtain ⟨-, rfl⟩ := Prod.mk.inj (Option.some.inj h)
      exact List.suffix_refl _
  · obtain ⟨-, rfl⟩ := Prod.mk.inj (Option.some.inj h)
    exact List.suffix_refl _
  · obtain ⟨-, rfl⟩ := Prod.mk.inj (Option.some.inj h)
    exact List.suffix_refl _

theorem readString_suffix {fuel : Nat} {bs s rest : Bytes}
    (h : readString fuel bs = some (s, rest)) : rest <:+ bs := by
  induction fuel generalizing bs s rest with
  | zero => cases h
  | succ fuel ih =>
    cases bs with
    | nil => cases h
    | cons b bs =>
      rw [readString.eq_def] at h
      simp only at h
      split_ifs at h with h1 h2 h3
      · obtain ⟨-, rfl⟩ := Prod.mk.inj (Option.some.inj h)
        exact List.suffix_cons b bs
      · refine List.IsSuffix.trans ?_ (List.suffix_cons b bs)
        cases bs with
        | nil => cases h
        | cons e tail =>
          refine List.IsSuffix.trans ?_ (List.suffix_cons e tail)
          simp only at h
          split_ifs at h with h4
          · simp only [Option.bind_eq_bind, Option.bind_eq_some_iff, Option.pure_def,
              Option.some.injEq, Prod.exists, Prod.mk.injEq] at h
            obtain ⟨u, r, hu, t, r', hr, -, rfl⟩ := h
            exact (ih hr).trans (unicodeEscape_suffix hu)
          · simp only [Option.bind_eq_bind, Option.bind_eq_some_iff, Option.pure_def,
              Option.some.injEq, Prod.exists, Prod.mk.injEq] at h
            obtain ⟨c, -, t, r', hr, -, rfl⟩ := h
            exact ih hr
      · simp only [Option.bind_eq_bind, Option.bind_eq_some_iff, Option.pure_def,
          Option.some.injEq, Prod.exists, Prod.mk.injEq] at h
        obtain ⟨t, r', hr, -, rfl⟩ := h
        refine (ih hr).trans ?_
        rcases nextRune_cases b bs with ⟨c, rest, hnext, heq⟩ | ⟨-, hnext⟩
        · rw [hnext]
          exact ⟨utf8Char c, heq.symm⟩
        · rw [hnext]
          exact List.suffix_cons b bs

theorem digits1_suffix {bs d rest : Bytes} (h : digits1 bs = some (d, rest)) : rest <:+ bs := by
  simp only [digits1] at h
  split_ifs at h
  obtain ⟨-, rfl⟩ := Prod.mk.inj (Option.some.inj h)
  exact List.drop_suffix _ _

theorem readInteger_suffix {bs d rest : Bytes} (h : readInteger bs = some (d, rest)) :
    rest <:+ bs := by
  unfold readInteger at h
  split at h
  · obtain ⟨-, rfl⟩ := Prod.mk.inj (Option.some.inj h)
    exact List.suffix_cons _ _
  · exact digits1_suffix h

theorem optionalPart_suffix {mark : UInt8 → Bool} {read : Bytes → Option (Bytes × Bytes)}
    (hread : ∀ {bs d rest}, read bs = some (d, rest) → rest <:+ bs) {bs d rest : Bytes}
    (h : optionalPart mark read bs = some (d, rest)) : rest <:+ bs := by
  unfold optionalPart at h
  split at h
  · next b tail =>
    split_ifs at h
    · obtain ⟨⟨d', r⟩, hr, heq⟩ := Option.map_eq_some_iff.mp h
      obtain ⟨-, rfl⟩ := Prod.mk.inj heq
      exact (hread hr).trans (List.suffix_cons b tail)
    · obtain ⟨-, rfl⟩ := Prod.mk.inj (Option.some.inj h)
      exact List.suffix_refl _
  · obtain ⟨-, rfl⟩ := Prod.mk.inj (Option.some.inj h)
    exact List.suffix_refl _

theorem readExponent_suffix {bs d rest : Bytes} (h : readExponent bs = some (d, rest)) :
    rest <:+ bs := by
  unfold readExponent at h
  split at h
  · next b tail =>
    split_ifs at h
    · obtain ⟨⟨d', r⟩, hr, heq⟩ := Option.map_eq_some_iff.mp h
      obtain ⟨-, rfl⟩ := Prod.mk.inj heq
      exact (digits1_suffix hr).trans (List.suffix_cons b tail)
    · exact digits1_suffix h
  · cases h

theorem readNumber_suffix {bs d rest : Bytes} (h : readNumber bs = some (d, rest)) :
    rest <:+ bs := by
  have hunsigned : ∀ {sign tail : Bytes}, ((readInteger tail).bind fun x =>
      (optionalPart (· == 0x2E) digits1 x.2).bind fun y =>
        (optionalPart (fun b => b == 0x65 || b == 0x45) readExponent y.2).bind fun z =>
          some (sign ++ x.1 ++ y.1 ++ z.1, z.2)) = some (d, rest) → rest <:+ tail := by
    intro sign tail h
    simp only [Option.bind_eq_some_iff, Option.some.injEq, Prod.exists, Prod.mk.injEq] at h
    obtain ⟨int, b2, hint, frac, b3, hfrac, exp, b4, hexp, -, rfl⟩ := h
    exact (optionalPart_suffix readExponent_suffix hexp).trans
      ((optionalPart_suffix digits1_suffix hfrac).trans (readInteger_suffix hint))
  unfold readNumber at h
  split at h
  · exact (hunsigned h).trans (List.suffix_cons _ _)
  · exact hunsigned h

theorem readLiteral_suffix {word : String} {v w : JsonDoc} {bs rest : Bytes}
    (h : readLiteral word v bs = some (w, rest)) : rest <:+ bs := by
  rw [readLiteral] at h
  split_ifs at h
  obtain ⟨-, rfl⟩ := Prod.mk.inj (Option.some.inj h)
  exact List.drop_suffix _ _

/-- What the reader leaves is the end of what it was given. -/
theorem read_suffix (fuel : Nat) :
    (∀ depth bs v rest, readValue fuel depth bs = some (v, rest) → rest <:+ bs) ∧
    (∀ depth bs vs rest, readItems fuel depth bs = some (vs, rest) → rest <:+ bs) ∧
    (∀ depth bs ms rest, readMembers fuel depth bs = some (ms, rest) → rest <:+ bs) := by
  induction fuel with
  | zero => exact ⟨nofun, nofun, nofun⟩
  | succ fuel ih =>
    obtain ⟨ihValue, ihItems, ihMembers⟩ := ih
    refine ⟨fun depth bs v rest h => ?_, fun depth bs vs rest h => ?_,
      fun depth bs ms rest h => ?_⟩
    · rw [readValue] at h
      split at h
      · cases h
      next b tail hskip =>
      have hbs : b :: tail <:+ bs := hskip ▸ skipSpace_suffix bs
      have htail : tail <:+ bs := suffix_of_skipSpace hskip
      split_ifs at h with hstr hobj harr htrue hfalse hnull
      · obtain ⟨⟨s, r⟩, hr, heq⟩ := Option.map_eq_some_iff.mp h
        obtain ⟨-, rfl⟩ := Prod.mk.inj heq
        exact (readString_suffix hr).trans htail
      · cases depth with
        | zero => cases h
        | succ depth =>
          simp only at h
          split at h
          · next tail' hclose =>
            obtain ⟨-, rfl⟩ := Prod.mk.inj (Option.some.inj h)
            exact (suffix_of_skipSpace hclose).trans htail
          · obtain ⟨⟨ms, r⟩, hr, heq⟩ := Option.map_eq_some_iff.mp h
            obtain ⟨-, rfl⟩ := Prod.mk.inj heq
            exact (ihMembers _ _ _ _ hr).trans ((skipSpace_suffix tail).trans htail)
      · cases depth with
        | zero => cases h
        | succ depth =>
          simp only at h
          split at h
          · next tail' hclose =>
            obtain ⟨-, rfl⟩ := Prod.mk.inj (Option.some.inj h)
            exact (suffix_of_skipSpace hclose).trans htail
          · obtain ⟨⟨vs, r⟩, hr, heq⟩ := Option.map_eq_some_iff.mp h
            obtain ⟨-, rfl⟩ := Prod.mk.inj heq
            exact (ihItems _ _ _ _ hr).trans ((skipSpace_suffix tail).trans htail)
      · exact (readLiteral_suffix h).trans hbs
      · exact (readLiteral_suffix h).trans hbs
      · exact (readLiteral_suffix h).trans hbs
      · obtain ⟨⟨d, r⟩, hr, heq⟩ := Option.map_eq_some_iff.mp h
        obtain ⟨-, rfl⟩ := Prod.mk.inj heq
        exact (readNumber_suffix hr).trans hbs
    · simp only [readItems, Option.bind_eq_bind, Option.bind_eq_some_iff, Prod.exists] at h
      obtain ⟨v, tail, hv, h⟩ := h
      refine List.IsSuffix.trans ?_ (ihValue _ _ _ _ hv)
      split at h
      · next tail' hcomma =>
        obtain ⟨⟨vs', r⟩, hr, heq⟩ := Option.map_eq_some_iff.mp h
        obtain ⟨-, rfl⟩ := Prod.mk.inj heq
        exact (ihItems _ _ _ _ hr).trans (suffix_of_skipSpace hcomma)
      · next tail' hclose =>
        obtain ⟨-, rfl⟩ := Prod.mk.inj (Option.some.inj h)
        exact suffix_of_skipSpace hclose
      · cases h
    · rw [readMembers] at h
      split at h
      · next tail hquote =>
        refine List.IsSuffix.trans ?_ (suffix_of_skipSpace hquote)
        simp only [Option.bind_eq_bind, Option.bind_eq_some_iff, Prod.exists] at h
        obtain ⟨k, tail', hk, h⟩ := h
        refine List.IsSuffix.trans ?_ (readString_suffix hk)
        split at h
        · next tail2 hcolon =>
          refine List.IsSuffix.trans ?_ (suffix_of_skipSpace hcolon)
          simp only [Option.bind_eq_some_iff, Prod.exists] at h
          obtain ⟨v, tail3, hv, h⟩ := h
          refine List.IsSuffix.trans ?_ (ihValue _ _ _ _ hv)
          split at h
          · next tail4 hcomma =>
            obtain ⟨⟨ms', r⟩, hr, heq⟩ := Option.map_eq_some_iff.mp h
            obtain ⟨-, rfl⟩ := Prod.mk.inj heq
            exact (ihMembers _ _ _ _ hr).trans (suffix_of_skipSpace hcomma)
          · next tail4 hclose =>
            obtain ⟨-, rfl⟩ := Prod.mk.inj (Option.some.inj h)
            exact suffix_of_skipSpace hclose
          · cases h
        · cases h
      · cases h

/-! ## Complete documents -/

/-- The first value of a document and the bytes after it. -/
def firstValue (doc : Bytes) : Option (JsonDoc × Bytes) := readValue (2 * doc.length + 2) 10000 doc

/-- One value, with white space around it and nothing else. -/
def IsDocument (doc : Bytes) : Prop := ∃ v rest, firstValue doc = some (v, rest) ∧
  ∀ b ∈ rest, b = 0x20 ∨ b = 0x09 ∨ b = 0x0A ∨ b = 0x0D

/-- White space, then a closing bracket or brace. -/
def Closing (rest : Bytes) : Prop := ∃ b r, skipSpace rest = b :: r ∧ (b = 0x5D ∨ b = 0x7D)

theorem skipSpace_eq_nil {bs : Bytes} :
    skipSpace bs = [] ↔ ∀ b ∈ bs, b = 0x20 ∨ b = 0x09 ∨ b = 0x0A ∨ b = 0x0D := by
  induction bs with
  | nil => simp [skipSpace]
  | cons b bs ih =>
    rw [skipSpace, List.forall_mem_cons, ← ih]
    split_ifs with h
    · simp only [Bool.or_eq_true, beq_iff_eq, or_assoc] at h
      exact ⟨fun hs => ⟨h, hs⟩, fun hs => hs.2⟩
    · simp only [Bool.or_eq_true, beq_iff_eq, or_assoc] at h
      exact iff_of_false (by simp) fun hs => h hs.1

theorem more_eq_false {rest : Bytes} :
    more rest = false ↔ skipSpace rest = [] ∨ Closing rest := by
  rw [more, Closing]
  cases skipSpace rest with
  | nil => simp
  | cons b r =>
    simp only [Bool.and_eq_false_iff, bne_eq_false_iff_eq, reduceCtorEq, false_or, List.cons.injEq]
    constructor
    · exact fun h => ⟨b, r, ⟨rfl, rfl⟩, h⟩
    · rintro ⟨c, t, ⟨rfl, rfl⟩, h⟩
      exact h

/-- When `CanonicalizeBytes` succeeds. -/
theorem canonicalizeBytes_ok_iff {G : Runtime} {doc c : Bytes} :
    canonicalizeBytes G doc = .ok c ↔ ∃ v rest, firstValue doc = some (v, rest) ∧
      (skipSpace rest = [] ∨ Closing rest) ∧ canonicalize G v.merged = .ok c := by
  rw [canonicalizeBytes, ← firstValue]
  cases hread : firstValue doc with
  | none => simp
  | some r =>
    obtain ⟨v, rest⟩ := r
    simp only [guard_eq_ok, Bool.not_eq_true, more_eq_false, Option.some.injEq, Prod.mk.injEq]
    constructor
    · exact fun h => ⟨v, rest, ⟨rfl, rfl⟩, h⟩
    · rintro ⟨_, _, ⟨rfl, rfl⟩, h⟩
      exact h

/-- Success means a complete document exactly when the first value, if it has a canonical form,
is not followed by a closing bracket or brace. Any other byte after it makes the call fail. -/
theorem canonicalizeBytes_complete_iff (G : Runtime) (doc : Bytes) :
    (((∃ c, canonicalizeBytes G doc = .ok c) → IsDocument doc) ↔
      ∀ v rest, firstValue doc = some (v, rest) → (∃ c, canonicalize G v.merged = .ok c) →
        ¬ Closing rest) ∧
    (∀ v rest b r, firstValue doc = some (v, rest) → rest <:+ doc ∧
      (skipSpace rest = b :: r → b ≠ 0x5D → b ≠ 0x7D →
        ∃ e, canonicalizeBytes G doc = .error e)) := by
  refine ⟨⟨fun h v rest hfirst hc hclose => ?_, fun h hok => ?_⟩, fun v rest b r hfirst =>
    ⟨(read_suffix _).1 _ _ _ _ hfirst, fun hskip hb hb' => ?_⟩⟩
  · obtain ⟨c, hc⟩ := hc
    obtain ⟨v', rest', hfirst', hspace⟩ :=
      h ⟨c, canonicalizeBytes_ok_iff.mpr ⟨v, rest, hfirst, .inr hclose, hc⟩⟩
    obtain ⟨-, rfl⟩ := Prod.mk.inj (Option.some.inj (hfirst.symm.trans hfirst'))
    obtain ⟨b, r, hskip, -⟩ := hclose
    rw [skipSpace_eq_nil.mpr hspace] at hskip
    cases hskip
  · obtain ⟨c, hok⟩ := hok
    obtain ⟨v, rest, hfirst, hend, hc⟩ := canonicalizeBytes_ok_iff.mp hok
    rcases hend with hend | hclose
    · exact ⟨v, rest, hfirst, skipSpace_eq_nil.mp hend⟩
    · exact absurd hclose (h v rest hfirst ⟨c, hc⟩)
  · cases hres : canonicalizeBytes G doc with
    | error e => exact ⟨e, rfl⟩
    | ok c =>
      obtain ⟨v', rest', hfirst', hend, -⟩ := canonicalizeBytes_ok_iff.mp hres
      obtain ⟨-, rfl⟩ := Prod.mk.inj (Option.some.inj (hfirst.symm.trans hfirst'))
      rcases hend with hend | ⟨d, t, hd, hclose⟩
      · rw [hskip] at hend
        cases hend
      · rw [hskip] at hd
        obtain ⟨rfl, -⟩ := List.cons.inj hd
        exact absurd hclose (by simp [hb, hb'])

/-- A runtime whose outside functions refuse everything. -/
def bareRuntime : Runtime where
  quote s := 0x22 :: s ++ [0x22]
  quoteRune := utf8Char
  isLetterOrDigit _ := false
  toLower := id
  jsonError _ := bytes "unexpected end of JSON input"
  base64Error _ := bytes "illegal base64 data at input byte 0"
  sha256 := id
  parseSigned _ := throw []
  preVerify _ := pure ()
  signCompact _ _ _ _ := throw []

theorem firstValue_spaced :
    firstValue (bytes " [1] ") = some (.arr [.num (bytes "1")], [0x20]) := by
  decide

theorem canonicalizeBytes_complete_spaced :
    ((∃ c, canonicalizeBytes bareRuntime (bytes " [1] ") = .ok c) → IsDocument (bytes " [1] ")) ∧
      ∃ e, canonicalizeBytes bareRuntime (bytes "\x7b\x7d\x7b\x7d") = .error e := by
  refine ⟨(canonicalizeBytes_complete_iff bareRuntime (bytes " [1] ")).1.mpr ?_,
    ((canonicalizeBytes_complete_iff bareRuntime (bytes "\x7b\x7d\x7b\x7d")).2 (.obj [])
      (bytes "\x7b\x7d") 0x7B [0x7D] (by decide)).2 (by decide)
      (by decide) (by decide)⟩
  rintro v rest hfirst - ⟨b, r, hskip, -⟩
  rw [firstValue_spaced] at hfirst
  obtain ⟨-, rfl⟩ := Prod.mk.inj (Option.some.inj hfirst)
  cases hskip

/-- An empty object followed by a bracket and more. -/
theorem canonicalizeBytes_closing :
    canonicalizeBytes bareRuntime (bytes "\x7b\x7d] trailing") = .ok (bytes "\x7b\x7d") ∧
      ¬ IsDocument (bytes "\x7b\x7d] trailing") := by
  have hfirst : firstValue (bytes "\x7b\x7d] trailing") = some (.obj [], bytes "] trailing") := by
    decide
  refine ⟨by decide, ?_⟩
  rintro ⟨v, rest, hread, hspace⟩
  obtain ⟨-, rfl⟩ := Prod.mk.inj (Option.some.inj (hfirst.symm.trans hread))
  exact absurd (hspace 0x5D (by decide)) (by decide)

end Shadownet.Go
