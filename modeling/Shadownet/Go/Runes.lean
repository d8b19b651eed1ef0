import Shadownet.Go.Ascii

/-!
# Ranging over a string

The code points of a string, step by step: their bytes make up the string (`segments_flat`), an
ASCII byte splits the walk in two (`runes_append_ascii`), and the letter case of ASCII letters
changes no boundary (`runes_map_lowerByte`).
-/

namespace Shadownet.Go

open Foundation

theorem nextRune_suffix (b : UInt8) (bs : Bytes) :
    ∃ pre, pre ≠ [] ∧ b :: bs = pre ++ (nextRune b bs).2 := by
  rcases nextRune_cases b bs with ⟨c, rest, hnext, heq⟩ | ⟨-, hnext⟩
  · exact ⟨utf8Char c, utf8Char_ne_nil c, by rw [hnext, heq]⟩
  · exact ⟨[b], by simp, by rw [hnext]; rfl⟩

theorem length_nextRune (b : UInt8) (bs : Bytes) : (nextRune b bs).2.length ≤ bs.length := by
  obtain ⟨pre, hne, heq⟩ := nextRune_suffix b bs
  have hpos := List.length_pos_iff.mpr hne
  have hlen := congrArg List.length heq
  rw [List.length_append, List.length_cons] at hlen
  omega

theorem segmentsFuel_eq {fuel : Nat} {s : Bytes} (h : s.length ≤ fuel) :
    segmentsFuel fuel s = segments s := by
  obtain ⟨k, hk⟩ : ∃ k, s.length ≤ k := ⟨_, le_rfl⟩
  induction k generalizing s fuel with
  | zero =>
    rw [List.length_eq_zero_iff.mp (Nat.le_zero.mp hk)]
    cases fuel <;> rfl
  | succ k ih =>
    cases s with
    | nil => cases fuel <;> rfl
    | cons b bs =>
      obtain ⟨fuel, rfl⟩ : ∃ m, fuel = m + 1 := ⟨fuel - 1, by simp at h; omega⟩
      have hrest := length_nextRune b bs
      rw [List.length_cons] at h hk
      have hstep : segmentsFuel fuel (nextRune b bs).2 =
          segmentsFuel bs.length (nextRune b bs).2 := by
        rw [ih (by omega) (by omega), ih (by omega) (by omega)]
      rw [segments, List.length_cons, segmentsFuel, segmentsFuel]
      exact congrArg _ hstep

/-- One step of ranging over a string. -/
theorem segments_cons (b : UInt8) (bs : Bytes) :
    segments (b :: bs) = ((nextRune b bs).1,
      (b :: bs).take ((b :: bs).length - (nextRune b bs).2.length)) ::
        segments (nextRune b bs).2 := by
  rw [← segmentsFuel_eq (length_nextRune b bs), segments, List.length_cons, segmentsFuel]
  rfl

theorem runes_cons (b : UInt8) (bs : Bytes) :
    runes (b :: bs) = (nextRune b bs).1 :: runes (nextRune b bs).2 := by
  rw [runes, segments_cons, List.map_cons, runes]

/-- A property of strings by ranging over them. -/
theorem rune_induction {P : Bytes → Prop} (hnil : P [])
    (hcons : ∀ b bs, P (nextRune b bs).2 → P (b :: bs)) (s : Bytes) : P s := by
  obtain ⟨k, hk⟩ : ∃ k, s.length ≤ k := ⟨_, le_rfl⟩
  induction k generalizing s with
  | zero =>
    rw [List.length_eq_zero_iff.mp (Nat.le_zero.mp hk)]
    exact hnil
  | succ k ih =>
    cases s with
    | nil => exact hnil
    | cons b bs =>
      have hrest := length_nextRune b bs
      rw [List.length_cons] at hk
      exact hcons b bs (ih _ (by omega))

/-- The bytes of the code points make up the string. -/
theorem segments_flat (s : Bytes) : (segments s).flatMap Prod.snd = s := by
  induction s using rune_induction with
  | hnil => rfl
  | hcons b bs ih =>
    obtain ⟨pre, -, heq⟩ := nextRune_suffix b bs
    have htake : (b :: bs).take ((b :: bs).length - (nextRune b bs).2.length) = pre := by
      conv_lhs => rw [heq]
      rw [List.length_append, Nat.add_sub_cancel, List.take_left]
    rw [segments_cons, List.flatMap_cons, ih, htake, ← heq]

theorem runes_eq_nil {s : Bytes} : runes s = [] ↔ s = [] := by
  cases s with
  | nil => exact ⟨fun _ => rfl, fun _ => rfl⟩
  | cons b bs => simp [runes_cons]

/-! ## ASCII bytes -/

/-- A byte as a code point. -/
theorem nextRune_ascii {b : UInt8} (hb : b.toNat < 0x80) (bs : Bytes) :
    ∃ c : CodePoint, nextRune b bs = (c, bs) ∧ c.val = b.toNat := by
  obtain ⟨c, hc, hval⟩ := utf8Next_ascii hb bs
  exact ⟨c, by rw [nextRune, hc], hval⟩

theorem nextRune_not_ascii {b : UInt8} (hb : ¬ b.toNat < 0x80) (bs : Bytes) :
    ¬ (nextRune b bs).1.IsAscii := by
  rcases nextRune_cases b bs with ⟨c, rest, hn, heq⟩ | ⟨-, hn⟩
  · rw [hn]
    intro hc
    have hlt : c.val < 0x80 := hc
    rw [utf8Char_ascii hlt] at heq
    have hval := congrArg UInt8.toNat (List.cons.inj heq).1
    rw [toNat_ofNat_of_lt (by omega)] at hval
    exact hb (by omega)
  · rw [hn]
    show ¬ CodePoint.IsAscii 0xFFFD
    decide

theorem contBits_ascii {b : UInt8} (hb : b.toNat < 0x80) : contBits b = none := by
  rw [contBits, if_neg (by omega)]

/-- An ASCII byte ends a multi-byte form, as the end of the string does. -/
theorem contRun_append_ascii {b : UInt8} (hb : b.toNat < 0x80) (k acc : Nat) (s t : Bytes) :
    contRun k acc (s ++ b :: t) =
      (contRun k acc s).map fun r => (r.1, r.2 ++ b :: t) := by
  induction s generalizing k acc with
  | nil =>
    cases k with
    | zero => rfl
    | succ k =>
      have hleft : contRun (k + 1) acc (b :: t) = none := by rw [contRun, contBits_ascii hb]; rfl
      rw [List.nil_append, hleft]
      rfl
  | cons a s ih =>
    cases k with
    | zero => rfl
    | succ k =>
      rw [List.cons_append, contRun, contRun]
      cases contBits a with
      | none => rfl
      | some x => exact ih k _

theorem utf8Multi_append_ascii {b : UInt8} (hb : b.toNat < 0x80) (lo k acc : Nat) (s t : Bytes) :
    utf8Multi lo k acc (s ++ b :: t) =
      (utf8Multi lo k acc s).map fun r => (r.1, r.2 ++ b :: t) := by
  rw [utf8Multi, utf8Multi, contRun_append_ascii hb]
  cases contRun k acc s with
  | none => rfl
  | some r => cases hn : scalarFrom lo r.1 <;> simp [hn]

theorem nextRune_append_ascii {b : UInt8} (hb : b.toNat < 0x80) (a : UInt8) (s t : Bytes) :
    nextRune a (s ++ b :: t) = ((nextRune a s).1, (nextRune a s).2 ++ b :: t) := by
  have hnext : utf8Next (a :: (s ++ b :: t)) =
      (utf8Next (a :: s)).map fun r => (r.1, r.2 ++ b :: t) := by
    simp only [utf8Next, utf8Multi_append_ascii hb]
    split_ifs <;> rfl
  rw [nextRune, nextRune, hnext]
  cases utf8Next (a :: s) <;> rfl

/-- An ASCII byte is a code point of its own, and the walk starts anew after it. -/
theorem runes_append_ascii {b : UInt8} (hb : b.toNat < 0x80) (s t : Bytes) :
    runes (s ++ b :: t) = runes s ++ Fin.ofNat _ b.toNat :: runes t := by
  induction s using rune_induction with
  | hnil =>
    obtain ⟨c, hc, hval⟩ := nextRune_ascii hb t
    have hb' : c = Fin.ofNat _ b.toNat := Fin.ext (by
      rw [hval]
      exact (Nat.mod_eq_of_lt (by omega)).symm)
    rw [List.nil_append, runes_cons, hc, hb']
    rfl
  | hcons a s ih =>
    rw [List.cons_append, runes_cons, nextRune_append_ascii hb, ih, runes_cons, List.cons_append]

/-! ## Letter case -/

/-- An ASCII letter in lower case, any other byte as it is. -/
def lowerByte (b : UInt8) : UInt8 := if 65 ≤ b.toNat ∧ b.toNat ≤ 90 then b + 32 else b

/-- The code point of an ASCII letter in lower case, any other as it is. -/
def lowerLetter (c : CodePoint) : CodePoint :=
  if 65 ≤ c.val ∧ c.val ≤ 90 then Fin.ofNat _ (c.val + 32) else c

theorem lowerByte_toNat (b : UInt8) :
    (lowerByte b).toNat = if 65 ≤ b.toNat ∧ b.toNat ≤ 90 then b.toNat + 32 else b.toNat := by
  rw [lowerByte]
  split_ifs with h
  · rw [UInt8.toNat_add]
    exact Nat.mod_eq_of_lt (by show b.toNat + 32 < 256; omega)
  · rfl

theorem lowerByte_ascii {b : UInt8} : (lowerByte b).toNat < 0x80 ↔ b.toNat < 0x80 := by
  rw [lowerByte_toNat]
  split_ifs <;> omega

theorem lowerByte_of_not_ascii {b : UInt8} (h : ¬ b.toNat < 0x80) : lowerByte b = b := by
  rw [lowerByte, if_neg (by omega)]

theorem contBits_lowerByte (b : UInt8) : contBits (lowerByte b) = contBits b := by
  by_cases h : b.toNat < 0x80
  · rw [contBits_ascii h, contBits_ascii (lowerByte_ascii.mpr h)]
  · rw [lowerByte_of_not_ascii h]

theorem contRun_lowerByte (k acc : Nat) (s : Bytes) :
    contRun k acc (s.map lowerByte) = (contRun k acc s).map fun r => (r.1, r.2.map lowerByte) := by
  induction s generalizing k acc with
  | nil => cases k <;> rfl
  | cons a s ih =>
    cases k with
    | zero => rfl
    | succ k =>
      rw [List.map_cons, contRun, contRun, contBits_lowerByte]
      cases contBits a with
      | none => rfl
      | some x => exact ih k _

theorem utf8Multi_lowerByte (lo k acc : Nat) (s : Bytes) :
    utf8Multi lo k acc (s.map lowerByte) =
      (utf8Multi lo k acc s).map fun r => (r.1, r.2.map lowerByte) := by
  rw [utf8Multi, utf8Multi, contRun_lowerByte]
  cases contRun k acc s with
  | none => rfl
  | some r => cases hn : scalarFrom lo r.1 <;> simp [hn]

theorem lowerLetter_of_not_ascii {c : CodePoint} (h : ¬ c.IsAscii) : lowerLetter c = c := by
  have hval : ¬ c.val < 0x80 := h
  rw [lowerLetter, if_neg (by omega)]

/-- Only the letters of the form of one byte change. -/
theorem nextRune_lowerByte (b : UInt8) (bs : Bytes) :
    nextRune (lowerByte b) (bs.map lowerByte) =
      (lowerLetter (nextRune b bs).1, (nextRune b bs).2.map lowerByte) := by
  by_cases hb : b.toNat < 0x80
  · obtain ⟨c, hc, hval⟩ := nextRune_ascii hb bs
    obtain ⟨d, hd, hval'⟩ := nextRune_ascii (lowerByte_ascii.mpr hb) (bs.map lowerByte)
    rw [hc, hd]
    refine Prod.ext (Fin.ext ?_) rfl
    show d.val = (lowerLetter c).val
    rw [hval', lowerByte_toNat, lowerLetter, hval]
    split_ifs with h
    · exact (Nat.mod_eq_of_lt (by omega)).symm
    · exact hval.symm
  · rw [lowerByte_of_not_ascii hb]
    have hnext : utf8Next (b :: bs.map lowerByte) =
        (utf8Next (b :: bs)).map fun r => (r.1, r.2.map lowerByte) := by
      simp only [utf8Next, utf8Multi_lowerByte]
      split_ifs <;> rfl
    rw [lowerLetter_of_not_ascii (nextRune_not_ascii hb bs), nextRune, nextRune, hnext]
    cases utf8Next (b :: bs) <;> rfl

/-- The letter case of ASCII letters changes no boundary. -/
theorem runes_map_lowerByte (s : Bytes) : runes (s.map lowerByte) = (runes s).map lowerLetter := by
  induction s using rune_induction with
  | hnil => rfl
  | hcons b bs ih => rw [List.map_cons, runes_cons, nextRune_lowerByte, ih, runes_cons,
    List.map_cons]

/-- Two strings that differ only in the case of ASCII letters. -/
def SameLetters (s t : Bytes) : Prop := s.map lowerByte = t.map lowerByte

instance (s t : Bytes) : Decidable (SameLetters s t) := inferInstanceAs (Decidable (_ = _))

theorem Runtime.lowerRune_lowerLetter (G : Runtime) (c : CodePoint) :
    G.lowerRune (lowerLetter c) = G.lowerRune c := by
  by_cases h : 65 ≤ c.val ∧ c.val ≤ 90
  · have hval : (lowerLetter c).val = c.val + 32 := by
      rw [lowerLetter, if_pos h]
      exact Nat.mod_eq_of_lt (by omega)
    have hascii : (lowerLetter c).IsAscii := by
      show (lowerLetter c).val < 0x80
      omega
    rw [lowerRune, if_neg (by omega), if_pos hascii, lowerRune, if_pos h]
    rw [lowerLetter, if_pos h]
  · rw [lowerLetter, if_neg h]

/-- `strings.ToLower` of strings that differ only in case. -/
theorem SameLetters.lower {s t : Bytes} (h : SameLetters s t) (G : Runtime) :
    G.lower s = G.lower t := by
  have hmap : ∀ u, (runes (u.map lowerByte)).map G.lowerRune = (runes u).map G.lowerRune := by
    intro u
    rw [runes_map_lowerByte, List.map_map]
    exact List.map_congr_left fun c _ => G.lowerRune_lowerLetter c
  rw [Runtime.lower, Runtime.lower, ← hmap s, ← hmap t, h]

end Shadownet.Go
