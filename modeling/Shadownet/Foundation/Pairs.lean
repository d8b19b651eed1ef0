import Mathlib.Data.List.Basic
import Shadownet.Foundation.Document

/-!
# Halves of characters

A character beyond the basic plane is two halves in UTF-16 and in a JSON escape, and two halves
that meet are one character.

* `joinPairs_halves`: what the halves of a text are joined to.
* `joinPairs_eq_self_iff`: the texts that stay as they are.
-/

namespace Shadownet.Foundation

/-- A character beyond the basic plane as its two halves. -/
def halves (c : CodePoint) : Text :=
  if c.val < 0x10000 then [c]
  else [Fin.ofNat 0x110000 (0xD800 + (c.val - 0x10000) / 1024 % 1024),
    Fin.ofNat 0x110000 (0xDC00 + (c.val - 0x10000) % 1024)]

theorem pairOf_val {h l : CodePoint} (hh : IsHigh h) (hl : IsLow l) :
    (pairOf h l).val = 0x10000 + (h.val - 0xD800) * 1024 + (l.val - 0xDC00) := by
  unfold IsHigh at hh
  unfold IsLow at hl
  simp only [pairOf, Fin.ofNat]
  exact Nat.mod_eq_of_lt (by omega)

theorem joinPairs_cons {c : CodePoint} {t : Text} (h : IsHigh c → ∀ l ∈ t.head?, ¬ IsLow l) :
    joinPairs (c :: t) = c :: joinPairs t := by
  cases t with
  | nil => rfl
  | cons l t => rw [joinPairs, if_neg fun hp => h hp.1 l rfl hp.2]

/-- Texts of which the second does not go on with a low half are joined on their own. -/
theorem joinPairs_append {a b : Text} (h : ∀ l ∈ b.head?, ¬ IsLow l) :
    joinPairs (a ++ b) = joinPairs a ++ joinPairs b := by
  induction a using joinPairs.induct with
  | case1 x y rest hp ih =>
    rw [List.cons_append, List.cons_append, joinPairs, if_pos hp, joinPairs, if_pos hp, ih]
    rfl
  | case2 x y rest hp ih =>
    rw [List.cons_append, List.cons_append, joinPairs, if_neg hp, joinPairs, if_neg hp,
      ← List.cons_append, ih]
    rfl
  | case3 c => exact joinPairs_cons fun _ => h
  | case4 => rfl

/-- The halves of a character are joined again. -/
theorem joinPairs_halves_append {c : CodePoint} {t : Text}
    (h : IsHigh c → ∀ l ∈ t.head?, ¬ IsLow l) : joinPairs (halves c ++ t) = c :: joinPairs t := by
  rw [halves]
  have hc : c.val < 0x110000 := c.isLt
  split_ifs with hbmp
  · exact joinPairs_cons h
  · have hhigh : (Fin.ofNat 0x110000 (0xD800 + (c.val - 0x10000) / 1024 % 1024)).val =
        0xD800 + (c.val - 0x10000) / 1024 % 1024 := Nat.mod_eq_of_lt (by omega)
    have hlow : (Fin.ofNat 0x110000 (0xDC00 + (c.val - 0x10000) % 1024)).val =
        0xDC00 + (c.val - 0x10000) % 1024 := Nat.mod_eq_of_lt (by omega)
    have hpair : IsHigh (Fin.ofNat 0x110000 (0xD800 + (c.val - 0x10000) / 1024 % 1024)) ∧
        IsLow (Fin.ofNat 0x110000 (0xDC00 + (c.val - 0x10000) % 1024)) := by
      rw [IsHigh, IsLow, hhigh, hlow]
      omega
    have hjoin : pairOf (Fin.ofNat 0x110000 (0xD800 + (c.val - 0x10000) / 1024 % 1024))
        (Fin.ofNat 0x110000 (0xDC00 + (c.val - 0x10000) % 1024)) = c := by
      refine Fin.ext ((pairOf_val hpair.1 hpair.2).trans ?_)
      rw [hhigh, hlow]
      omega
    rw [List.cons_append, List.singleton_append, joinPairs, if_pos hpair, hjoin]

/-- What is written first of a character is a low half only when the character is one. -/
theorem head_halves {c l : CodePoint} {t : Text} (hl : l ∈ (halves c ++ t).head?) (hlow : IsLow l) :
    IsLow c := by
  rw [halves] at hl
  split_ifs at hl with hbmp
  · rw [List.cons_append, List.head?_cons, Option.mem_some_iff] at hl
    rwa [hl]
  · rw [List.cons_append, List.head?_cons, Option.mem_some_iff] at hl
    have hval : (Fin.ofNat 0x110000 (0xD800 + (c.val - 0x10000) / 1024 % 1024)).val =
        0xD800 + (c.val - 0x10000) / 1024 % 1024 := Nat.mod_eq_of_lt (by omega)
    rw [← hl, IsLow, hval] at hlow
    omega

theorem joinPairs_halves (s : Text) : joinPairs (s.flatMap halves) = joinPairs s := by
  induction s using joinPairs.induct with
  | case1 h l rest hp ih =>
    have hbmp : ∀ c, IsHigh c ∨ IsLow c → halves c = [c] := by
      intro c hc
      rw [halves, if_pos]
      unfold IsHigh IsLow at hc
      omega
    rw [List.flatMap_cons, List.flatMap_cons, hbmp h (.inl hp.1), hbmp l (.inr hp.2),
      List.singleton_append, List.singleton_append, joinPairs, if_pos hp, ih, joinPairs, if_pos hp]
  | case2 h l rest hp ih =>
    rw [List.flatMap_cons, joinPairs_halves_append, ih, joinPairs, if_neg hp]
    intro hhigh x hx hlow
    rw [List.flatMap_cons] at hx
    exact hp ⟨hhigh, head_halves hx hlow⟩
  | case3 c =>
    rw [List.flatMap_singleton, ← List.append_nil (halves c), joinPairs_halves_append (by simp)]
    rfl
  | case4 => rfl

/-- No high half of a pair stands before a low half. -/
def NoPair (s : Text) : Prop := ∀ h l a b, s = a ++ h :: l :: b → ¬ (IsHigh h ∧ IsLow l)

theorem length_joinPairs_le (s : Text) : (joinPairs s).length ≤ s.length := by
  induction s using joinPairs.induct with
  | case1 h l rest hp ih =>
    rw [joinPairs, if_pos hp, List.length_cons, List.length_cons, List.length_cons]
    omega
  | case2 h l rest hp ih =>
    rw [joinPairs, if_neg hp, List.length_cons, List.length_cons]
    omega
  | case3 c => exact le_rfl
  | case4 => exact le_rfl

theorem noPair_cons {c : CodePoint} {s : Text} :
    NoPair (c :: s) ↔ (IsHigh c → ∀ l ∈ s.head?, ¬ IsLow l) ∧ NoPair s := by
  constructor
  · intro h
    refine ⟨fun hc l hl hlow => ?_, fun x y a b hs => h x y (c :: a) b (by rw [hs]; rfl)⟩
    obtain ⟨t, rfl⟩ := List.head?_eq_some_iff.mp hl
    exact h c l [] t rfl ⟨hc, hlow⟩
  · rintro ⟨hc, hs⟩ x y a b heq ⟨hx, hy⟩
    cases a with
    | nil =>
      obtain ⟨rfl, rfl⟩ := List.cons.inj heq
      exact hc hx y rfl hy
    | cons a as => exact hs x y as b (List.cons.inj heq).2 ⟨hx, hy⟩

/-- The strings that come back as they were. -/
theorem joinPairs_eq_self_iff {s : Text} : joinPairs s = s ↔ NoPair s := by
  induction s using joinPairs.induct with
  | case1 h l rest hp ih =>
    refine iff_of_false (fun heq => ?_) fun hno => hno h l [] rest rfl hp
    have hlen := congrArg List.length heq
    have hle := length_joinPairs_le rest
    rw [joinPairs, if_pos hp, List.length_cons, List.length_cons, List.length_cons] at hlen
    omega
  | case2 h l rest hp ih =>
    have hhead : IsHigh h → ∀ l' ∈ (l :: rest).head?, ¬ IsLow l' := by
      intro hh l' hl' hlow
      rw [List.head?_cons, Option.mem_some_iff] at hl'
      exact hp ⟨hh, hl' ▸ hlow⟩
    rw [joinPairs, if_neg hp, List.cons.injEq, noPair_cons, and_iff_right rfl,
      and_iff_right hhead]
    exact ih
  | case3 c => exact iff_of_true rfl (noPair_cons.mpr ⟨by simp, fun _ _ _ _ h => by simp at h⟩)
  | case4 => exact iff_of_true rfl fun _ _ _ _ h => by simp at h

end Shadownet.Foundation
