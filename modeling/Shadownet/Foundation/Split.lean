import Mathlib.Data.List.TakeWhile

/-!
# Splitting at a separator

A list and its parts between separators: joining appends, and a list of parts is a suffix of
another exactly when the joined list is a suffix that starts at a separator. A cut at the first
separator, or at the last, is unique.
-/

namespace Shadownet.Foundation

variable {α : Type} {a : α}

theorem intercalate_append {ls ms : List (List α)} (hl : ls ≠ []) (hm : ms ≠ []) :
    [a].intercalate (ls ++ ms) = [a].intercalate ls ++ a :: [a].intercalate ms := by
  induction ls with
  | nil => exact absurd rfl hl
  | cons l ls ih =>
    by_cases hls : ls = []
    · subst hls
      rw [List.singleton_append, List.intercalate_cons_of_ne_nil hm, List.intercalate_singleton]
      simp
    · have happ : ls ++ ms ≠ [] := by simp [hls]
      rw [List.cons_append, List.intercalate_cons_of_ne_nil happ, ih hls,
        List.intercalate_cons_of_ne_nil hls]
      simp

/-- A cut at the last separator. -/
theorem exists_cut_last {s : List α} (h : a ∈ s) : ∃ u v, s = u ++ a :: v ∧ a ∉ v := by
  obtain ⟨v, u, hcut, hv⟩ := List.eq_append_cons_of_mem (List.mem_reverse.mpr h)
  refine ⟨u.reverse, v.reverse, ?_, by simpa using hv⟩
  rw [← List.reverse_reverse s, hcut]
  simp

variable [BEq α] [LawfulBEq α]

section Cut
variable {s s' t t' : List α}

theorem takeWhile_ne_append (h : a ∉ s) : (s ++ a :: t).takeWhile (· != a) = s := by
  have hne : ∀ b ∈ s, (b != a) = true := fun b hb => bne_iff_ne.mpr (ne_of_mem_of_not_mem hb h)
  rw [List.takeWhile_append_of_pos hne, List.takeWhile_cons_of_neg (by simp), List.append_nil]

theorem dropWhile_ne_append (h : a ∉ s) : (s ++ a :: t).dropWhile (· != a) = a :: t := by
  have hne : ∀ b ∈ s, (b != a) = true := fun b hb => bne_iff_ne.mpr (ne_of_mem_of_not_mem hb h)
  rw [List.dropWhile_append_of_pos hne, List.dropWhile_cons_of_neg (by simp)]

theorem takeWhile_ne_self (h : a ∉ s) : s.takeWhile (· != a) = s :=
  List.takeWhile_eq_self_iff.mpr fun _ hb => bne_iff_ne.mpr (ne_of_mem_of_not_mem hb h)

theorem dropWhile_ne_nil (h : a ∉ s) : s.dropWhile (· != a) = [] :=
  List.dropWhile_eq_nil_iff.mpr fun _ hb => bne_iff_ne.mpr (ne_of_mem_of_not_mem hb h)

theorem cut_first_unique (hs : a ∉ s) (hs' : a ∉ s') (h : s ++ a :: t = s' ++ a :: t') :
    s = s' ∧ t = t' := by
  have hhead : s = s' := by
    rw [← takeWhile_ne_append (t := t) hs, h, takeWhile_ne_append hs']
  subst hhead
  exact ⟨rfl, List.tail_eq_of_cons_eq (List.append_cancel_left h)⟩

theorem cut_last_unique (ht : a ∉ t) (ht' : a ∉ t') (h : s ++ a :: t = s' ++ a :: t') :
    s = s' ∧ t = t' := by
  have hrev := congrArg List.reverse h
  simp only [List.reverse_append, List.reverse_cons, List.append_assoc,
    List.singleton_append] at hrev
  obtain ⟨htail, hhead⟩ := cut_first_unique (by simpa using ht) (by simpa using ht') hrev
  exact ⟨List.reverse_inj.mp hhead, List.reverse_inj.mp htail⟩

end Cut

/-- A suffix of the parts is a suffix of the list that starts at a separator. -/
theorem splitOn_suffix_iff {c p : List α} :
    p.splitOn a <:+ c.splitOn a ↔ c = p ∨ (a :: p) <:+ c := by
  constructor
  · rintro ⟨ls, hls⟩
    have hc : [a].intercalate (ls ++ p.splitOn a) = c := by
      rw [hls]
      exact List.intercalate_splitOn a
    by_cases hnil : ls = []
    · left
      rw [← hc, hnil, List.nil_append]
      exact List.intercalate_splitOn a
    · right
      rw [intercalate_append hnil (List.splitOn_ne_nil a p), List.intercalate_splitOn a] at hc
      exact ⟨_, hc⟩
  · rintro (rfl | ⟨l, rfl⟩)
    · exact List.suffix_refl _
    · rw [List.splitOn_append_cons_self]
      exact List.suffix_append _ _

/-- A list whose parts are not empty does not end with the separator. -/
theorem getLast?_ne_of_splitOn {s : List α} (h : ∀ l ∈ s.splitOn a, l ≠ []) :
    s.getLast? ≠ some a := by
  intro hlast
  obtain ⟨u, rfl⟩ := List.getLast?_eq_some_iff.mp hlast
  refine h [] ?_ rfl
  rw [List.splitOn_append_cons_self, List.splitOn_nil]
  exact List.mem_append_right _ (List.mem_singleton.mpr rfl)

end Shadownet.Foundation
