import Mathlib.Data.List.Basic
import Mathlib.Data.List.Induction
import Mathlib.Data.List.Nodup
import Mathlib.Logic.Function.Basic

/-!
# A table with a primary key

Rows of which no two have the same key, with the three statements a key-value store is written
in: select by key, insert with an update on conflict, and delete by key. What a table says is
the partial map `find`.

* `find_upsert`, `find_erase`: what the statements make of the map.
* `replay_eq_some_iff`: what a log of writes leaves under a key is its newest write.
-/

namespace Shadownet.Foundation

/-- A table of rows; `key` is their primary key. -/
structure Table {κ ρ : Type*} (key : ρ → κ) where
  rows : List ρ
  nodup : (rows.map key).Nodup

namespace Table

variable {κ ρ : Type*} {key : ρ → κ}

/-- The table without rows. -/
def empty : Table key := ⟨[], List.nodup_nil⟩

section
variable [DecidableEq κ]

/-- `SELECT … WHERE key = k`. -/
def find (t : Table key) (k : κ) : Option ρ := t.rows.find? fun r => key r = k

/-- `DELETE … WHERE key = k`. -/
def erase (t : Table key) (k : κ) : Table key :=
  ⟨t.rows.filter fun r => key r ≠ k, t.nodup.sublist (List.filter_sublist.map _)⟩

/-- The rows with those of one key updated. -/
def updated (key : ρ → κ) (rows : List ρ) (k : κ) (update : ρ → ρ) : List ρ :=
  rows.map fun r => if key r = k then update r else r

theorem map_key_updated {rows : List ρ} {k : κ} {update : ρ → ρ}
    (hkey : ∀ r, key (update r) = key r) :
    (updated key rows k update).map key = rows.map key := by
  rw [updated, List.map_map]
  refine List.map_congr_left fun r _ => ?_
  rw [Function.comp_apply, apply_ite key, hkey, ite_self]

/-- `INSERT … ON CONFLICT DO UPDATE`: a new row, or an update of the row that has its key. -/
def upsert (t : Table key) (row : ρ) (update : ρ → ρ) (hkey : ∀ r, key (update r) = key r) :
    Table key :=
  if h : key row ∈ t.rows.map key then
    ⟨updated key t.rows (key row) update, by rw [map_key_updated hkey]; exact t.nodup⟩
  else
    ⟨t.rows ++ [row], by
      rw [List.map_append, List.map_singleton, ← List.concat_eq_append]
      exact t.nodup.concat h⟩

variable {t : Table key}

@[simp] theorem find_empty (k : κ) : (empty : Table key).find k = none := rfl

theorem find_eq_some {k : κ} {r : ρ} (h : t.find k = some r) : r ∈ t.rows ∧ key r = k :=
  ⟨List.mem_of_find?_eq_some h, by simpa using List.find?_some h⟩

theorem find_eq_none {k : κ} : t.find k = none ↔ k ∉ t.rows.map key := by
  simp [find]

/-- A row is found under its own key. -/
theorem find_of_mem {r : ρ} (h : r ∈ t.rows) : t.find (key r) = some r := by
  cases hfind : t.find (key r) with
  | none => exact absurd (List.mem_map_of_mem h) (find_eq_none.mp hfind)
  | some q =>
    obtain ⟨hq, hkey⟩ := find_eq_some hfind
    rw [List.inj_on_of_nodup_map t.nodup hq h hkey]

theorem find_erase (k k' : κ) : (t.erase k).find k' = if k' = k then none else t.find k' := by
  rw [find, erase, List.find?_filter]
  split_ifs with h
  · rw [List.find?_eq_none]
    rintro r - hr
    simp only [decide_not, Bool.not_eq_true', decide_eq_false_iff_not,
      decide_eq_true_eq, h] at hr
    exact hr.1 hr.2
  · refine congrArg (fun p => List.find? p t.rows) (funext fun r => ?_)
    by_cases hr : key r = k'
    · simp [hr, h]
    · simp [hr]

theorem find_updated {rows : List ρ} {k k' : κ} {update : ρ → ρ}
    (hkey : ∀ r, key (update r) = key r) :
    (updated key rows k update).find? (fun r => key r = k') =
      (rows.find? fun r => key r = k').map fun r => if key r = k then update r else r := by
  rw [updated, List.find?_map]
  refine congrArg (Option.map _) (congrArg (fun p => List.find? p rows) (funext fun r => ?_))
  rw [Function.comp_apply, apply_ite key, hkey, ite_self]

/-- An upsert sets one key, to the new row or to the update of the row that was there. -/
theorem find_upsert {row : ρ} {update : ρ → ρ} {hkey : ∀ r, key (update r) = key r} (k : κ) :
    (t.upsert row update hkey).find k =
      if k = key row then some ((t.find k).elim row update) else t.find k := by
  rw [upsert]
  split_ifs with hmem hk hk
  · subst hk
    obtain ⟨r, hr, hrow⟩ := List.mem_map.mp hmem
    rw [find, find_updated hkey, ← hrow, ← find, find_of_mem hr, Option.map_some, if_pos rfl,
      Option.elim_some]
  · rw [find, find_updated hkey, ← find]
    cases hfind : t.find k with
    | none => rfl
    | some r =>
      rw [Option.map_some, if_neg fun h => hk ((find_eq_some hfind).2.symm.trans h)]
  · subst hk
    rw [find_eq_none.mpr hmem, Option.elim_none, find, List.find?_append, ← find,
      find_eq_none.mpr hmem]
    simp
  · rw [find, List.find?_append, ← find]
    simp [Ne.symm hk]

end

end Table

/-! ## The map after a log of writes -/

section
variable {κ α : Type*}

/-- The newest write of the key `k` in the log is `v`. -/
def Newest (log : List (κ × Option α)) (k : κ) (v : Option α) : Prop :=
  ∃ before after, log = before ++ (k, v) :: after ∧ k ∉ after.map Prod.fst

theorem newest_concat {log : List (κ × Option α)} {w : κ × Option α} {k : κ} {v : Option α} :
    Newest (log ++ [w]) k v ↔ w = (k, v) ∨ w.1 ≠ k ∧ Newest log k v := by
  constructor
  · rintro ⟨before, after, heq, hnot⟩
    rcases List.eq_nil_or_concat after with rfl | ⟨after, u, rfl⟩
    · exact .inl (List.head_eq_of_cons_eq (List.append_inj' heq rfl).2)
    · rw [List.concat_eq_append, ← List.cons_append, ← List.append_assoc] at heq
      obtain ⟨hlog, hw⟩ := List.append_inj' heq rfl
      rw [List.map_concat, List.concat_eq_append, List.mem_append, not_or,
        List.mem_singleton] at hnot
      obtain rfl : w = u := List.head_eq_of_cons_eq hw
      exact .inr ⟨fun h => hnot.2 h.symm, before, after, hlog, hnot.1⟩
  · rintro (rfl | ⟨hne, before, after, rfl, hnot⟩)
    · exact ⟨log, [], rfl, List.not_mem_nil⟩
    · refine ⟨before, after ++ [w], by simp, ?_⟩
      rw [List.map_append, List.mem_append, not_or, List.map_singleton, List.mem_singleton]
      exact ⟨hnot, hne.symm⟩

/-- Writes of other keys leave the newest write as it is. -/
theorem newest_append {log more : List (κ × Option α)} {k : κ} {v : Option α}
    (h : k ∉ more.map Prod.fst) : Newest (log ++ more) k v ↔ Newest log k v := by
  induction more using List.reverseRecOn with
  | nil => rw [List.append_nil]
  | append_singleton more w ih =>
    rw [List.map_append, List.mem_append, not_or, List.map_singleton, List.mem_singleton] at h
    rw [← List.append_assoc, newest_concat, ih h.1]
    constructor
    · rintro (rfl | ⟨-, hw⟩)
      · exact absurd rfl h.2
      · exact hw
    · exact fun hw => .inr ⟨fun heq => h.2 heq.symm, hw⟩

variable [DecidableEq κ]

/-- The map a log of writes leaves, where a write of `none` deletes. -/
def replay (log : List (κ × Option α)) : κ → Option α :=
  log.foldl (fun m w => Function.update m w.1 w.2) fun _ => none

theorem replay_concat (log : List (κ × Option α)) (w : κ × Option α) :
    replay (log ++ [w]) = Function.update (replay log) w.1 w.2 := by
  rw [replay, List.foldl_append, List.foldl_cons, List.foldl_nil, replay]

/-- What a log leaves under a key is its newest write, and nothing without one. -/
theorem replay_eq_some_iff {log : List (κ × Option α)} {k : κ} {a : α} :
    replay log k = some a ↔ Newest log k (some a) := by
  induction log using List.reverseRecOn with
  | nil =>
    constructor
    · intro h
      cases h
    · rintro ⟨before, after, heq, -⟩
      exact absurd heq.symm (by simp)
  | append_singleton log w ih =>
    rw [replay_concat, newest_concat, Function.update_apply, ← ih]
    obtain ⟨k', v⟩ := w
    by_cases h : k = k'
    · subst h
      simp
    · simp [h, Ne.symm h]

end

end Shadownet.Foundation
