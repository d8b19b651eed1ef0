import Mathlib.Data.List.DropRight
import Mathlib.Data.List.Dedup
import Shadownet.Foundation.Json

/-!
# The most recent recordings

A log of recordings gives each key a value again and again. `latest` keeps the last
recording of each key, in the order of recording, and `recent n` only the last `n` of
these. It is what a map of bounded size holds whose entries stand in the order of their
last insertion and lose the oldest first.

* `recent_concat`: what one more recording makes of the bounded map.
* `lookup_recent`: a key is held exactly when fewer than `n` other keys were recorded since.
-/

namespace Shadownet.Foundation

variable {κ ν : Type} [DecidableEq κ]

/-- A map without the entries of one key. -/
def forget (k : κ) (m : List (κ × ν)) : List (κ × ν) := m.filter fun e => decide (e.1 ≠ k)

theorem forget_append (k : κ) (m n : List (κ × ν)) : forget k (m ++ n) = forget k m ++ forget k n :=
  List.filter_append ..

theorem forget_of_not_mem {k : κ} {m : List (κ × ν)} (h : k ∉ m.map Prod.fst) : forget k m = m := by
  refine List.filter_eq_self.mpr fun e he => decide_eq_true ?_
  rintro rfl
  exact h (List.mem_map_of_mem he)

theorem mem_keys_forget {k k' : κ} {m : List (κ × ν)} :
    k' ∈ (forget k m).map Prod.fst ↔ k' ∈ m.map Prod.fst ∧ k' ≠ k := by
  simp only [forget, List.mem_map, List.mem_filter, decide_eq_true_eq]
  constructor
  · rintro ⟨e, ⟨he, hne⟩, rfl⟩
    exact ⟨⟨e, he, rfl⟩, hne⟩
  · rintro ⟨⟨e, he, rfl⟩, hne⟩
    exact ⟨e, ⟨he, hne⟩, rfl⟩

theorem nodup_forget_concat {k : κ} {v : ν} {m : List (κ × ν)} (hn : (m.map Prod.fst).Nodup) :
    ((forget k m ++ [(k, v)]).map Prod.fst).Nodup := by
  rw [List.map_append, List.nodup_append]
  refine ⟨hn.sublist (List.filter_sublist.map _), List.nodup_singleton _, ?_⟩
  rintro a ha b hb rfl
  exact (mem_keys_forget.mp ha).2 (List.mem_singleton.mp hb)

/-- In a map that has a key once, forgetting it costs one entry. -/
theorem length_forget {k : κ} {m : List (κ × ν)} (hn : (m.map Prod.fst).Nodup)
    (hk : k ∈ m.map Prod.fst) : (forget k m).length + 1 = m.length := by
  obtain ⟨e, he, rfl⟩ := List.mem_map.mp hk
  obtain ⟨a, b, rfl⟩ := List.append_of_mem he
  rw [List.map_append, List.map_cons] at hn
  have hk := List.nodup_middle.mp hn
  rw [List.nodup_cons, List.mem_append, not_or] at hk
  have hself : forget e.1 [e] = [] := by simp [forget]
  have hb : forget e.1 (e :: b) = b := by
    rw [← List.singleton_append, forget_append, hself, forget_of_not_mem hk.1.2, List.nil_append]
  rw [forget_append, forget_of_not_mem hk.1.1, hb, List.length_append, List.length_append,
    List.length_cons]
  omega

/-- The last recording of each key, in the order of recording. -/
def latest : List (κ × ν) → List (κ × ν)
  | [] => []
  | e :: log => if e.1 ∈ log.map Prod.fst then latest log else e :: latest log

theorem keys_latest (log : List (κ × ν)) :
    (latest log).map Prod.fst = (log.map Prod.fst).dedup := by
  induction log with
  | nil => rfl
  | cons e log ih =>
    rw [latest, List.map_cons]
    by_cases he : e.1 ∈ log.map Prod.fst
    · rw [if_pos he, ih, List.dedup_cons_of_mem he]
    · rw [if_neg he, List.map_cons, ih, List.dedup_cons_of_notMem he]

theorem mem_keys_latest {k : κ} {log : List (κ × ν)} :
    k ∈ (latest log).map Prod.fst ↔ k ∈ log.map Prod.fst := by
  rw [keys_latest, List.mem_dedup]

theorem nodup_latest (log : List (κ × ν)) : ((latest log).map Prod.fst).Nodup := by
  rw [keys_latest]
  exact List.nodup_dedup _

theorem latest_concat (log : List (κ × ν)) (k : κ) (v : ν) :
    latest (log ++ [(k, v)]) = forget k (latest log) ++ [(k, v)] := by
  induction log with
  | nil => rfl
  | cons e log ih =>
    have hmem : e.1 ∈ (log ++ [(k, v)]).map Prod.fst ↔ e.1 ∈ log.map Prod.fst ∨ e.1 = k := by
      rw [List.map_append, List.mem_append]
      simp
    rw [List.cons_append, latest, latest, ih]
    by_cases hlog : e.1 ∈ log.map Prod.fst
    · rw [if_pos (hmem.mpr (.inl hlog)), if_pos hlog]
    · by_cases hk : e.1 = k
      · rw [if_pos (hmem.mpr (.inr hk)), if_neg hlog]
        simp [forget, hk]
      · rw [if_neg fun h => (hmem.mp h).elim hlog hk, if_neg hlog]
        simp [forget, hk]

/-- The last `n` of the keys, by their last recording. -/
def recent (n : Nat) (log : List (κ × ν)) : List (κ × ν) := (latest log).rtake n

@[simp] theorem recent_nil (n : Nat) : recent n ([] : List (κ × ν)) = [] := List.rtake_nil n

theorem recent_suffix (n : Nat) (log : List (κ × ν)) : recent n log <:+ latest log :=
  List.drop_suffix _ _

theorem nodup_recent (n : Nat) (log : List (κ × ν)) : ((recent n log).map Prod.fst).Nodup :=
  (nodup_latest log).sublist ((recent_suffix n log).sublist.map _)

/-- Every key of the bounded map was recorded. -/
theorem mem_keys_of_recent {n : Nat} {k : κ} {log : List (κ × ν)}
    (h : k ∈ (recent n log).map Prod.fst) : k ∈ log.map Prod.fst :=
  mem_keys_latest.mp (((recent_suffix n log).sublist.map _).subset h)

/-- One more recording: the key moves to the end, and the oldest entry beyond `n` goes. -/
theorem recent_concat {n : Nat} (hn : 0 < n) (log : List (κ × ν)) (k : κ) (v : ν) :
    recent n (log ++ [(k, v)]) = (forget k (recent n log) ++ [(k, v)]).rtake n := by
  obtain ⟨n, rfl⟩ := Nat.exists_eq_add_of_lt hn
  rw [Nat.zero_add, recent, latest_concat, List.rtake_concat_succ, List.rtake_concat_succ]
  congr 1
  -- `latest log` is `old ++ kept`, and only `kept` counts for the last `n`.
  obtain ⟨old, hold⟩ := recent_suffix (n + 1) log
  rw [← hold, forget_append]
  have hkept : n ≤ (forget k (recent (n + 1) log)).length ∨ old = [] := by
    by_cases hlen : (latest log).length ≤ n + 1
    · right
      have hl := congrArg List.length hold
      rw [List.length_append, recent, List.rtake, List.length_drop] at hl
      exact List.length_eq_zero_iff.mp (by omega)
    · left
      have hl : (recent (n + 1) log).length = n + 1 := by
        rw [recent, List.rtake, List.length_drop]
        omega
      by_cases hk : k ∈ (recent (n + 1) log).map Prod.fst
      · have := length_forget (nodup_recent (n + 1) log) hk
        omega
      · rw [forget_of_not_mem hk, hl]
        omega
  rcases hkept with hkept | rfl
  · rw [List.rtake, List.rtake, List.length_append, List.drop_append]
    rw [List.drop_eq_nil_of_le (by omega), List.nil_append]
    congr 1
    omega
  · rfl

theorem latest_append (a b : List (κ × ν)) :
    ∃ a', latest (a ++ b) = a' ++ latest b := by
  induction a with
  | nil => exact ⟨[], rfl⟩
  | cons e a ih =>
    obtain ⟨a', ha'⟩ := ih
    rw [List.cons_append, latest, ha']
    split_ifs
    · exact ⟨a', rfl⟩
    · exact ⟨e :: a', rfl⟩

/-- What the bounded map holds of a key: the last recording, unless `n` other keys came
after it. -/
theorem lookup_recent [BEq κ] [LawfulBEq κ] {n : Nat} {a b : List (κ × ν)} {k : κ} {v : ν}
    (hb : k ∉ b.map Prod.fst) :
    (recent n (a ++ (k, v) :: b)).lookup k =
      if (b.map Prod.fst).dedup.length < n then some v else none := by
  obtain ⟨a', ha'⟩ := latest_append a ((k, v) :: b)
  have hlatest : latest (a ++ (k, v) :: b) = a' ++ (k, v) :: latest b := by
    rw [ha', latest, if_neg hb]
  have hlen : (latest b).length = (b.map Prod.fst).dedup.length := by
    rw [← keys_latest, List.length_map]
  have hnodup := nodup_recent n (a ++ (k, v) :: b)
  have hrecent : recent n (a ++ (k, v) :: b) =
      (a' ++ (k, v) :: latest b).drop ((a' ++ (k, v) :: latest b).length - n) := by
    rw [recent, hlatest, List.rtake]
  rw [List.length_append, List.length_cons] at hrecent
  split_ifs with hlt
  · have hmem : (k, v) ∈ recent n (a ++ (k, v) :: b) := by
      rw [hrecent, List.drop_append_of_le_length (by omega)]
      simp
    exact Json.lookup_of_mem hnodup hmem
  · have hnot : k ∉ (recent n (a ++ (k, v) :: b)).map Prod.fst := by
      intro hk
      rw [hrecent, List.drop_append, List.drop_eq_nil_of_le (by omega), List.nil_append] at hk
      obtain ⟨j, hj⟩ : ∃ j, a'.length + ((latest b).length + 1) - n - a'.length = j + 1 :=
        ⟨(latest b).length - n, by omega⟩
      rw [hj, List.drop_succ_cons] at hk
      have hk' := ((List.drop_suffix j (latest b)).sublist.map Prod.fst).subset hk
      exact hb (mem_keys_latest.mp hk')
    rw [← Option.not_isSome_iff_eq_none, Json.lookup_isSome_iff]
    exact hnot

/-- A key that was recorded has a last recording. -/
theorem mem_last_split {k : κ} {log : List (κ × ν)} (h : k ∈ log.map Prod.fst) :
    ∃ older v newer, log = older ++ (k, v) :: newer ∧ k ∉ newer.map Prod.fst := by
  induction log with
  | nil => cases h
  | cons e log ih =>
    by_cases hlog : k ∈ log.map Prod.fst
    · obtain ⟨older, v, newer, rfl, hnewer⟩ := ih hlog
      exact ⟨e :: older, v, newer, rfl, hnewer⟩
    · obtain ⟨k', v⟩ := e
      rw [List.map_cons, List.mem_cons] at h
      obtain rfl : k = k' := h.resolve_right hlog
      exact ⟨[], v, log, rfl, hlog⟩

end Shadownet.Foundation
