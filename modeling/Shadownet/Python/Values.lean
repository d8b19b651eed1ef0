import Shadownet.Python.Exceptions

/-!
# Python values that come from JSON

What `json.loads` returns: `None`, `bool`, `int` without bound, `float`, `str`, `list` and
`dict`. A `dict` has each key once.
-/

namespace Shadownet.Python

open Foundation

/-- A number: an `int`, or a `float` by its IEEE 754 bits. -/
inductive Number where
  | int (n : Int)
  | float (bits : UInt64)
  deriving DecidableEq, Repr

abbrev Value := Json Text Number

/-- `type(v).__name__`. -/
def typeName : Value → Text
  | .null => text "NoneType"
  | .bool _ => text "bool"
  | .num (.int _) => text "int"
  | .num (.float _) => text "float"
  | .str _ => text "str"
  | .arr _ => text "list"
  | .obj _ => text "dict"

/-- A `dict` whose values are JSON values. -/
structure Dict where
  members : List (Text × Value)
  distinct : (Json.obj members).Distinct
  deriving DecidableEq

namespace Dict

/-- `d.get(k)`, with `none` for a missing key. -/
def get? (d : Dict) (k : Text) : Option Value := d.members.lookup k

def empty : Dict := ⟨[], by simp [Json.distinct_obj]⟩

theorem distinct_get {d : Dict} {k : Text} {v : Value} (h : d.get? k = some v) :
    v.Distinct :=
  (Json.distinct_obj.mp d.distinct).2 _ (Json.mem_of_lookup h)

/-- `d.get(k)` when it is a `dict`. -/
def sub? (d : Dict) (k : Text) : Option Dict :=
  match h : d.get? k with
  | some (.obj members) => some ⟨members, distinct_get h⟩
  | _ => none

theorem sub?_eq_some {d d' : Dict} {k : Text} :
    d.sub? k = some d' ↔ d.get? k = some (.obj d'.members) := by
  unfold sub?
  split
  · next ms h =>
    constructor
    · intro hd
      rw [← Option.some.inj hd]
      exact h
    · intro hm
      have heq : ms = d'.members := by simpa using h.symm.trans hm
      cases d'
      cases heq
      rfl
  · next hne =>
    constructor
    · intro h
      cases h
    · intro h
      exact absurd h (hne _)

/-- `{k: v for k, v in d.items() if p(k, v)}`. -/
def filter (d : Dict) (p : Text × Value → Bool) : Dict where
  members := d.members.filter p
  distinct := by
    have h := Json.distinct_obj.mp d.distinct
    refine Json.distinct_obj.mpr ⟨h.1.sublist (List.filter_sublist.map _), fun m hm => ?_⟩
    exact h.2 m (List.mem_of_mem_filter hm)

/-- `d[k] = v`: an existing key keeps its place, a new one goes to the end. -/
def setMembers (ms : List (Text × Value)) (k : Text) (v : Value) : List (Text × Value) :=
  match ms with
  | [] => [(k, v)]
  | m :: ms => if m.1 = k then (k, v) :: ms else m :: setMembers ms k v

theorem map_fst_setMembers (ms : List (Text × Value)) (k : Text) (v : Value) :
    (setMembers ms k v).map Prod.fst =
      if k ∈ ms.map Prod.fst then ms.map Prod.fst else ms.map Prod.fst ++ [k] := by
  induction ms with
  | nil => rfl
  | cons m ms ih =>
    by_cases hk : m.1 = k
    · simp [setMembers, hk]
    · have hk' : ¬ k = m.1 := fun h => hk h.symm
      rw [setMembers, if_neg hk, List.map_cons, ih, List.map_cons]
      by_cases hin : k ∈ ms.map Prod.fst
      · rw [if_pos hin, if_pos (List.mem_cons_of_mem _ hin)]
      · rw [if_neg hin, if_neg (by simp only [List.mem_cons, not_or]; exact ⟨hk', hin⟩),
          List.cons_append]

theorem mem_setMembers {ms : List (Text × Value)} {k : Text} {v : Value} {m : Text × Value}
    (h : m ∈ setMembers ms k v) : m = (k, v) ∨ m ∈ ms := by
  induction ms with
  | nil => exact .inl (by simpa [setMembers] using h)
  | cons n ms ih =>
    unfold setMembers at h
    split_ifs at h with hk
    · rcases List.mem_cons.mp h with h | h
      · exact .inl h
      · exact .inr (List.mem_cons_of_mem _ h)
    · rcases List.mem_cons.mp h with h | h
      · exact .inr (by simp [h])
      · rcases ih h with h | h
        · exact .inl h
        · exact .inr (List.mem_cons_of_mem _ h)

def set (d : Dict) (k : Text) (v : Value) (hv : v.Distinct) : Dict where
  members := setMembers d.members k v
  distinct := by
    have h := Json.distinct_obj.mp d.distinct
    refine Json.distinct_obj.mpr ⟨?_, fun m hm => ?_⟩
    · rw [map_fst_setMembers]
      split_ifs with hk
      · exact h.1
      · exact List.nodup_append.mpr ⟨h.1, by simp, by grind⟩
    · rcases mem_setMembers hm with rfl | hm
      · exact hv
      · exact h.2 m hm

theorem lookup_setMembers (ms : List (Text × Value)) (k k' : Text) (v : Value) :
    (setMembers ms k v).lookup k' = if k' = k then some v else ms.lookup k' := by
  induction ms with
  | nil =>
    by_cases h : k' = k
    · simp [setMembers, h]
    · simp [setMembers, h, List.lookup_cons, beq_false_of_ne h]
  | cons m ms ih =>
    obtain ⟨l, w⟩ := m
    by_cases hk : l = k
    · subst hk
      rw [setMembers, if_pos rfl]
      by_cases h : k' = l
      · simp [h]
      · rw [List.lookup_cons, List.lookup_cons, beq_false_of_ne h, if_neg h]
    · rw [setMembers, if_neg hk, List.lookup_cons, List.lookup_cons, ih]
      by_cases h : k' = l
      · have hne : k' ≠ k := fun hkk => hk (h.symm.trans hkk)
        simp [h, hk]
      · rw [beq_false_of_ne h]

theorem get?_set (d : Dict) (k k' : Text) (v : Value) (hv : v.Distinct) :
    (d.set k v hv).get? k' = if k' = k then some v else d.get? k' :=
  lookup_setMembers d.members k k' v

end Dict

end Shadownet.Python
