import Shadownet.Python.Json

/-!
# Objects that `json.loads` reads

The decoder keeps the last member of each name, so the names of an object it returns are distinct
(`distinct_jsonLoads`) and the object is a `Dict`. `responseObject` is the pattern
`body = response.json()` with `isinstance(body, dict)` after it.
-/

namespace Shadownet.Python

open Foundation

variable {J : JsonRuntime}

theorem distinct_setMembers {ms : List (Text × Value)} {k : Text} {v : Value}
    (hms : (Json.obj ms).Distinct) (hv : v.Distinct) :
    (Json.obj (Dict.setMembers ms k v)).Distinct := by
  rw [Json.distinct_obj] at hms ⊢
  refine ⟨?_, fun m hm => ?_⟩
  · rw [Dict.map_fst_setMembers]
    split_ifs with hk
    · exact hms.1
    · rw [← List.concat_eq_append]
      exact hms.1.concat hk
  · rcases Dict.mem_setMembers hm with rfl | hm
    · exact hv
    · exact hms.2 m hm

theorem distinct_nil : (Json.obj ([] : List (Text × Value))).Distinct :=
  Json.distinct_obj.mpr ⟨List.nodup_nil, fun _ hm => absurd hm List.not_mem_nil⟩

theorem distinct_scanWord {word : String} {w v : Value} {s rest : Text} (hw : w.Distinct)
    (h : scanWord word w s = .ok (v, rest)) : v.Distinct := by
  rw [scanWord] at h
  split_ifs at h
  cases h
  exact hw

theorem distinct_scanNumber {v : Value} {s rest : Text} (h : scanNumber J s = .ok (v, rest)) :
    v.Distinct := by
  simp only [scanNumber] at h
  split at h
  · cases h
  · split_ifs at h <;> cases h <;> trivial

/-- The values that are neither a string, nor an object, nor an array. -/
theorem distinct_scalar {c : CodePoint} {s : Text} {v : Value} {rest : Text}
    (h : (if c.val = 110 then scanWord "null" .null (c :: s)
      else if c.val = 116 then scanWord "true" (.bool true) (c :: s)
      else if c.val = 102 then scanWord "false" (.bool false) (c :: s)
      else if c.val = 78 then scanWord "NaN" (.num (.float 0x7FF8000000000000)) (c :: s)
      else if c.val = 73 then scanWord "Infinity" (.num (.float 0x7FF0000000000000)) (c :: s)
      else if (text "-Infinity").isPrefixOf (c :: s) then
        scanWord "-Infinity" (.num (.float 0xFFF0000000000000)) (c :: s)
      else scanNumber J (c :: s)) = .ok (v, rest)) : v.Distinct := by
  have hword : ∀ {p : Prop} [Decidable p] {word : String} {w : Value}
      {x : Except ReadError (Value × Text)}, w.Distinct → (x = .ok (v, rest) → v.Distinct) →
      (if p then scanWord word w (c :: s) else x) = .ok (v, rest) → v.Distinct := by
    intro p _ word w x hw hx h
    by_cases hp : p
    · rw [if_pos hp] at h
      exact distinct_scanWord hw h
    · rw [if_neg hp] at h
      exact hx h
  revert h
  exact hword trivial (hword trivial (hword trivial (hword trivial (hword trivial
    (hword trivial distinct_scanNumber)))))

/-- The three scanners return values whose names are distinct. -/
theorem distinct_scan (fuel : Nat) :
    (∀ {s v rest}, scanOnce J fuel s = .ok (v, rest) → v.Distinct) ∧
    (∀ {acc s v rest}, (∀ w ∈ acc, Json.Distinct w) → scanItems J fuel acc s = .ok (v, rest) →
      v.Distinct) ∧
    (∀ {acc s v rest}, (Json.obj acc).Distinct → scanMembers J fuel acc s = .ok (v, rest) →
      v.Distinct) := by
  induction fuel with
  | zero =>
    refine ⟨fun h => ?_, fun _ h => ?_, fun _ h => ?_⟩
    · rw [scanOnce] at h
      cases h
    · rw [scanItems] at h
      cases h
    · rw [scanMembers] at h
      cases h
  | succ fuel ih =>
    obtain ⟨honce, hitems, hmembers⟩ := ih
    refine ⟨fun {s v rest} h => ?_, fun {acc s v rest} hacc h => ?_,
      fun {acc s v rest} hacc h => ?_⟩
    · cases s with
      | nil =>
        unfold scanOnce at h
        cases h
      | cons c s =>
        rw [scanOnce] at h
        by_cases hstr : c.val = 34
        · rw [if_pos hstr] at h
          obtain ⟨⟨t, rest'⟩, -, ht⟩ := bind_eq_ok.mp h
          cases ht
          trivial
        rw [if_neg hstr] at h
        by_cases hobj : c.val = 123
        · rw [if_pos hobj] at h
          split at h
          · cases h
            exact distinct_nil
          · exact hmembers distinct_nil h
        rw [if_neg hobj] at h
        by_cases harr : c.val = 91
        · rw [if_pos harr] at h
          split at h
          · cases h
            exact Json.distinct_arr.mpr fun m hm => absurd hm List.not_mem_nil
          · exact hitems (fun m hm => absurd hm List.not_mem_nil) h
        rw [if_neg harr] at h
        exact distinct_scalar h
    · rw [scanItems] at h
      obtain ⟨⟨w, rest'⟩, hw, h⟩ := bind_eq_ok.mp h
      dsimp only at h
      have hall : ∀ x ∈ acc ++ [w], Json.Distinct x :=
        List.forall_mem_append.mpr ⟨hacc, List.forall_mem_singleton.mpr (honce hw)⟩
      split at h
      · exact hitems hall h
      · cases h
        exact Json.distinct_arr.mpr hall
      · cases h
    · unfold scanMembers at h
      split at h
      · obtain ⟨⟨k, rest'⟩, -, h⟩ := bind_eq_ok.mp h
        dsimp only at h
        split at h
        · obtain ⟨⟨w, rest''⟩, hw, h⟩ := bind_eq_ok.mp h
          dsimp only at h
          have hset := @distinct_setMembers acc k w hacc (honce hw)
          split at h
          · exact hmembers hset h
          · cases h
            exact hset
          · cases h
        · cases h
      · cases h

/-- The values `json.loads` returns have distinct names. -/
theorem distinct_jsonLoads {b : Bytes} {v : Value} (h : jsonLoads J b = .ok v) : v.Distinct := by
  obtain ⟨s, -, hs⟩ := bind_eq_ok.mp h
  rw [decodeText] at hs
  split at hs
  · cases hs
  · cases hs
  · next heq =>
    split_ifs at hs
    cases hs
    exact (distinct_scan _).1 heq

/-- A value as a `dict`, if it is one. -/
def asDict : (v : Value) → v.Distinct → Option Dict
  | .obj members, h => some ⟨members, h⟩
  | _, _ => none

/-- `response.json()` of a content, as a `dict` if it is one. -/
def responseObject (J : JsonRuntime) (content : Bytes) : Py (Option Dict) :=
  match h : jsonLoads J content with
  | .error e => .error e
  | .ok v => .ok (asDict v (distinct_jsonLoads h))

theorem responseObject_dict {content : Bytes} {d : Dict}
    (h : jsonLoads J content = .ok (.obj d.members)) :
    responseObject J content = .ok (some d) := by
  unfold responseObject
  split
  · next e he =>
    rw [he] at h
    cases h
  · next v hv =>
    have hobj : v = .obj d.members := Except.ok.inj (hv.symm.trans h)
    subst hobj
    rfl

end Shadownet.Python
