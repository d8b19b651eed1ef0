import Shadownet.Foundation.Canonical

/-!
# Repeated members, and values over other strings and numbers

A document may repeat a name; a parser keeps the last member, in the place of the first
(`merged`). Two languages hold strings and numbers in their own types: `map` carries a value
from one to another.

* `lookup_keepLast`: what a name stands for after the merge.
* `merged_map_agrees`: a map that fixes the names and strings which survive the merge may be
  applied before it.
* `text_map`: the text of a mapped value.
-/

namespace Shadownet.Foundation

namespace Json

/-! ## Members -/

section
variable {σ β γ : Type} [DecidableEq σ]

/-- Sets a member: a name that is there keeps its place, a new one goes to the end. -/
def setMember (ms : List (σ × β)) (k : σ) (v : β) : List (σ × β) :=
  match ms with
  | [] => [(k, v)]
  | m :: ms => if m.1 = k then (k, v) :: ms else m :: setMember ms k v

/-- The members after each was set in turn. -/
def keepLast (ms : List (σ × β)) : List (σ × β) :=
  ms.foldl (fun acc m => setMember acc m.1 m.2) []

theorem keepLast_concat (ms : List (σ × β)) (m : σ × β) :
    keepLast (ms ++ [m]) = setMember (keepLast ms) m.1 m.2 := by
  simp [keepLast]

theorem map_fst_setMember (ms : List (σ × β)) (k : σ) (v : β) :
    (setMember ms k v).map Prod.fst =
      if k ∈ ms.map Prod.fst then ms.map Prod.fst else ms.map Prod.fst ++ [k] := by
  induction ms with
  | nil => rfl
  | cons m ms ih =>
    by_cases hk : m.1 = k
    · simp [setMember, hk]
    · have hk' : ¬ k = m.1 := fun h => hk h.symm
      rw [setMember, if_neg hk, List.map_cons, ih, List.map_cons]
      by_cases hin : k ∈ ms.map Prod.fst
      · rw [if_pos hin, if_pos (List.mem_cons_of_mem _ hin)]
      · rw [if_neg hin, if_neg (by simp only [List.mem_cons, not_or]; exact ⟨hk', hin⟩),
          List.cons_append]

theorem mem_setMember {ms : List (σ × β)} {k : σ} {v : β} {m : σ × β}
    (h : m ∈ setMember ms k v) : m = (k, v) ∨ m ∈ ms := by
  induction ms with
  | nil => exact .inl (by simpa [setMember] using h)
  | cons n ms ih =>
    unfold setMember at h
    split_ifs at h with hk
    · rcases List.mem_cons.mp h with h | h
      · exact .inl h
      · exact .inr (List.mem_cons_of_mem _ h)
    · rcases List.mem_cons.mp h with h | h
      · exact .inr (by simp [h])
      · rcases ih h with h | h
        · exact .inl h
        · exact .inr (List.mem_cons_of_mem _ h)

theorem lookup_setMember [BEq σ] [LawfulBEq σ] (ms : List (σ × β)) (k k' : σ) (v : β) :
    (setMember ms k v).lookup k' = if k' = k then some v else ms.lookup k' := by
  induction ms with
  | nil =>
    by_cases h : k' = k
    · simp [setMember, h]
    · simp [setMember, h, List.lookup_cons, beq_false_of_ne h]
  | cons m ms ih =>
    obtain ⟨l, w⟩ := m
    by_cases hk : l = k
    · subst hk
      rw [setMember, if_pos rfl]
      by_cases h : k' = l
      · simp [h]
      · rw [List.lookup_cons, List.lookup_cons, beq_false_of_ne h, if_neg h]
    · rw [setMember, if_neg hk, List.lookup_cons, List.lookup_cons, ih]
      by_cases h : k' = l
      · have hne : k' ≠ k := fun hkk => hk (h.symm.trans hkk)
        simp [h, hk]
      · rw [beq_false_of_ne h]

theorem nodup_keepLast (ms : List (σ × β)) : ((keepLast ms).map Prod.fst).Nodup := by
  induction ms using List.reverseRecOn with
  | nil => exact List.nodup_nil
  | append_singleton ms m ih =>
    rw [keepLast_concat, map_fst_setMember]
    split_ifs with hk
    · exact ih
    · exact List.nodup_append.mpr ⟨ih, by simp, by grind⟩

theorem mem_of_mem_keepLast {ms : List (σ × β)} {m : σ × β} (h : m ∈ keepLast ms) : m ∈ ms := by
  induction ms using List.reverseRecOn with
  | nil => cases h
  | append_singleton ms n ih =>
    rw [keepLast_concat] at h
    rcases mem_setMember h with rfl | h
    · simp
    · exact List.mem_append_left _ (ih h)

/-- A name stands for its last value. -/
theorem lookup_keepLast [BEq σ] [LawfulBEq σ] (ms : List (σ × β)) (k : σ) :
    (keepLast ms).lookup k = ms.reverse.lookup k := by
  induction ms using List.reverseRecOn with
  | nil => rfl
  | append_singleton ms m ih =>
    obtain ⟨l, v⟩ := m
    rw [keepLast_concat, lookup_setMember, ih, List.reverse_append]
    simp only [List.reverse_singleton, List.singleton_append]
    by_cases h : k = l
    · simp [h]
    · rw [List.lookup_cons, beq_false_of_ne h, if_neg h]

theorem mem_keepLast_keys {ms : List (σ × β)} {k : σ} :
    k ∈ (keepLast ms).map Prod.fst ↔ k ∈ ms.map Prod.fst := by
  rw [← lookup_isSome_iff, lookup_keepLast, lookup_isSome_iff, List.map_reverse,
    List.mem_reverse]

theorem lookup_map_snd [BEq σ] [LawfulBEq σ] (f : β → γ) (ms : List (σ × β)) (k : σ) :
    (ms.map fun m => (m.1, f m.2)).lookup k = (ms.lookup k).map f := by
  induction ms with
  | nil => rfl
  | cons m ms ih =>
    obtain ⟨l, v⟩ := m
    by_cases h : k = l
    · simp [h]
    · rw [List.map_cons, List.lookup_cons, List.lookup_cons, beq_false_of_ne h]
      exact ih

/-- Members with distinct names are kept as they are. -/
theorem keepLast_of_nodup {ms : List (σ × β)} (h : (ms.map Prod.fst).Nodup) :
    keepLast ms = ms := by
  have hset : ∀ (ns : List (σ × β)) (k : σ) (v : β), k ∉ ns.map Prod.fst →
      setMember ns k v = ns ++ [(k, v)] := by
    intro ns k v hk
    induction ns with
    | nil => rfl
    | cons n ns ih =>
      rw [List.map_cons, List.mem_cons, not_or] at hk
      rw [setMember, if_neg (Ne.symm hk.1), ih hk.2, List.cons_append]
  induction ms using List.reverseRecOn with
  | nil => rfl
  | append_singleton ms m ih =>
    rw [List.map_append, List.nodup_append] at h
    have hm : m.1 ∉ ms.map Prod.fst := fun hin => h.2.2 _ hin m.1 (by simp) rfl
    rw [keepLast_concat, ih h.1, hset ms _ _ hm]

end

/-! ## Merging -/

section
variable {σ ν : Type} [DecidableEq σ]

mutual

/-- The value, with the last of several members of one name. -/
def merged : Json σ ν → Json σ ν
  | .null => .null
  | .bool b => .bool b
  | .num n => .num n
  | .str s => .str s
  | .arr items => .arr (mergedItems items)
  | .obj members => .obj (keepLast (mergedMembers members))

def mergedItems : List (Json σ ν) → List (Json σ ν)
  | [] => []
  | v :: vs => merged v :: mergedItems vs

def mergedMembers : List (σ × Json σ ν) → List (σ × Json σ ν)
  | [] => []
  | (k, v) :: ms => (k, merged v) :: mergedMembers ms

end

theorem merged_arr (items : List (Json σ ν)) : merged (.arr items) = .arr (items.map merged) := by
  have h : mergedItems items = items.map merged := by
    induction items with
    | nil => rfl
    | cons v vs ih => rw [mergedItems, ih, List.map_cons]
  rw [merged, h]

theorem merged_obj (members : List (σ × Json σ ν)) :
    merged (.obj members) = .obj (keepLast (members.map fun m => (m.1, m.2.merged))) := by
  have h : mergedMembers members = members.map fun m => (m.1, m.2.merged) := by
    induction members with
    | nil => rfl
    | cons m ms ih =>
      obtain ⟨k, v⟩ := m
      rw [mergedMembers, ih, List.map_cons]
  rw [merged, h]

theorem distinct_merged (v : Json σ ν) : v.merged.Distinct := by
  induction v using Json.ind with
  | arr items ih =>
    rw [merged_arr, distinct_arr, List.forall_mem_map]
    exact ih
  | obj members ih =>
    rw [merged_obj, distinct_obj]
    refine ⟨nodup_keepLast _, fun m hm => ?_⟩
    obtain ⟨n, hn, rfl⟩ := List.mem_map.mp (mem_of_mem_keepLast hm)
    exact ih n hn
  | _ => trivial

/-- What holds of every string and number holds of those that are left. -/
theorem forall_merged {P : ν → Prop} {Q : σ → Prop} {v : Json σ ν}
    (hv : v.Forall P Q (fun _ => True)) : v.merged.Forall P Q (fun _ => True) := by
  induction v using Json.ind with
  | arr items ih =>
    rw [forall_arr] at hv
    rw [merged_arr, forall_arr, List.forall_mem_map]
    exact fun v hmem => ih v hmem (hv v hmem)
  | obj members ih =>
    rw [forall_obj] at hv
    rw [merged_obj, forall_obj]
    refine ⟨trivial, fun m hm => ?_⟩
    obtain ⟨n, hn, rfl⟩ := List.mem_map.mp (mem_of_mem_keepLast hm)
    exact ⟨(hv.2 n hn).1, ih n hn (hv.2 n hn).2⟩
  | _ => exact hv

/-- A value without repeated names is its own merge. -/
theorem merged_of_distinct {v : Json σ ν} (h : v.Distinct) : v.merged = v := by
  induction v using Json.ind with
  | arr items ih =>
    rw [distinct_arr] at h
    rw [merged_arr]
    congr 1
    conv_rhs => rw [← List.map_id items]
    exact List.map_congr_left fun v hv => ih v hv (h v hv)
  | obj members ih =>
    rw [distinct_obj] at h
    have hmap : (members.map fun m => (m.1, m.2.merged)) = members := by
      conv_rhs => rw [← List.map_id members]
      exact List.map_congr_left fun m hm => Prod.ext rfl (ih m hm (h.2 m hm))
    rw [merged_obj, hmap, keepLast_of_nodup h.1]
  | _ => rfl

end

/-! ## Mapping -/

section
variable {σ τ ν μ : Type} (f : σ → τ) (g : ν → μ)

mutual

/-- The value over other strings and numbers. -/
def map : Json σ ν → Json τ μ
  | .null => .null
  | .bool b => .bool b
  | .num n => .num (g n)
  | .str s => .str (f s)
  | .arr items => .arr (mapItems items)
  | .obj members => .obj (mapMembers members)

def mapItems : List (Json σ ν) → List (Json τ μ)
  | [] => []
  | v :: vs => map v :: mapItems vs

def mapMembers : List (σ × Json σ ν) → List (τ × Json τ μ)
  | [] => []
  | (k, v) :: ms => (f k, map v) :: mapMembers ms

end

theorem map_arr (items : List (Json σ ν)) :
    (Json.arr items).map f g = .arr (items.map (map f g)) := by
  have h : mapItems f g items = items.map (map f g) := by
    induction items with
    | nil => rfl
    | cons v vs ih => rw [mapItems, ih, List.map_cons]
  rw [map, h]

theorem map_obj (members : List (σ × Json σ ν)) :
    (Json.obj members).map f g = .obj (members.map fun m => (f m.1, m.2.map f g)) := by
  have h : mapMembers f g members = members.map fun m => (f m.1, m.2.map f g) := by
    induction members with
    | nil => rfl
    | cons m ms ih =>
      obtain ⟨k, v⟩ := m
      rw [mapMembers, ih, List.map_cons]
  rw [map, h]

variable {f g} {P : μ → Prop} {Q : τ → Prop} {R : List τ → Prop}

theorem forall_map {v : Json σ ν} :
    (v.map f g).Forall P Q R ↔
      v.Forall (fun n => P (g n)) (fun s => Q (f s)) (fun ks => R (ks.map f)) := by
  induction v using Json.ind with
  | arr items ih =>
    rw [map_arr, forall_arr, forall_arr, List.forall_mem_map]
    exact forall₂_congr ih
  | obj members ih =>
    rw [map_obj, forall_obj, forall_obj, List.forall_mem_map, List.map_map, List.map_map]
    exact and_congr Iff.rfl (forall₂_congr fun m hm => and_congr_right fun _ => ih m hm)
  | _ => rfl

/-- Two maps that agree on the strings and numbers of a value, and conversely. -/
theorem map_eq_map_iff {f' : σ → τ} {g' : ν → μ} {v : Json σ ν} :
    v.map f g = v.map f' g' ↔
      v.Forall (fun n => g n = g' n) (fun s => f s = f' s) (fun _ => True) := by
  induction v using Json.ind with
  | null => simp [map, Forall]
  | bool b => simp [map, Forall]
  | num n => simp [map, Forall]
  | str s => simp [map, Forall]
  | arr items ih =>
    rw [map_arr, map_arr, forall_arr, Json.arr.injEq, List.map_inj_left]
    exact forall₂_congr ih
  | obj members ih =>
    rw [map_obj, map_obj, forall_obj, Json.obj.injEq, List.map_inj_left]
    simp only [Prod.mk.injEq, true_and]
    exact forall₂_congr fun m hm => and_congr_right fun _ => ih m hm

theorem map_map {τ' μ' : Type} (f' : τ → τ') (g' : μ → μ') (v : Json σ ν) :
    (v.map f g).map f' g' = v.map (f' ∘ f) (g' ∘ g) := by
  induction v using Json.ind with
  | arr items ih =>
    rw [map_arr, map_arr, map_arr, List.map_map]
    exact congrArg Json.arr (List.map_congr_left ih)
  | obj members ih =>
    rw [map_obj, map_obj, map_obj, List.map_map]
    exact congrArg Json.obj (List.map_congr_left fun m hm => Prod.ext rfl (ih m hm))
  | _ => rfl

theorem map_id (v : Json σ ν) : v.map id id = v := by
  induction v using Json.ind with
  | arr items ih =>
    rw [map_arr]
    exact congrArg Json.arr ((List.map_congr_left ih).trans (List.map_id items))
  | obj members ih =>
    rw [map_obj]
    refine congrArg Json.obj (Eq.trans (List.map_congr_left fun m hm => ?_) (List.map_id members))
    exact Prod.ext rfl (ih m hm)
  | _ => rfl

/-- Names that a map keeps apart stay distinct. -/
theorem distinct_map {Q : σ → Prop} (hf : ∀ a b, Q a → Q b → f a = f b → a = b) {v : Json σ ν}
    (h : v.Forall (fun _ => True) Q List.Nodup) : (v.map f g).Distinct := by
  rw [Distinct, forall_map]
  induction v using Json.ind with
  | arr items ih =>
    rw [forall_arr] at h ⊢
    exact fun v hv => ih v hv (h v hv)
  | obj members ih =>
    rw [forall_obj] at h ⊢
    refine ⟨List.Nodup.map_on ?_ h.1, fun m hm => ⟨trivial, ih m hm (h.2 m hm).2⟩⟩
    intro a ha b hb
    obtain ⟨m, hm, rfl⟩ := List.mem_map.mp ha
    obtain ⟨n, hn, rfl⟩ := List.mem_map.mp hb
    exact hf _ _ (h.2 m hm).1 (h.2 n hn).1
  | _ => trivial

/-- The text of a mapped value. -/
theorem text_map (L : Lexemes τ μ) (v : Json σ ν) :
    (v.map f g).text L = v.text ⟨fun s => L.str (f s), fun n => L.num (g n)⟩ := by
  induction v using Json.ind with
  | null => rfl
  | bool b => cases b <;> rfl
  | num n => rfl
  | str s => rfl
  | arr items ih =>
    rw [map_arr, text_arr, text_arr, List.map_map]
    exact congrArg (fun ts => 91 :: (List.intercalate [44] ts ++ [93])) (List.map_congr_left ih)
  | obj members ih =>
    rw [map_obj, text_obj, text_obj, List.map_map]
    refine congrArg (fun ts => 123 :: (List.intercalate [44] ts ++ [125]))
      (List.map_congr_left fun m hm => ?_)
    simp only [Function.comp_apply, memberText, ih m hm]

/-- Two ways to write strings and numbers that agree on those of a value. -/
theorem text_congr {L L' : Lexemes σ ν} {v : Json σ ν}
    (hv : v.Forall (fun n => L.num n = L'.num n) (fun s => L.str s = L'.str s)
      (fun _ => True)) : v.text L = v.text L' := by
  have hmap := map_eq_map_iff.mpr hv
  have hL := text_map (f := L.str) (g := L.num) ⟨id, id⟩ v
  have hL' := text_map (f := L'.str) (g := L'.num) ⟨id, id⟩ v
  rw [hmap, hL'] at hL
  exact hL.symm

/-- A map that keeps the order of names may be applied before sorting. -/
theorem sorted_map {le : σ → σ → Prop} [DecidableRel le] {le' : τ → τ → Prop} [DecidableRel le']
    {Q : σ → Prop} (hle : ∀ a b, Q a → Q b → (le a b ↔ le' (f a) (f b))) {v : Json σ ν}
    (hv : v.Forall (fun _ => True) Q (fun _ => True)) :
    (v.map f g).sorted le' = (v.sorted le).map f g := by
  induction v using Json.ind with
  | arr items ih =>
    rw [forall_arr] at hv
    rw [map_arr, sorted, sorted, sortedItems_eq, sortedItems_eq, map_arr, List.map_map,
      List.map_map]
    exact congrArg Json.arr (List.map_congr_left fun v hmem => ih v hmem (hv v hmem))
  | obj members ih =>
    rw [forall_obj] at hv
    have hsort := List.map_insertionSort (memberLe le) (memberLe le')
      (fun m : σ × Json σ ν => (f m.1, m.2.map f g))
      (members.map fun m => (m.1, m.2.sorted le)) (by
        intro a ha b hb
        obtain ⟨m, hm, rfl⟩ := List.mem_map.mp ha
        obtain ⟨n, hn, rfl⟩ := List.mem_map.mp hb
        exact hle _ _ (hv.2 m hm).1 (hv.2 n hn).1)
    rw [map_obj, sorted, sorted, sortedMembers_eq, sortedMembers_eq, map_obj, hsort, List.map_map,
      List.map_map]
    refine congrArg (fun ms => Json.obj (ms.insertionSort (memberLe le')))
      (List.map_congr_left fun m hm => ?_)
    exact Prod.ext rfl (ih m hm (hv.2 m hm).2)
  | _ => rfl

variable [DecidableEq σ] [DecidableEq τ]

/-- A map that keeps names apart may be applied before merging. -/
theorem merged_map {Q : σ → Prop} (hf : ∀ a b, Q a → Q b → f a = f b → a = b) {v : Json σ ν}
    (hv : v.Forall (fun _ => True) Q (fun _ => True)) :
    (v.map f g).merged = v.merged.map f g := by
  have hset : ∀ (ms : List (σ × Json σ ν)) (k : σ) (w : Json σ ν), (∀ m ∈ ms, Q m.1) → Q k →
      setMember (ms.map fun m => (f m.1, m.2.map f g)) (f k) (w.map f g) =
        (setMember ms k w).map fun m => (f m.1, m.2.map f g) := by
    intro ms k w hms hk
    induction ms with
    | nil => rfl
    | cons m ms ih =>
      have hiff : f m.1 = f k ↔ m.1 = k :=
        ⟨hf _ _ (hms m (by simp)) hk, fun h => congrArg f h⟩
      rw [List.map_cons, setMember, setMember]
      simp only [hiff]
      split_ifs with h
      · rfl
      · rw [List.map_cons, ih fun n hn => hms n (by simp [hn])]
  have hlast : ∀ ms : List (σ × Json σ ν), (∀ m ∈ ms, Q m.1) →
      keepLast (ms.map fun m => (f m.1, m.2.map f g)) =
        (keepLast ms).map fun m => (f m.1, m.2.map f g) := by
    intro ms hms
    induction ms using List.reverseRecOn with
    | nil => rfl
    | append_singleton ms m ih =>
      have hms' : ∀ n ∈ ms, Q n.1 := fun n hn => hms n (by simp [hn])
      rw [List.map_append, List.map_singleton, keepLast_concat, keepLast_concat, ih hms',
        hset _ _ _ (fun n hn => hms' n (mem_of_mem_keepLast hn)) (hms m (by simp))]
  induction v using Json.ind with
  | arr items ih =>
    rw [forall_arr] at hv
    rw [map_arr, merged_arr, merged_arr, map_arr, List.map_map, List.map_map]
    exact congrArg Json.arr (List.map_congr_left fun v hmem => ih v hmem (hv v hmem))
  | obj members ih =>
    rw [forall_obj] at hv
    have hms : (members.map fun m => (f m.1, m.2.map f g)).map (fun m => (m.1, m.2.merged)) =
        (members.map fun m => (m.1, m.2.merged)).map fun m => (f m.1, m.2.map f g) := by
      rw [List.map_map, List.map_map]
      exact List.map_congr_left fun m hm => Prod.ext rfl (ih m hm (hv.2 m hm).2)
    rw [map_obj, merged_obj, merged_obj, map_obj, hms, hlast]
    intro m hm
    obtain ⟨n, hn, rfl⟩ := List.mem_map.mp hm
    exact (hv.2 n hn).1
  | _ => rfl

omit [DecidableEq τ] in
/-- A map of strings that fixes all that is left after the merge may be applied before it. -/
theorem merged_map_agrees [BEq σ] [LawfulBEq σ] {f : σ → σ} {v : Json σ ν}
    (hv : v.merged.Forall (fun _ => True) (fun s => f s = s) (fun _ => True)) :
    (v.map f id).merged.Agrees v.merged := by
  induction v using Json.ind with
  | null => trivial
  | bool b => exact rfl
  | num n => exact rfl
  | str s => exact hv
  | arr items ih =>
    rw [merged_arr, forall_arr, List.forall_mem_map] at hv
    rw [map_arr, merged_arr, merged_arr, Agrees, itemsAgree_iff, List.map_map,
      List.forall₂_map_left_iff, List.forall₂_map_right_iff]
    exact List.forall₂_same.mpr fun v hmem => ih v hmem (hv v hmem)
  | obj members ih =>
    rw [merged_obj, forall_obj] at hv
    -- Every name survives, and so is fixed; of the values only the last ones do.
    have hnames : ∀ m ∈ members, f m.1 = m.1 := by
      intro m hm
      have hin : m.1 ∈ (keepLast (members.map fun m => (m.1, m.2.merged))).map Prod.fst := by
        rw [mem_keepLast_keys, List.map_map]
        exact List.mem_map_of_mem (f := Prod.fst) hm
      obtain ⟨n, hn, heq⟩ := List.mem_map.mp hin
      rw [← heq]
      exact (hv.2 n hn).1
    have hms : ((members.map fun m => (f m.1, m.2.map f id)).map fun m => (m.1, m.2.merged)) =
        members.map fun m => (m.1, (m.2.map f id).merged) := by
      rw [List.map_map]
      exact List.map_congr_left fun m hm => Prod.ext (hnames m hm) rfl
    rw [map_obj, merged_obj, merged_obj, hms,
      agrees_obj_iff (nodup_keepLast _) (nodup_keepLast _)]
    intro k
    rw [lookup_keepLast, lookup_keepLast, ← List.map_reverse, ← List.map_reverse,
      lookup_map_snd (fun w : Json σ ν => (w.map f id).merged), lookup_map_snd]
    cases hk : members.reverse.lookup k with
    | none => exact .none
    | some w =>
      have hmem : (k, w) ∈ members := List.mem_reverse.mp (mem_of_lookup hk)
      have hlook : (keepLast (members.map fun m => (m.1, m.2.merged))).lookup k =
          some w.merged := by
        rw [lookup_keepLast, ← List.map_reverse, lookup_map_snd, hk]
        rfl
      exact .some (ih (k, w) hmem (hv.2 _ (mem_of_lookup hlook)).2)

end

end Json

end Shadownet.Foundation
