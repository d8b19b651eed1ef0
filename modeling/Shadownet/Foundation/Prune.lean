import Shadownet.Foundation.Merge

/-!
# Values without their empty parts

`pruned` drops nulls, blank strings, and arrays and objects in which nothing is left; it is
`none` when the whole value goes.

* `lookup_prunedMembers`: what a name stands for in the pruned object.
* `pruned_agrees`: values that agree have pruned forms that agree.
* `pruned_map`: pruning before or after a change of strings and numbers.
* `full_pruned`, `pruned_of_full`, `leaves_pruned`: nothing empty is left, a value without empty
  parts stays as it is, and no leaf is lost or moved.
-/

namespace Shadownet.Foundation

namespace Json

section
variable {σ ν : Type} (blank : σ → Bool)

mutual

/-- The value without its empty parts. -/
def pruned : Json σ ν → Option (Json σ ν)
  | .null => none
  | .bool b => some (.bool b)
  | .num n => some (.num n)
  | .str s => if blank s then none else some (.str s)
  | .arr items =>
    match prunedItems items with
    | [] => none
    | v :: vs => some (.arr (v :: vs))
  | .obj members =>
    match prunedMembers members with
    | [] => none
    | m :: ms => some (.obj (m :: ms))

def prunedItems : List (Json σ ν) → List (Json σ ν)
  | [] => []
  | v :: vs =>
    match pruned v with
    | none => prunedItems vs
    | some w => w :: prunedItems vs

def prunedMembers : List (σ × Json σ ν) → List (σ × Json σ ν)
  | [] => []
  | (k, v) :: ms =>
    match pruned v with
    | none => prunedMembers ms
    | some w => (k, w) :: prunedMembers ms

end

theorem prunedItems_eq (items : List (Json σ ν)) :
    prunedItems blank items = items.filterMap (pruned blank) := by
  induction items with
  | nil => rfl
  | cons v vs ih =>
    rw [prunedItems, List.filterMap_cons, ih]
    cases pruned blank v <;> rfl

theorem prunedMembers_eq (members : List (σ × Json σ ν)) :
    prunedMembers blank members =
      members.filterMap fun m => (pruned blank m.2).map (m.1, ·) := by
  induction members with
  | nil => rfl
  | cons m ms ih =>
    obtain ⟨k, v⟩ := m
    rw [prunedMembers, List.filterMap_cons, ih]
    cases pruned blank v <;> rfl

variable {blank}

theorem pruned_arr_eq_some {items : List (Json σ ν)} {w : Json σ ν} :
    pruned blank (.arr items) = some w ↔
      prunedItems blank items ≠ [] ∧ w = .arr (prunedItems blank items) := by
  rw [pruned]
  cases prunedItems blank items with
  | nil => simp
  | cons v vs => simp [eq_comm]

theorem pruned_obj_eq_some {members : List (σ × Json σ ν)} {w : Json σ ν} :
    pruned blank (.obj members) = some w ↔
      prunedMembers blank members ≠ [] ∧ w = .obj (prunedMembers blank members) := by
  rw [pruned]
  cases prunedMembers blank members with
  | nil => simp
  | cons m ms => simp [eq_comm]

/-- What a pruned value was before. -/
theorem pruned_eq_some_iff {v w : Json σ ν} :
    pruned blank v = some w ↔
      (∃ b, v = .bool b ∧ w = .bool b) ∨ (∃ n, v = .num n ∧ w = .num n) ∨
      (∃ s, v = .str s ∧ blank s = false ∧ w = .str s) ∨
      (∃ items, v = .arr items ∧ prunedItems blank items ≠ [] ∧
        w = .arr (prunedItems blank items)) ∨
      (∃ members, v = .obj members ∧ prunedMembers blank members ≠ [] ∧
        w = .obj (prunedMembers blank members)) := by
  cases v with
  | null => simp [pruned]
  | bool b =>
    rw [pruned, Option.some.injEq, eq_comm]
    simp
  | num n =>
    rw [pruned, Option.some.injEq, eq_comm]
    simp
  | str s =>
    rw [pruned]
    cases h : blank s with
    | true => simp [h]
    | false =>
      rw [if_neg (by simp), Option.some.injEq, eq_comm]
      simp [h]
  | arr items => simp [pruned_arr_eq_some]
  | obj members => simp [pruned_obj_eq_some]

/-! ## Names -/

theorem prunedMembers_sublist (members : List (σ × Json σ ν)) :
    ((prunedMembers blank members).map Prod.fst).Sublist (members.map Prod.fst) := by
  induction members with
  | nil => exact .slnil
  | cons m ms ih =>
    obtain ⟨k, v⟩ := m
    rw [prunedMembers]
    cases pruned blank v with
    | none => exact ih.cons k
    | some w => exact ih.cons_cons k

/-- A name stands for the pruned form of its value. -/
theorem lookup_prunedMembers [BEq σ] [LawfulBEq σ] {members : List (σ × Json σ ν)}
    (hn : (members.map Prod.fst).Nodup) (k : σ) :
    (prunedMembers blank members).lookup k = (members.lookup k).bind (pruned blank) := by
  induction members with
  | nil => rfl
  | cons m ms ih =>
    obtain ⟨l, v⟩ := m
    rw [List.map_cons, List.nodup_cons] at hn
    by_cases hk : k = l
    · subst hk
      have hnone : (prunedMembers blank ms).lookup k = none := by
        rw [← Option.not_isSome_iff_eq_none, lookup_isSome_iff]
        exact fun hin => hn.1 ((prunedMembers_sublist ms).subset hin)
      rw [prunedMembers, List.lookup_cons_self, Option.bind_some]
      cases hv : pruned blank v with
      | none => exact hnone
      | some w => exact List.lookup_cons_self
    · rw [prunedMembers, List.lookup_cons, beq_false_of_ne hk, ← ih hn.2]
      cases pruned blank v with
      | none => rfl
      | some w => rw [List.lookup_cons, beq_false_of_ne hk]

/-- What holds of the strings, numbers and names holds of those that are left. -/
theorem forall_pruned {P : ν → Prop} {Q : σ → Prop} {R : List σ → Prop}
    (hR : ∀ {ks ks' : List σ}, ks'.Sublist ks → R ks → R ks') {v w : Json σ ν}
    (hv : v.Forall P Q R) (h : pruned blank v = some w) : w.Forall P Q R := by
  induction v using Json.ind generalizing w with
  | null => cases h
  | bool b =>
    rw [← Option.some.inj h]
    trivial
  | num n =>
    rw [← Option.some.inj h]
    exact hv
  | str s =>
    rw [pruned] at h
    split_ifs at h
    rw [← Option.some.inj h]
    exact hv
  | arr items ih =>
    obtain ⟨-, rfl⟩ := pruned_arr_eq_some.mp h
    rw [forall_arr] at hv
    rw [forall_arr, prunedItems_eq]
    intro w hw
    obtain ⟨v, hmem, hvw⟩ := List.mem_filterMap.mp hw
    exact ih v hmem (hv v hmem) hvw
  | obj members ih =>
    obtain ⟨-, rfl⟩ := pruned_obj_eq_some.mp h
    rw [forall_obj] at hv
    rw [forall_obj]
    refine ⟨hR (prunedMembers_sublist members) hv.1, fun n hn => ?_⟩
    rw [prunedMembers_eq] at hn
    obtain ⟨m, hm, hmn⟩ := List.mem_filterMap.mp hn
    obtain ⟨w, hw, rfl⟩ := Option.map_eq_some_iff.mp hmn
    exact ⟨(hv.2 m hm).1, ih m hm (hv.2 m hm).2 hw⟩

/-- What holds of the strings that are left, of blanks and of all names holds of all strings. -/
theorem forall_of_pruned {P : ν → Prop} {Q : σ → Prop} {R : List σ → Prop}
    (hblank : ∀ s, blank s = true → Q s) {v : Json σ ν}
    (hv : v.Forall P (fun _ => True) fun ks => (∀ k ∈ ks, Q k) ∧ R ks)
    (h : ∀ w, pruned blank v = some w → w.Forall (fun _ => True) Q fun _ => True) :
    v.Forall P Q R := by
  induction v using Json.ind with
  | null => trivial
  | bool b => trivial
  | num n => exact hv
  | str s =>
    cases hs : blank s with
    | true => exact hblank s hs
    | false => exact h (.str s) (by rw [pruned, hs]; rfl)
  | arr items ih =>
    rw [forall_arr] at hv ⊢
    intro v hmem
    refine ih v hmem (hv v hmem) fun w hw => ?_
    have hin : w ∈ prunedItems blank items := by
      rw [prunedItems_eq]
      exact List.mem_filterMap.mpr ⟨v, hmem, hw⟩
    have hall := h _ (pruned_arr_eq_some.mpr ⟨List.ne_nil_of_mem hin, rfl⟩)
    rw [forall_arr] at hall
    exact hall w hin
  | obj members ih =>
    rw [forall_obj] at hv ⊢
    refine ⟨hv.1.2, fun m hm => ⟨hv.1.1 _ (List.mem_map_of_mem hm), ?_⟩⟩
    refine ih m hm (hv.2 m hm).2 fun w hw => ?_
    have hin : (m.1, w) ∈ prunedMembers blank members := by
      rw [prunedMembers_eq]
      exact List.mem_filterMap.mpr ⟨m, hm, by rw [hw]; rfl⟩
    have hall := h _ (pruned_obj_eq_some.mpr ⟨List.ne_nil_of_mem hin, rfl⟩)
    rw [forall_obj] at hall
    exact (hall.2 _ hin).2

theorem distinct_pruned {v w : Json σ ν} (hv : v.Distinct) (h : pruned blank v = some w) :
    w.Distinct :=
  forall_pruned (fun hsub hn => hn.sublist hsub) hv h

/-! ## Agreement -/

theorem nil_iff_lookup {β : Type} [BEq σ] [LawfulBEq σ] {ms : List (σ × β)} :
    ms = [] ↔ ∀ k, ms.lookup k = none := by
  constructor
  · rintro rfl k
    rfl
  · intro h
    cases ms with
    | nil => rfl
    | cons m ms =>
      have := h m.1
      rw [List.lookup_cons_self] at this
      cases this

theorem prunedItems_agree [BEq σ] {xs ys : List (Json σ ν)}
    (h : List.Forall₂ (fun v w => Option.Rel Agrees (pruned blank v) (pruned blank w)) xs ys) :
    List.Forall₂ Agrees (prunedItems blank xs) (prunedItems blank ys) := by
  induction h with
  | nil => exact .nil
  | @cons v w xs ys hvw _ ih =>
    rw [prunedItems, prunedItems]
    generalize pruned blank v = a, pruned blank w = b at hvw ⊢
    cases hvw with
    | some hvw => exact .cons hvw ih
    | none => exact ih

/-- Values that agree are pruned to values that agree. -/
theorem pruned_agrees [BEq σ] [LawfulBEq σ] {v w : Json σ ν} (hv : v.Distinct)
    (hw : w.Distinct) (h : v.Agrees w) :
    Option.Rel Agrees (pruned blank v) (pruned blank w) := by
  induction v using Json.ind generalizing w with
  | null =>
    cases w with
    | null => exact .none
    | _ => cases h
  | bool b =>
    cases w with
    | bool c => exact .some h
    | _ => cases h
  | num n =>
    cases w with
    | num m => exact .some h
    | _ => cases h
  | str s =>
    cases w with
    | str t =>
      obtain rfl : s = t := h
      rw [pruned]
      split_ifs
      · exact .none
      · exact .some rfl
    | _ => cases h
  | arr xs ih =>
    cases w with
    | arr ys =>
      rw [distinct_arr] at hv hw
      rw [Agrees, itemsAgree_iff] at h
      have hitems : List.Forall₂ Agrees (prunedItems blank xs) (prunedItems blank ys) := by
        refine prunedItems_agree (List.forall₂_iff_get.mpr ⟨h.length_eq, fun i hx hy => ?_⟩)
        exact ih _ (List.get_mem _ _) (hv _ (List.get_mem _ _)) (hw _ (List.get_mem _ _))
          ((List.forall₂_iff_get.mp h).2 i hx hy)
      rw [pruned, pruned]
      generalize prunedItems blank xs = xs', prunedItems blank ys = ys' at hitems
      cases hitems with
      | nil => exact .none
      | cons hvw hrest => exact .some (by rw [Agrees, itemsAgree_iff]; exact .cons hvw hrest)
    | _ => cases h
  | obj ms ih =>
    cases w with
    | obj ns =>
      have hv' := distinct_obj.mp hv
      have hw' := distinct_obj.mp hw
      rw [agrees_obj_iff hv'.1 hw'.1] at h
      have hrel : ∀ k, Option.Rel Agrees ((prunedMembers blank ms).lookup k)
          ((prunedMembers blank ns).lookup k) := by
        intro k
        rw [lookup_prunedMembers hv'.1, lookup_prunedMembers hw'.1]
        have hk := h k
        cases hm : ms.lookup k with
        | none =>
          rw [hm] at hk
          cases hn : ns.lookup k with
          | none => exact .none
          | some w =>
            rw [hn] at hk
            cases hk
        | some v =>
          rw [hm] at hk
          cases hn : ns.lookup k with
          | none =>
            rw [hn] at hk
            cases hk
          | some w =>
            rw [hn] at hk
            cases hk with
            | some hvw =>
              exact ih (k, v) (mem_of_lookup hm) (hv'.2 _ (mem_of_lookup hm))
                (hw'.2 _ (mem_of_lookup hn)) hvw
      have hnil : prunedMembers blank ms = [] ↔ prunedMembers blank ns = [] := by
        rw [nil_iff_lookup, nil_iff_lookup]
        refine forall_congr' fun k => ?_
        have hk := hrel k
        generalize (prunedMembers blank ms).lookup k = a, (prunedMembers blank ns).lookup k = b
          at hk
        cases hk <;> simp
      have hagree : (Json.obj (prunedMembers blank ms)).Agrees (.obj (prunedMembers blank ns)) :=
        (agrees_obj_iff (hv'.1.sublist (prunedMembers_sublist ms))
          (hw'.1.sublist (prunedMembers_sublist ns))).mpr hrel
      rw [pruned, pruned]
      generalize prunedMembers blank ms = ms', prunedMembers blank ns = ns' at hnil hagree
      cases ms' with
      | nil =>
        rw [hnil.mp rfl]
        exact .none
      | cons m ms' =>
        cases ns' with
        | nil => cases hnil.mpr rfl
        | cons n ns' => exact .some hagree
    | _ => cases h

end

/-! ## What is left -/

section
variable {σ ν : Type} (blank : σ → Bool)

mutual

/-- No part is empty, at any depth. -/
def Full : Json σ ν → Prop
  | .null => False
  | .bool _ => True
  | .num _ => True
  | .str s => blank s = false
  | .arr items => items ≠ [] ∧ FullItems items
  | .obj members => members ≠ [] ∧ FullMembers members

def FullItems : List (Json σ ν) → Prop
  | [] => True
  | v :: vs => Full v ∧ FullItems vs

def FullMembers : List (σ × Json σ ν) → Prop
  | [] => True
  | (_, v) :: ms => Full v ∧ FullMembers ms

end

/-- A boolean, a number or a string. -/
inductive Leaf (σ ν : Type) where
  | bool (b : Bool)
  | num (n : ν)
  | str (s : σ)

mutual

/-- The leaves that are not blank, in order, each with the way to it: the names of the members
and `none` for each array. -/
def leaves : Json σ ν → List (List (Option σ) × Leaf σ ν)
  | .null => []
  | .bool b => [([], .bool b)]
  | .num n => [([], .num n)]
  | .str s => if blank s then [] else [([], .str s)]
  | .arr items => leavesItems items
  | .obj members => leavesMembers members

def leavesItems : List (Json σ ν) → List (List (Option σ) × Leaf σ ν)
  | [] => []
  | v :: vs => (leaves v).map (fun l => (none :: l.1, l.2)) ++ leavesItems vs

def leavesMembers : List (σ × Json σ ν) → List (List (Option σ) × Leaf σ ν)
  | [] => []
  | (k, v) :: ms => (leaves v).map (fun l => (some k :: l.1, l.2)) ++ leavesMembers ms

end

variable {blank}

theorem full_arr {items : List (Json σ ν)} :
    Full blank (.arr items) ↔ items ≠ [] ∧ ∀ v ∈ items, Full blank v := by
  have hitems : ∀ vs : List (Json σ ν), FullItems blank vs ↔ ∀ v ∈ vs, Full blank v := by
    intro vs
    induction vs with
    | nil => simp [FullItems]
    | cons v vs ih => rw [FullItems, List.forall_mem_cons, ih]
  rw [Full, hitems]

theorem full_obj {members : List (σ × Json σ ν)} :
    Full blank (.obj members) ↔ members ≠ [] ∧ ∀ m ∈ members, Full blank m.2 := by
  have hmembers : ∀ ms : List (σ × Json σ ν), FullMembers blank ms ↔ ∀ m ∈ ms, Full blank m.2 := by
    intro ms
    induction ms with
    | nil => simp [FullMembers]
    | cons m ms ih => rw [FullMembers, List.forall_mem_cons, ih]
  rw [Full, hmembers]

theorem full_pruned {v w : Json σ ν} (h : pruned blank v = some w) : Full blank w := by
  induction v using Json.ind generalizing w with
  | null => cases h
  | bool b =>
    rw [← Option.some.inj h]
    trivial
  | num n =>
    rw [← Option.some.inj h]
    trivial
  | str s =>
    rw [pruned] at h
    split_ifs at h with hs
    rw [← Option.some.inj h]
    exact Bool.eq_false_iff.mpr hs
  | arr items ih =>
    obtain ⟨hne, rfl⟩ := pruned_arr_eq_some.mp h
    refine full_arr.mpr ⟨hne, fun w hw => ?_⟩
    rw [prunedItems_eq] at hw
    obtain ⟨v, hv, hvw⟩ := List.mem_filterMap.mp hw
    exact ih v hv hvw
  | obj members ih =>
    obtain ⟨hne, rfl⟩ := pruned_obj_eq_some.mp h
    refine full_obj.mpr ⟨hne, fun n hn => ?_⟩
    rw [prunedMembers_eq] at hn
    obtain ⟨m, hm, hmn⟩ := List.mem_filterMap.mp hn
    obtain ⟨w, hw, rfl⟩ := Option.map_eq_some_iff.mp hmn
    exact ih m hm hw

theorem pruned_of_full {v : Json σ ν} (h : Full blank v) : pruned blank v = some v := by
  induction v using Json.ind with
  | null => cases h
  | bool b => rfl
  | num n => rfl
  | str s => rw [pruned, if_neg (Bool.eq_false_iff.mp h)]
  | arr items ih =>
    obtain ⟨hne, hall⟩ := full_arr.mp h
    have hsame : prunedItems blank items = items := by
      rw [prunedItems_eq, List.filterMap_congr fun v hv => ih v hv (hall v hv)]
      exact List.filterMap_some
    exact pruned_arr_eq_some.mpr (by rw [hsame]; exact ⟨hne, rfl⟩)
  | obj members ih =>
    obtain ⟨hne, hall⟩ := full_obj.mp h
    have hsame : prunedMembers blank members = members := by
      have hid : members.filterMap (fun m => (pruned blank m.2).map (m.1, ·)) =
          members.filterMap some :=
        List.filterMap_congr fun m hm => by rw [ih m hm (hall m hm)]; rfl
      rw [prunedMembers_eq, hid]
      exact List.filterMap_some
    exact pruned_obj_eq_some.mpr (by rw [hsame]; exact ⟨hne, rfl⟩)

/-- The leaves of a value are those of what is left of it. -/
theorem leaves_pruned (v : Json σ ν) :
    leaves blank v = ((pruned blank v).map (leaves blank)).getD [] := by
  induction v using Json.ind with
  | null => rfl
  | bool b => rfl
  | num n => rfl
  | str s =>
    rw [leaves, pruned]
    split_ifs with hs
    · rfl
    · rw [Option.map_some, Option.getD_some, leaves, if_neg hs]
  | arr items ih =>
    have hitems : leavesItems blank items = leavesItems blank (prunedItems blank items) := by
      induction items with
      | nil => rfl
      | cons v vs ihvs =>
        have hrest := ihvs fun w hw => ih w (List.mem_cons_of_mem _ hw)
        rw [leavesItems, prunedItems, ih v List.mem_cons_self, hrest]
        cases pruned blank v with
        | none => rfl
        | some w => rw [Option.map_some, Option.getD_some, leavesItems]
    rw [leaves, hitems, pruned]
    cases prunedItems blank items with
    | nil => rfl
    | cons v vs => rw [Option.map_some, Option.getD_some, leaves]
  | obj members ih =>
    have hmembers : leavesMembers blank members =
        leavesMembers blank (prunedMembers blank members) := by
      induction members with
      | nil => rfl
      | cons m ms ihms =>
        obtain ⟨k, v⟩ := m
        have hrest := ihms fun n hn => ih n (List.mem_cons_of_mem _ hn)
        rw [leavesMembers, prunedMembers, ih (k, v) List.mem_cons_self, hrest]
        cases pruned blank v with
        | none => rfl
        | some w => rw [Option.map_some, Option.getD_some, leavesMembers]
    rw [leaves, hmembers, pruned]
    cases prunedMembers blank members with
    | nil => rfl
    | cons m ms => rw [Option.map_some, Option.getD_some, leaves]

end

/-! ## Mapping -/

theorem pruned_map {σ τ ν μ : Type} {f : σ → τ} {g : ν → μ} {blank : σ → Bool}
    {blank' : τ → Bool} (hf : ∀ s, blank' (f s) = blank s) (v : Json σ ν) :
    pruned blank' (v.map f g) = (pruned blank v).map (map f g) := by
  induction v using Json.ind with
  | null => rfl
  | bool b => rfl
  | num n => rfl
  | str s =>
    rw [map, pruned, pruned, hf]
    split_ifs <;> rfl
  | arr items ih =>
    have hitems : prunedItems blank' (items.map (map f g)) =
        (prunedItems blank items).map (map f g) := by
      rw [prunedItems_eq, prunedItems_eq, List.filterMap_map, List.map_filterMap]
      exact List.filterMap_congr ih
    rw [map_arr, pruned, pruned, hitems]
    cases prunedItems blank items with
    | nil => rfl
    | cons v vs => rw [Option.map_some, map_arr]; rfl
  | obj members ih =>
    have hmembers : prunedMembers blank' (members.map fun m => (f m.1, m.2.map f g)) =
        (prunedMembers blank members).map fun m => (f m.1, m.2.map f g) := by
      rw [prunedMembers_eq, prunedMembers_eq, List.filterMap_map, List.map_filterMap]
      refine List.filterMap_congr fun m hm => ?_
      simp only [Function.comp_apply, ih m hm, Option.map_map]
      rfl
    rw [map_obj, pruned, pruned, hmembers]
    cases prunedMembers blank members with
    | nil => rfl
    | cons m ms => rw [Option.map_some, map_obj]; rfl

end Json

end Shadownet.Foundation
