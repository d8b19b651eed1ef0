import Mathlib.Data.List.Sort

/-!
# JSON values

A JSON value over strings `σ` and numbers `ν`. An object is the list of its members in the
order they were written or inserted.

Two values agree when they are equal up to the order of the members of their objects.
`sorted` puts the members of every object in the order of their names, and on values
whose objects have distinct names it decides agreement (`agrees_of_sorted`,
`sorted_of_agrees`).
-/

namespace Shadownet.Foundation

inductive Json (σ ν : Type) where
  | null
  | bool (b : Bool)
  | num (n : ν)
  | str (s : σ)
  | arr (items : List (Json σ ν))
  | obj (members : List (σ × Json σ ν))

namespace Json

variable {σ ν : Type}

/-- Induction over a value, with the hypothesis for all items and all members at once. -/
@[elab_as_elim]
theorem ind {motive : Json σ ν → Prop} (null : motive .null) (bool : ∀ b, motive (.bool b))
    (num : ∀ n, motive (.num n)) (str : ∀ s, motive (.str s))
    (arr : ∀ items, (∀ v ∈ items, motive v) → motive (.arr items))
    (obj : ∀ members, (∀ m ∈ members, motive m.2) → motive (.obj members)) :
    ∀ v, motive v := by
  intro v
  refine @Json.rec σ ν motive (fun items => ∀ v ∈ items, motive v)
    (fun members => ∀ m ∈ members, motive m.2) (fun m => motive m.2)
    null bool num str arr obj ?_ ?_ ?_ ?_ ?_ v
  · simp
  · intro v vs hv hvs w hw
    rcases List.mem_cons.mp hw with rfl | hw
    · exact hv
    · exact hvs w hw
  · simp
  · intro m ms hm hms n hn
    rcases List.mem_cons.mp hn with rfl | hn
    · exact hm
    · exact hms n hn
  · intro _ _ hv
    exact hv

/-! ## Equality is decidable -/

section Decidable

variable [DecidableEq σ] [DecidableEq ν]

mutual

def beq : Json σ ν → Json σ ν → Bool
  | .null, .null => true
  | .bool a, .bool b => a == b
  | .num a, .num b => a == b
  | .str a, .str b => a == b
  | .arr xs, .arr ys => beqItems xs ys
  | .obj ms, .obj ns => beqMembers ms ns
  | _, _ => false

def beqItems : List (Json σ ν) → List (Json σ ν) → Bool
  | [], [] => true
  | x :: xs, y :: ys => beq x y && beqItems xs ys
  | _, _ => false

def beqMembers : List (σ × Json σ ν) → List (σ × Json σ ν) → Bool
  | [], [] => true
  | (k, v) :: ms, (l, w) :: ns => k == l && beq v w && beqMembers ms ns
  | _, _ => false

end

theorem beq_iff {v w : Json σ ν} : beq v w = true ↔ v = w := by
  induction v using Json.ind generalizing w with
  | arr xs ih =>
    cases w with
    | arr ys =>
      rw [beq, Json.arr.injEq]
      induction xs generalizing ys with
      | nil => cases ys <;> simp [beqItems]
      | cons x xs ihxs =>
        cases ys with
        | nil => simp [beqItems]
        | cons y ys =>
          rw [beqItems, Bool.and_eq_true, ih x (by simp), List.cons.injEq,
            ihxs (fun v hv => ih v (by simp [hv]))]
    | _ => simp [beq]
  | obj ms ih =>
    cases w with
    | obj ns =>
      rw [beq, Json.obj.injEq]
      induction ms generalizing ns with
      | nil => cases ns <;> simp [beqMembers]
      | cons m ms ihms =>
        cases ns with
        | nil => simp [beqMembers]
        | cons n ns =>
          rw [beqMembers, Bool.and_eq_true, Bool.and_eq_true, ih m (by simp), List.cons.injEq,
            ihms (fun v hv => ih v (by simp [hv])), beq_iff_eq, Prod.ext_iff]
    | _ => simp [beq]
  | _ => cases w <;> simp [beq]

instance : DecidableEq (Json σ ν) := fun _ _ => decidable_of_iff _ beq_iff

end Decidable

/-! ## Conditions on every part of a value -/

section Forall

variable (P : ν → Prop) (Q : σ → Prop) (R : List σ → Prop)

mutual

/-- `P` holds of every number, `Q` of every string and member name, and `R` of the names
of every object. -/
def Forall : Json σ ν → Prop
  | .null => True
  | .bool _ => True
  | .num n => P n
  | .str s => Q s
  | .arr items => ItemsForall items
  | .obj members => R (members.map Prod.fst) ∧ MembersForall members

def ItemsForall : List (Json σ ν) → Prop
  | [] => True
  | v :: vs => Forall v ∧ ItemsForall vs

def MembersForall : List (σ × Json σ ν) → Prop
  | [] => True
  | (k, v) :: ms => (Q k ∧ Forall v) ∧ MembersForall ms

end

variable {P Q R}

theorem forall_arr {items : List (Json σ ν)} :
    (Json.arr items).Forall P Q R ↔ ∀ v ∈ items, v.Forall P Q R := by
  rw [Forall]
  induction items with
  | nil => simp [ItemsForall]
  | cons v vs ih => simp [ItemsForall, ih]

theorem forall_obj {members : List (σ × Json σ ν)} :
    (Json.obj members).Forall P Q R ↔
      R (members.map Prod.fst) ∧ ∀ m ∈ members, Q m.1 ∧ m.2.Forall P Q R := by
  rw [Forall]
  have h : ∀ ms : List (σ × Json σ ν),
      MembersForall P Q R ms ↔ ∀ m ∈ ms, Q m.1 ∧ m.2.Forall P Q R := by
    intro ms
    induction ms with
    | nil => simp [MembersForall]
    | cons m ms ih =>
      obtain ⟨k, v⟩ := m
      simp only [MembersForall, List.forall_mem_cons, ih]
  rw [h]

theorem Forall.mono {P' : ν → Prop} {Q' : σ → Prop} {R' : List σ → Prop} {v : Json σ ν}
    (hP : ∀ n, P n → P' n) (hQ : ∀ s, Q s → Q' s) (hR : ∀ ks, R ks → R' ks)
    (h : v.Forall P Q R) : v.Forall P' Q' R' := by
  induction v using Json.ind with
  | null => trivial
  | bool b => trivial
  | num n => exact hP n h
  | str s => exact hQ s h
  | arr items ih =>
    rw [forall_arr] at h ⊢
    exact fun v hv => ih v hv (h v hv)
  | obj members ih =>
    rw [forall_obj] at h ⊢
    exact ⟨hR _ h.1, fun m hm => ⟨hQ _ (h.2 m hm).1, ih m hm (h.2 m hm).2⟩⟩

theorem Forall.and {P' : ν → Prop} {Q' : σ → Prop} {R' : List σ → Prop} {v : Json σ ν}
    (h : v.Forall P Q R) (h' : v.Forall P' Q' R') :
    v.Forall (fun n => P n ∧ P' n) (fun s => Q s ∧ Q' s) (fun ks => R ks ∧ R' ks) := by
  induction v using Json.ind with
  | null => trivial
  | bool b => trivial
  | num n => exact ⟨h, h'⟩
  | str s => exact ⟨h, h'⟩
  | arr items ih =>
    rw [forall_arr] at h h' ⊢
    exact fun v hv => ih v hv (h v hv) (h' v hv)
  | obj members ih =>
    rw [forall_obj] at h h' ⊢
    exact ⟨⟨h.1, h'.1⟩, fun m hm => ⟨⟨(h.2 m hm).1, (h'.2 m hm).1⟩,
      ih m hm (h.2 m hm).2 (h'.2 m hm).2⟩⟩

/-- Checks that all strings, numbers and lists of names pass. -/
theorem forall_of_all (hP : ∀ n, P n) (hQ : ∀ s, Q s) (hR : ∀ ks, R ks) (v : Json σ ν) :
    v.Forall P Q R := by
  induction v using Json.ind with
  | null => trivial
  | bool b => trivial
  | num n => exact hP n
  | str s => exact hQ s
  | arr items ih => exact forall_arr.mpr ih
  | obj members ih => exact forall_obj.mpr ⟨hR _, fun m hm => ⟨hQ _, ih m hm⟩⟩

section

variable [DecidablePred P] [DecidablePred Q] [DecidablePred R]

mutual

def decidableForall : (v : Json σ ν) → Decidable (Forall P Q R v)
  | .null => isTrue trivial
  | .bool _ => isTrue trivial
  | .num n => inferInstanceAs (Decidable (P n))
  | .str s => inferInstanceAs (Decidable (Q s))
  | .arr items => decidableItems items
  | .obj members => @instDecidableAnd _ _ inferInstance (decidableMembers members)

def decidableItems : (vs : List (Json σ ν)) → Decidable (ItemsForall P Q R vs)
  | [] => isTrue trivial
  | v :: vs => @instDecidableAnd _ _ (decidableForall v) (decidableItems vs)

def decidableMembers : (ms : List (σ × Json σ ν)) → Decidable (MembersForall P Q R ms)
  | [] => isTrue trivial
  | (_, v) :: ms =>
    @instDecidableAnd _ _ (@instDecidableAnd _ _ inferInstance (decidableForall v))
      (decidableMembers ms)

end

instance (v : Json σ ν) : Decidable (Forall P Q R v) := decidableForall v

end

end Forall

/-- Every object of the value has distinct names. -/
def Distinct (v : Json σ ν) : Prop := v.Forall (fun _ => True) (fun _ => True) List.Nodup

instance [DecidableEq σ] (v : Json σ ν) : Decidable v.Distinct :=
  inferInstanceAs (Decidable (v.Forall _ _ _))

theorem distinct_obj {members : List (σ × Json σ ν)} :
    (Json.obj members).Distinct ↔
      (members.map Prod.fst).Nodup ∧ ∀ m ∈ members, m.2.Distinct := by
  simp [Distinct, forall_obj]

theorem distinct_str (s : σ) : (Json.str s : Json σ ν).Distinct := trivial

theorem distinct_arr {items : List (Json σ ν)} :
    (Json.arr items).Distinct ↔ ∀ v ∈ items, v.Distinct :=
  forall_arr

/-! ## Agreement up to the order of members -/

section Agrees

variable [BEq σ]

mutual

/-- Equality of parsed values: items in order, members by name. -/
def Agrees : Json σ ν → Json σ ν → Prop
  | .null, .null => True
  | .bool a, .bool b => a = b
  | .num a, .num b => a = b
  | .str a, .str b => a = b
  | .arr xs, .arr ys => ItemsAgree xs ys
  | .obj ms, .obj ns => ms.length = ns.length ∧ MembersAgree ms ns
  | _, _ => False

def ItemsAgree : List (Json σ ν) → List (Json σ ν) → Prop
  | [], [] => True
  | x :: xs, y :: ys => Agrees x y ∧ ItemsAgree xs ys
  | _, _ => False

def MembersAgree : List (σ × Json σ ν) → List (σ × Json σ ν) → Prop
  | [], _ => True
  | (k, v) :: ms, ns => (∃ w, ns.lookup k = some w ∧ Agrees v w) ∧ MembersAgree ms ns

end

theorem itemsAgree_iff {xs ys : List (Json σ ν)} :
    ItemsAgree xs ys ↔ List.Forall₂ Agrees xs ys := by
  induction xs generalizing ys with
  | nil => cases ys <;> simp [ItemsAgree]
  | cons x xs ih => cases ys <;> simp [ItemsAgree, ih]

theorem membersAgree_iff {ms ns : List (σ × Json σ ν)} :
    MembersAgree ms ns ↔ ∀ m ∈ ms, ∃ w, ns.lookup m.1 = some w ∧ Agrees m.2 w := by
  induction ms with
  | nil => simp [MembersAgree]
  | cons m ms ih =>
    obtain ⟨k, v⟩ := m
    simp only [MembersAgree, List.forall_mem_cons, ih]

theorem agrees_str {s : σ} {w : Json σ ν} : (Json.str s).Agrees w ↔ w = .str s := by
  cases w <;> simp [Agrees, eq_comm]

theorem agrees_bool {b : Bool} {w : Json σ ν} : (Json.bool b).Agrees w ↔ w = .bool b := by
  cases w <;> simp [Agrees, eq_comm]

theorem agrees_arr {xs : List (Json σ ν)} {w : Json σ ν} :
    (Json.arr xs).Agrees w ↔ ∃ ys, w = .arr ys ∧ List.Forall₂ Agrees xs ys := by
  cases w <;> simp [Agrees, itemsAgree_iff]

end Agrees

/-! ## Sorting the members -/

section Sorted

variable {β : Type} (le : σ → σ → Prop) [DecidableRel le]

/-- The order of members is the order of their names. -/
def memberLe (a b : σ × β) : Prop := le a.1 b.1

instance : DecidableRel (memberLe (β := β) le) := fun a b =>
  inferInstanceAs (Decidable (le a.1 b.1))

mutual

def sorted : Json σ ν → Json σ ν
  | .null => .null
  | .bool b => .bool b
  | .num n => .num n
  | .str s => .str s
  | .arr items => .arr (sortedItems items)
  | .obj members => .obj ((sortedMembers members).insertionSort (memberLe le))

def sortedItems : List (Json σ ν) → List (Json σ ν)
  | [] => []
  | v :: vs => sorted v :: sortedItems vs

def sortedMembers : List (σ × Json σ ν) → List (σ × Json σ ν)
  | [] => []
  | (k, v) :: ms => (k, sorted v) :: sortedMembers ms

end

theorem sortedItems_eq (items : List (Json σ ν)) :
    sortedItems le items = items.map (sorted le) := by
  induction items with
  | nil => rfl
  | cons v vs ih => rw [sortedItems, ih, List.map_cons]

theorem sortedMembers_eq (members : List (σ × Json σ ν)) :
    sortedMembers le members = members.map fun m => (m.1, m.2.sorted le) := by
  induction members with
  | nil => rfl
  | cons m ms ih =>
    obtain ⟨k, v⟩ := m
    rw [sortedMembers, ih, List.map_cons]

variable {le} {P : ν → Prop} {Q : σ → Prop}

/-- Sorting moves members, it changes none. -/
theorem forall_sorted {v : Json σ ν} :
    (v.sorted le).Forall P Q (fun _ => True) ↔ v.Forall P Q (fun _ => True) := by
  induction v using Json.ind with
  | arr items ih =>
    rw [sorted, sortedItems_eq, forall_arr, forall_arr, List.forall_mem_map]
    exact forall₂_congr ih
  | obj members ih =>
    rw [sorted, sortedMembers_eq, forall_obj, forall_obj]
    simp only [true_and, List.mem_insertionSort, List.forall_mem_map]
    exact forall₂_congr fun m hm => and_congr_right fun _ => ih m hm
  | _ => rfl

end Sorted

/-! ## Sorting decides agreement -/

section Decides

variable [BEq σ] [LawfulBEq σ] {le : σ → σ → Prop} [DecidableRel le]

theorem lookup_of_mem {β : Type} {ms : List (σ × β)} {k : σ} {v : β}
    (hn : (ms.map Prod.fst).Nodup) (h : (k, v) ∈ ms) : ms.lookup k = some v := by
  induction ms with
  | nil => cases h
  | cons m ms ih =>
    obtain ⟨k', v'⟩ := m
    rw [List.map_cons, List.nodup_cons] at hn
    rcases List.mem_cons.mp h with heq | hmem
    · injection heq with hk hv
      subst hk hv
      exact List.lookup_cons_self
    · have hin : k ∈ ms.map Prod.fst := List.mem_map_of_mem (f := Prod.fst) hmem
      have hne : k ≠ k' := fun hk => hn.1 (hk ▸ hin)
      rw [List.lookup_cons, beq_false_of_ne hne]
      exact ih hn.2 hmem

theorem mem_of_lookup {β : Type} {ms : List (σ × β)} {k : σ} {v : β}
    (h : ms.lookup k = some v) : (k, v) ∈ ms := by
  obtain ⟨l₁, l₂, rfl, -⟩ := List.lookup_eq_some_iff.mp h
  simp

theorem lookup_isSome_iff {β : Type} {ms : List (σ × β)} {k : σ} :
    (ms.lookup k).isSome ↔ k ∈ ms.map Prod.fst := by
  rw [← not_iff_not, Bool.not_eq_true, Option.isSome_eq_false_iff, Option.isNone_iff_eq_none,
    List.lookup_eq_none_iff]
  simp only [bne_iff_ne, List.mem_map, not_exists, not_and]
  exact ⟨fun h m hm hk => h m hm hk.symm, fun h m hm hk => h m hm hk.symm⟩

theorem lookup_filter {β : Type} {ms : List (σ × β)} (hn : (ms.map Prod.fst).Nodup)
    (p : σ × β → Bool) (k : σ) :
    (ms.filter p).lookup k = (ms.lookup k).filter fun v => p (k, v) := by
  induction ms with
  | nil => rfl
  | cons m ms ih =>
    obtain ⟨l, v⟩ := m
    rw [List.map_cons, List.nodup_cons] at hn
    by_cases hk : k = l
    · subst hk
      have hnone : ms.lookup k = none := by
        rw [← Option.isNone_iff_eq_none, ← Option.isSome_eq_false_iff, ← Bool.not_eq_true,
          lookup_isSome_iff]
        exact hn.1
      rw [List.lookup_cons_self, List.filter_cons]
      by_cases hp : p (k, v)
      · rw [if_pos hp, List.lookup_cons_self, Option.filter_some, if_pos hp]
      · rw [if_neg hp, ih hn.2, hnone, Option.filter_none, Option.filter_some, if_neg hp]
    · rw [List.lookup_cons, beq_false_of_ne hk, ← ih hn.2, List.filter_cons]
      by_cases hp : p (l, v)
      · rw [if_pos hp, List.lookup_cons, beq_false_of_ne hk]
      · rw [if_neg hp]

/-- Two objects agree when each name has agreeing values, or none, in both. -/
theorem agrees_obj_iff {ms ns : List (σ × Json σ ν)} (hms : (ms.map Prod.fst).Nodup)
    (hns : (ns.map Prod.fst).Nodup) :
    (Json.obj ms).Agrees (.obj ns) ↔ ∀ k, Option.Rel Agrees (ms.lookup k) (ns.lookup k) := by
  rw [Agrees, membersAgree_iff]
  constructor
  · rintro ⟨hlen, h⟩ k
    have hsub : ms.map Prod.fst ⊆ ns.map Prod.fst := by
      intro k hk
      obtain ⟨m, hm, rfl⟩ := List.mem_map.mp hk
      obtain ⟨w, hw, -⟩ := h m hm
      exact lookup_isSome_iff.mp (by rw [hw]; rfl)
    have hperm : (ms.map Prod.fst).Perm (ns.map Prod.fst) :=
      (List.subperm_of_subset hms hsub).perm_of_length_le (by simp [hlen])
    cases hk : ms.lookup k with
    | some v =>
      obtain ⟨w, hw, hvw⟩ := h (k, v) (mem_of_lookup hk)
      rw [hw]
      exact .some hvw
    | none =>
      have hnot : ¬ (ns.lookup k).isSome := by
        rw [lookup_isSome_iff, ← hperm.mem_iff, ← lookup_isSome_iff, hk]
        simp
      rw [Option.not_isSome_iff_eq_none.mp hnot]
      exact .none
  · intro h
    have hkeys : ∀ k, k ∈ ms.map Prod.fst ↔ k ∈ ns.map Prod.fst := by
      intro k
      rw [← lookup_isSome_iff, ← lookup_isSome_iff]
      have hrel := h k
      generalize ms.lookup k = a, ns.lookup k = b at hrel
      cases hrel with
      | some _ => simp
      | none => simp
    refine ⟨by simpa using ((List.perm_ext_iff_of_nodup hms hns).mpr hkeys).length_eq, ?_⟩
    intro m hm
    have hrel := h m.1
    rw [lookup_of_mem hms hm] at hrel
    generalize ns.lookup m.1 = o at hrel
    cases hrel with
    | some hvw => exact ⟨_, rfl, hvw⟩

theorem agrees_of_sorted : ∀ {v w : Json σ ν}, v.Distinct → w.Distinct →
    v.sorted le = w.sorted le → v.Agrees w := by
  intro v
  induction v using Json.ind with
  | null => intro w _ _ h; cases w <;> simp_all [sorted, Agrees]
  | bool b => intro w _ _ h; cases w <;> simp_all [sorted, Agrees]
  | num n => intro w _ _ h; cases w <;> simp_all [sorted, Agrees]
  | str s => intro w _ _ h; cases w <;> simp_all [sorted, Agrees]
  | arr xs ih =>
    intro w hv hw h
    cases w with
    | arr ys =>
      rw [distinct_arr] at hv hw
      simp only [sorted, sortedItems_eq, Json.arr.injEq] at h
      rw [Agrees, itemsAgree_iff]
      have hlen : xs.length = ys.length := by simpa using congrArg List.length h
      refine List.forall₂_iff_get.mpr ⟨hlen, fun i hx hy => ?_⟩
      refine ih _ (List.get_mem _ _) (hv _ (List.get_mem _ _)) (hw _ (List.get_mem _ _)) ?_
      have hi := congrArg (fun l : List (Json σ ν) => l[i]?) h
      simpa [hx, hy] using hi
    | _ => simp [sorted] at h
  | obj ms ih =>
    intro w hv hw h
    cases w with
    | obj ns =>
      rw [distinct_obj] at hv hw
      simp only [sorted, sortedMembers_eq, Json.obj.injEq] at h
      have hperm : (ms.map fun m => (m.1, m.2.sorted le)).Perm
          (ns.map fun m => (m.1, m.2.sorted le)) := by
        refine (List.perm_insertionSort (memberLe le) _).symm.trans ?_
        rw [h]
        exact List.perm_insertionSort (memberLe le) _
      rw [Agrees, membersAgree_iff]
      refine ⟨by simpa using hperm.length_eq, fun m hm => ?_⟩
      have hmem : (m.1, m.2.sorted le) ∈ ns.map fun m => (m.1, m.2.sorted le) :=
        hperm.subset (List.mem_map.mpr ⟨m, hm, rfl⟩)
      obtain ⟨n, hn, hnm⟩ := List.mem_map.mp hmem
      injection hnm with hk hs
      refine ⟨n.2, lookup_of_mem hw.1 (by rw [← hk]; exact hn), ?_⟩
      exact ih m hm (hv.2 m hm) (hw.2 n hn) hs.symm
    | _ => simp [sorted] at h

theorem agrees_refl {v : Json σ ν} (hv : v.Distinct) : v.Agrees v :=
  @agrees_of_sorted σ ν _ _ (fun _ _ => True) (fun _ _ => .isTrue trivial) v v hv hv rfl

omit [BEq σ] [LawfulBEq σ] in
/-- Lists of members with distinct names and the same members are sorted to the same list. -/
theorem insertionSort_eq_of_subset {β : Type} {Q : σ → Prop} {ms ns : List (σ × β)}
    (htot : ∀ a b, le a b ∨ le b a) (htrans : ∀ a b c, le a b → le b c → le a c)
    (hanti : ∀ a b, Q a → Q b → le a b → le b a → a = b)
    (hm : (ms.map Prod.fst).Nodup)
    (hQ : ∀ m ∈ ms, Q m.1) (hlen : ms.length = ns.length) (hsub : ms ⊆ ns) :
    ms.insertionSort (memberLe le) = ns.insertionSort (memberLe le) := by
  have : Std.Total (memberLe (β := β) le) := ⟨fun a b => htot a.1 b.1⟩
  have : IsTrans _ (memberLe (β := β) le) := ⟨fun a b c => htrans a.1 b.1 c.1⟩
  have hperm : ms.Perm ns :=
    (List.subperm_of_subset hm.of_map hsub).perm_of_length_le hlen.ge
  have hsorted : (ms.insertionSort (memberLe le)).Perm (ns.insertionSort (memberLe le)) :=
    (List.perm_insertionSort _ ms).trans (hperm.trans (List.perm_insertionSort _ ns).symm)
  refine hsorted.eq_of_pairwise ?_ (List.pairwise_insertionSort _ ms)
    (List.pairwise_insertionSort _ ns)
  intro a b ha hb hab hba
  have ha : a ∈ ms := (List.mem_insertionSort _).mp ha
  have hb : b ∈ ms := hperm.symm.subset ((List.mem_insertionSort _).mp hb)
  have hk : a.1 = b.1 := hanti a.1 b.1 (hQ a ha) (hQ b hb) hab hba
  exact List.inj_on_of_nodup_map hm ha hb hk

theorem sorted_of_agrees {Q : σ → Prop} (htot : ∀ a b, le a b ∨ le b a)
    (htrans : ∀ a b c, le a b → le b c → le a c)
    (hanti : ∀ a b, Q a → Q b → le a b → le b a → a = b) :
    ∀ {v w : Json σ ν}, v.Distinct → w.Distinct → v.Forall (fun _ => True) Q (fun _ => True) →
      v.Agrees w → v.sorted le = w.sorted le := by
  intro v
  induction v using Json.ind with
  | null => intro w _ _ _ h; cases w <;> simp_all [sorted, Agrees]
  | bool b => intro w _ _ _ h; cases w <;> simp_all [sorted, Agrees]
  | num n => intro w _ _ _ h; cases w <;> simp_all [sorted, Agrees]
  | str s => intro w _ _ _ h; cases w <;> simp_all [sorted, Agrees]
  | arr xs ih =>
    intro w hv hw hQ h
    cases w with
    | arr ys =>
      rw [distinct_arr] at hv hw
      rw [forall_arr] at hQ
      rw [Agrees, itemsAgree_iff] at h
      obtain ⟨hlen, hget⟩ := List.forall₂_iff_get.mp h
      simp only [sorted, sortedItems_eq, Json.arr.injEq]
      refine List.ext_getElem (by simpa using hlen) fun i hx hy => ?_
      simp only [List.length_map] at hx hy
      simp only [List.getElem_map]
      exact ih _ (List.getElem_mem hx) (hv _ (List.getElem_mem hx)) (hw _ (List.getElem_mem hy))
        (hQ _ (List.getElem_mem hx)) (hget i hx hy)
    | _ => simp [Agrees] at h
  | obj ms ih =>
    intro w hv hw hQ h
    cases w with
    | obj ns =>
      rw [distinct_obj] at hv hw
      rw [forall_obj] at hQ
      rw [Agrees, membersAgree_iff] at h
      simp only [sorted, sortedMembers_eq, Json.obj.injEq]
      refine insertionSort_eq_of_subset htot htrans hanti
        (by simpa [Function.comp_def] using hv.1) ?_ (by simpa using h.1) ?_
      · intro m hm
        obtain ⟨n, hn, rfl⟩ := List.mem_map.mp hm
        exact (hQ.2 n hn).1
      · intro m hm
        obtain ⟨n, hn, rfl⟩ := List.mem_map.mp hm
        obtain ⟨u, hu, hag⟩ := h.2 n hn
        have hmem : (n.1, u) ∈ ns := mem_of_lookup hu
        have heq := ih n hn (hv.2 n hn) (hw.2 _ hmem) (hQ.2 n hn).2 hag
        exact List.mem_map.mpr ⟨(n.1, u), hmem, by rw [heq]⟩
    | _ => simp [Agrees] at h

end Decides

end Json

end Shadownet.Foundation
