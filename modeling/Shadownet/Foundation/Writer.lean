import Mathlib.Data.Nat.Digits.Lemmas
import Shadownet.Foundation.Document

/-!
# Writing a value as a document

A literal is the text of its value except for `-0` (`IntLit.text_eq_iff`), and every integer has
a literal (`IntLit.ofInt`); `toString` writes the same text (`bytes_toString`). `Doc.ofJson`
writes a value compactly, given how it writes strings;
the text of that document is the text of the value, and it says the value.
-/

namespace Shadownet.Foundation

/-! ## Literals -/

theorem foldl_digits (l : List Nat) :
    l.foldl (fun n d => n * 10 + d) 0 = Nat.ofDigits 10 l.reverse := by
  rw [Nat.ofDigits_eq_foldr, List.foldr_reverse]
  refine congrArg (fun f => l.foldl f 0) (funext fun n => funext fun d => ?_)
  simp only [Nat.cast_id]
  omega

namespace Digits

theorem value_eq (ds : Digits) : ds.value = Nat.ofDigits 10 ds.list.reverse := foldl_digits _

theorem value_lt (ds : Digits) : ds.value < 10 ^ ds.list.length := by
  rw [value_eq, ← List.length_reverse]
  exact Nat.ofDigits_lt_base_pow_length (by decide) fun d hd => lt_of_mem (List.mem_reverse.mp hd)

/-- The digits of the value are the ones written, but for zero. -/
theorem digits_value (d : Fin 9) (ds : List (Fin 10)) :
    Nat.digits 10 (pos d ds).value = (pos d ds).list.reverse := by
  rw [value_eq]
  refine Nat.digits_ofDigits 10 (by decide) _ (fun e he => lt_of_mem (List.mem_reverse.mp he)) ?_
  intro hne
  rw [List.getLast_reverse]
  exact Nat.succ_ne_zero _

theorem value_pos (d : Fin 9) (ds : List (Fin 10)) : (pos d ds).value ≠ 0 := by
  intro h
  have hdigits := digits_value d ds
  rw [h, Nat.digits_zero] at hdigits
  simp [list] at hdigits

theorem text_eq (ds : Digits) : ds.text = natText ds.value := by
  cases ds with
  | zero => rfl
  | pos d es => rw [natText, if_neg (value_pos d es), digits_value, List.reverse_reverse, text]

theorem text_injective {ds es : Digits} (h : ds.text = es.text) : ds = es := by
  have hval : ds.value = es.value := by
    rw [text_eq, text_eq] at h
    exact natText_injective h
  have hpos : ∀ {d d' : Fin 9} {l l' : List (Fin 10)},
      (pos d l).value = (pos d' l').value → pos d l = pos d' l' := by
    intro d d' l l' h
    have hdigits := digits_value d l
    rw [h, digits_value, List.reverse_inj, list, list, List.cons.injEq,
      Nat.add_right_cancel_iff, List.map_inj_right fun a b => Fin.ext] at hdigits
    rw [Fin.ext hdigits.1.symm, hdigits.2]
  cases ds with
  | zero =>
    cases es with
    | zero => rfl
    | pos d l => exact absurd hval.symm (value_pos d l)
  | pos d l =>
    cases es with
    | zero => exact absurd hval (value_pos d l)
    | pos d' l' => exact hpos hval

/-- The digits of a number. -/
def ofNat (n : Nat) : Digits :=
  match (Nat.digits 10 n).reverse with
  | [] => .zero
  | d :: ds => .pos (Fin.ofNat 9 (d - 1)) (ds.map (Fin.ofNat 10))

theorem list_ofNat (n : Nat) (hn : n ≠ 0) : (ofNat n).list = (Nat.digits 10 n).reverse := by
  have hlt : ∀ d ∈ (Nat.digits 10 n).reverse, d < 10 := fun d hd =>
    Nat.digits_lt_base (by decide) (List.mem_reverse.mp hd)
  have hlast := Nat.getLast_digit_ne_zero 10 hn
  unfold ofNat
  cases hds : (Nat.digits 10 n).reverse with
  | nil => exact absurd (List.reverse_eq_nil_iff.mp hds) (Nat.digits_ne_nil_iff_ne_zero.mpr hn)
  | cons d ds =>
    rw [hds, List.forall_mem_cons] at hlt
    have hd : d ≠ 0 := by
      have hlist : Nat.digits 10 n = ds.reverse ++ [d] := by
        rw [← List.reverse_reverse (Nat.digits 10 n), hds, List.reverse_cons]
      simp only [hlist, List.getLast_append_singleton] at hlast
      exact hlast
    have hhead : (Fin.ofNat 9 (d - 1)).val + 1 = d := by
      simp only [Fin.ofNat]
      omega
    have htail : (ds.map (Fin.ofNat 10)).map Fin.val = ds := by
      rw [List.map_map]
      conv_rhs => rw [← List.map_id ds]
      refine List.map_congr_left fun e he => ?_
      exact Nat.mod_eq_of_lt (hlt.2 e he)
    rw [list, hhead, htail]

theorem value_ofNat (n : Nat) : (ofNat n).value = n := by
  by_cases hn : n = 0
  · rw [hn]
    simp [ofNat, value, list]
  · rw [value_eq, list_ofNat n hn, List.reverse_reverse, Nat.ofDigits_digits]

/-- A number has as many digits as it says. -/
theorem length_ofNat_le {n k : Nat} (hk : 0 < k) (h : n < 10 ^ k) :
    (ofNat n).list.length ≤ k := by
  by_cases hn : n = 0
  · have hone : (ofNat n).list.length = 1 := by simp [hn, ofNat, list]
    omega
  · rw [list_ofNat n hn, List.length_reverse]
    exact (Nat.digits_length_le_iff (by decide) n).mpr h

end Digits

namespace IntLit

/-- The literal of an integer. -/
def ofInt (n : Int) : IntLit := ⟨decide (n < 0), Digits.ofNat n.natAbs⟩

theorem value_ofInt (n : Int) : (ofInt n).value = n := by
  rw [value, ofInt, Digits.value_ofNat]
  by_cases h : n < 0
  · rw [if_pos (by simpa using h)]
    omega
  · rw [if_neg (by simpa using h)]
    omega

theorem text_ofInt (n : Int) : (ofInt n).text = intText n := by
  rw [text, intText, ofInt, Digits.text_eq, Digits.value_ofNat]
  by_cases h : n < 0
  · rw [if_pos (by simpa using h), if_pos h]
  · rw [if_neg (by simpa using h), if_neg h]

theorem natAbs_value (n : IntLit) : n.value.natAbs = n.digits.value := by
  rw [value]
  split_ifs <;> simp

/-- A literal is the text of its value, unless it is a negative zero. -/
theorem text_eq_iff (n : IntLit) : n.text = intText n.value ↔ n ≠ negZero := by
  obtain ⟨neg, ds⟩ := n
  cases neg with
  | false =>
    refine iff_of_true ?_ (by simp [negZero])
    have hval : (IntLit.mk false ds).value = ds.value := rfl
    rw [hval, intText, if_neg (by omega), Int.natAbs_natCast, ← Digits.text_eq]
    rfl
  | true =>
    have hval : (IntLit.mk true ds).value = -ds.value := rfl
    cases ds with
    | zero => exact iff_of_false (by decide) (by simp [negZero])
    | pos d es =>
      have hpos := Digits.value_pos d es
      refine iff_of_true ?_ (by simp [negZero])
      rw [hval, intText, if_pos (by omega), Int.natAbs_neg, Int.natAbs_natCast, ← Digits.text_eq]
      rfl

theorem isDigit_of_mem {ds : Digits} {c : CodePoint} (h : c ∈ ds.text) : IsDigit c := by
  rw [Digits.text_eq] at h
  exact isDigit_of_mem_natText h

theorem digits_ne_nil (ds : Digits) : ds.text ≠ [] := by
  rw [Digits.text_eq]
  exact natText_ne_nil _

theorem text_head (n : IntLit) : ∃ c t, n.text = c :: t ∧ (c = 45 ∨ IsDigit c) := by
  obtain ⟨neg, ds⟩ := n
  cases neg with
  | true => exact ⟨45, _, rfl, .inl rfl⟩
  | false =>
    obtain ⟨c, t, h⟩ := List.exists_cons_of_ne_nil (digits_ne_nil ds)
    exact ⟨c, t, h, .inr (isDigit_of_mem (by rw [h]; simp))⟩

/-- A literal ends where the digits do. -/
theorem text_unique {m n : IntLit} {r r' : Text} (hr : Stops r) (hr' : Stops r')
    (h : m.text ++ r = n.text ++ r') : m.text = n.text ∧ r = r' := by
  have hminus : ∀ {ds : Digits} {s s' : Text}, ds.text ++ s ≠ 45 :: s' := by
    intro ds s s' h
    obtain ⟨c, t, hc⟩ := List.exists_cons_of_ne_nil (digits_ne_nil ds)
    have hd : IsDigit c := isDigit_of_mem (by rw [hc]; simp)
    rw [hc, List.cons_append, List.cons.injEq] at h
    rw [h.1] at hd
    exact absurd hd (by decide)
  obtain ⟨neg, ds⟩ := m
  obtain ⟨neg', ds'⟩ := n
  cases neg with
  | true =>
    cases neg' with
    | true =>
      obtain ⟨hds, hrr⟩ := digits_unique (fun _ => isDigit_of_mem) (fun _ => isDigit_of_mem) hr hr'
        (List.cons.inj h).2
      exact ⟨congrArg (45 :: ·) hds, hrr⟩
    | false => exact absurd h.symm hminus
  | false =>
    cases neg' with
    | true => exact absurd h hminus
    | false => exact digits_unique (fun _ => isDigit_of_mem) (fun _ => isDigit_of_mem) hr hr' h

end IntLit

/-! ## Decimal notation -/

theorem bytes_append (s t : String) : bytes (s ++ t) = bytes s ++ bytes t := by
  simp [bytes]

theorem natText_of_ge {n : Nat} (h : 10 ≤ n) :
    natText n = natText (n / 10) ++ [digitText (n % 10)] := by
  have hdiv : n / 10 ≠ 0 := by omega
  rw [natText, if_neg (by omega), natText, if_neg hdiv, Nat.digits_def' (by decide) (by omega),
    List.reverse_cons, List.map_append, List.map_singleton]

theorem bytes_repr (n : Nat) : bytes n.repr = utf8 (natText n) := by
  induction n using Nat.strong_induction_on with
  | _ n ih =>
    have hdigit : ∀ d : Fin 10, bytes (d : Nat).repr = utf8 (natText d) ∧
        natText d = [digitText d] := by decide
    by_cases hlt : n < 10
    · exact (hdigit ⟨n, hlt⟩).1
    · obtain ⟨hlast, hone⟩ := hdigit ⟨n % 10, Nat.mod_lt _ (by decide)⟩
      rw [natText_of_ge (not_lt.mp hlt), utf8_append, ← hone, ← hlast, ← ih (n / 10) (by omega),
        ← bytes_append, ← Nat.repr_eq_repr_append_repr (not_lt.mp hlt)]

theorem bytes_toString (n : Int) : bytes (toString n) = utf8 (intText n) := by
  have hminus : bytes "-" = utf8 [45] := by decide
  rw [Int.toString_eq_repr, Int.repr_eq_if, intText]
  by_cases h : n < 0
  · rw [if_neg (by omega), if_pos h, bytes_append, bytes_repr, hminus, ← utf8_append,
      show (-n).toNat = n.natAbs by omega]
    rfl
  · rw [if_pos (by omega), if_neg h, bytes_repr, show n.toNat = n.natAbs by omega]

/-! ## Depth and order -/

namespace Json

section
variable {σ ν : Type}

mutual

/-- How deep arrays and objects are nested. -/
def depth : Json σ ν → Nat
  | .arr items => depthItems items + 1
  | .obj members => depthMembers members + 1
  | _ => 0

def depthItems : List (Json σ ν) → Nat
  | [] => 0
  | v :: vs => max (depth v) (depthItems vs)

def depthMembers : List (σ × Json σ ν) → Nat
  | [] => 0
  | (_, v) :: ms => max (depth v) (depthMembers ms)

end

theorem depthItems_le_iff {items : List (Json σ ν)} {n : Nat} :
    depthItems items ≤ n ↔ ∀ v ∈ items, v.depth ≤ n := by
  induction items with
  | nil => simp [depthItems]
  | cons v vs ih => rw [depthItems, max_le_iff, List.forall_mem_cons, ih]

theorem depthMembers_le_iff {members : List (σ × Json σ ν)} {n : Nat} :
    depthMembers members ≤ n ↔ ∀ m ∈ members, m.2.depth ≤ n := by
  induction members with
  | nil => simp [depthMembers]
  | cons m ms ih =>
    obtain ⟨k, v⟩ := m
    rw [depthMembers, max_le_iff, List.forall_mem_cons, ih]

end

section
variable {σ ν : Type} {le : σ → σ → Prop} [DecidableRel le]

theorem depth_sorted_le {v : Json σ ν} {n : Nat} (h : v.depth ≤ n) : (v.sorted le).depth ≤ n := by
  induction v using Json.ind generalizing n with
  | arr items ih =>
    rw [depth] at h
    obtain ⟨n, rfl⟩ : ∃ m, n = m + 1 := ⟨n - 1, by omega⟩
    have hitems := depthItems_le_iff.mp (Nat.le_of_succ_le_succ h)
    rw [sorted, sortedItems_eq, depth]
    refine Nat.succ_le_succ (depthItems_le_iff.mpr ?_)
    rw [List.forall_mem_map]
    exact fun v hv => ih v hv (hitems v hv)
  | obj members ih =>
    rw [depth] at h
    obtain ⟨n, rfl⟩ : ∃ m, n = m + 1 := ⟨n - 1, by omega⟩
    have hmembers := depthMembers_le_iff.mp (Nat.le_of_succ_le_succ h)
    rw [sorted, sortedMembers_eq, depth]
    refine Nat.succ_le_succ (depthMembers_le_iff.mpr fun m hm => ?_)
    obtain ⟨n, hn, rfl⟩ := List.mem_map.mp ((List.mem_insertionSort _).mp hm)
    exact ih n hn (hmembers n hn)
  | _ => exact h

theorem distinct_sorted {v : Json σ ν} (h : v.Distinct) : (v.sorted le).Distinct := by
  induction v using Json.ind with
  | arr items ih =>
    rw [distinct_arr] at h
    rw [sorted, sortedItems_eq, distinct_arr, List.forall_mem_map]
    exact fun v hv => ih v hv (h v hv)
  | obj members ih =>
    rw [distinct_obj] at h
    rw [sorted, sortedMembers_eq, distinct_obj]
    constructor
    · refine ((List.perm_insertionSort _ _).map Prod.fst).nodup_iff.mpr ?_
      rw [List.map_map]
      exact h.1
    · intro m hm
      obtain ⟨n, hn, rfl⟩ := List.mem_map.mp ((List.mem_insertionSort _).mp hm)
      exact ih n hn (h.2 n hn)
  | _ => exact h

/-- Sorting a second time changes nothing. -/
theorem sorted_sorted (htot : ∀ a b, le a b ∨ le b a)
    (htrans : ∀ a b c, le a b → le b c → le a c) (v : Json σ ν) :
    (v.sorted le).sorted le = v.sorted le := by
  induction v using Json.ind with
  | arr items ih =>
    rw [sorted, sortedItems_eq, sorted, sortedItems_eq, List.map_map]
    exact congrArg Json.arr (List.map_congr_left ih)
  | obj members ih =>
    have : Std.Total (memberLe (β := Json σ ν) le) := ⟨fun a b => htot a.1 b.1⟩
    have : IsTrans _ (memberLe (β := Json σ ν) le) := ⟨fun a b c => htrans a.1 b.1 c.1⟩
    rw [sorted, sortedMembers_eq, sorted, sortedMembers_eq]
    -- The values are sorted already, and so are the members.
    have hmap : ((members.map fun m => (m.1, m.2.sorted le)).insertionSort (memberLe le)).map
        (fun m => (m.1, m.2.sorted le)) =
        (members.map fun m => (m.1, m.2.sorted le)).insertionSort (memberLe le) := by
      conv_rhs => rw [← List.map_id ((members.map _).insertionSort _)]
      refine List.map_congr_left fun m hm => ?_
      obtain ⟨n, hn, rfl⟩ := List.mem_map.mp ((List.mem_insertionSort _).mp hm)
      exact Prod.ext rfl (ih n hn)
    rw [hmap, (List.pairwise_insertionSort _ _).insertionSort_eq]
  | _ => rfl

end

end Json

/-! ## Documents -/

namespace Doc

variable (write : Text → List StringItem)

mutual

/-- A value without whitespace, with strings as `write` says. -/
def ofJson : Json Text IntLit → Doc
  | .null => .null
  | .bool b => .bool b
  | .num n => .num n
  | .str s => .str (write s)
  | .arr items => .arr [] (ofItems items)
  | .obj members => .obj [] (ofMembers members)

def ofItems : List (Json Text IntLit) → List Doc
  | [] => []
  | v :: vs => ofJson v :: ofItems vs

def ofMembers : List (Text × Json Text IntLit) → List (Key × Doc)
  | [] => []
  | (k, v) :: ms => (⟨[], write k, []⟩, ofJson v) :: ofMembers ms

end

theorem ofItems_eq (items : List (Json Text IntLit)) :
    ofItems write items = items.map (ofJson write) := by
  induction items with
  | nil => rfl
  | cons v vs ih => rw [ofItems, ih, List.map_cons]

theorem ofMembers_eq (members : List (Text × Json Text IntLit)) :
    ofMembers write members =
      members.map fun m => (⟨[], write m.1, []⟩, ofJson write m.2) := by
  induction members with
  | nil => rfl
  | cons m ms ih =>
    obtain ⟨k, v⟩ := m
    rw [ofMembers, ih, List.map_cons]

/-- The strings and numbers as `ofJson` writes them. -/
def lexemesOf : Lexemes Text IntLit := ⟨fun s => stringText (write s), IntLit.text⟩

theorem key_text (k : Text) : (Key.mk [] (write k) []).text = stringText (write k) := by
  simp [Key.text, spaces]

theorem text_ofJson (v : Json Text IntLit) :
    (ofJson write v).text = v.text (lexemesOf write) := by
  induction v using Json.ind with
  | null => rfl
  | bool b => cases b <;> rfl
  | num n => rfl
  | str s => rfl
  | arr items ih =>
    have htail : ∀ vs : List (Json Text IntLit),
        (∀ v ∈ vs, (ofJson write v).text = v.text (lexemesOf write)) →
          itemsTail (ofItems write vs) = Json.itemsTail (lexemesOf write) vs := by
      intro vs hvs
      induction vs with
      | nil => rfl
      | cons v vs ihvs =>
        rw [List.forall_mem_cons] at hvs
        rw [ofItems, itemsTail, Json.itemsTail, hvs.1, ihvs hvs.2]
    cases items with
    | nil => rfl
    | cons v vs =>
      rw [List.forall_mem_cons] at ih
      rw [ofJson, ofItems, text, Json.text, ih.1, htail vs ih.2]
      rfl
  | obj members ih =>
    have htail : ∀ ms : List (Text × Json Text IntLit),
        (∀ m ∈ ms, (ofJson write m.2).text = m.2.text (lexemesOf write)) →
          membersTail (ofMembers write ms) = Json.membersTail (lexemesOf write) ms := by
      intro ms hms
      induction ms with
      | nil => rfl
      | cons m ms ihms =>
        obtain ⟨k, v⟩ := m
        rw [List.forall_mem_cons] at hms
        rw [ofMembers, membersTail, Json.membersTail, hms.1, ihms hms.2, key_text]
        rfl
    rcases members with _ | ⟨⟨k, v⟩, ms⟩
    · rfl
    · rw [List.forall_mem_cons] at ih
      rw [ofJson, ofMembers, text, Json.text, ih.1, htail ms ih.2, key_text]
      rfl

/-- The document says the value, when `write` says each of its strings. -/
theorem value_ofJson {v : Json Text IntLit}
    (hv : v.Forall (fun _ => True) (fun s => stringValue (write s) = s) (fun _ => True)) :
    (ofJson write v).value = v := by
  induction v using Json.ind with
  | null => rfl
  | bool b => rfl
  | num n => rfl
  | str s => exact congrArg Json.str hv
  | arr items ih =>
    rw [Json.forall_arr] at hv
    rw [ofJson, value_arr, ofItems_eq, List.map_map]
    conv_rhs => rw [← List.map_id items]
    exact congrArg Json.arr (List.map_congr_left fun v hmem => ih v hmem (hv v hmem))
  | obj members ih =>
    rw [Json.forall_obj] at hv
    rw [ofJson, value_obj, ofMembers_eq, List.map_map]
    conv_rhs => rw [← List.map_id members]
    refine congrArg Json.obj (List.map_congr_left fun m hm => ?_)
    exact Prod.ext (hv.2 m hm).1 (ih m hm (hv.2 m hm).2)

theorem depth_ofJson_le {v : Json Text IntLit} {n : Nat} (h : v.depth ≤ n) :
    (ofJson write v).depth ≤ n := by
  induction v using Json.ind generalizing n with
  | arr items ih =>
    rw [Json.depth] at h
    obtain ⟨n, rfl⟩ : ∃ m, n = m + 1 := ⟨n - 1, by omega⟩
    have hitems := Json.depthItems_le_iff.mp (Nat.le_of_succ_le_succ h)
    rw [ofJson, depth, ofItems_eq]
    refine Nat.succ_le_succ (depthItems_le_iff.mpr ?_)
    rw [List.forall_mem_map]
    exact fun v hv => ih v hv (hitems v hv)
  | obj members ih =>
    rw [Json.depth] at h
    obtain ⟨n, rfl⟩ : ∃ m, n = m + 1 := ⟨n - 1, by omega⟩
    have hmembers := Json.depthMembers_le_iff.mp (Nat.le_of_succ_le_succ h)
    rw [ofJson, depth, ofMembers_eq]
    refine Nat.succ_le_succ (depthMembers_le_iff.mpr ?_)
    rw [List.forall_mem_map]
    exact fun m hm => ih m hm (hmembers m hm)
  | _ => exact h

/-- A document is nested no deeper than what it says. -/
theorem depth_le_of_value {d : Doc} {n : Nat} (h : d.value.depth ≤ n) : d.depth ≤ n := by
  induction d using Doc.ind generalizing n with
  | arr pad items ih =>
    rw [value_arr, Json.depth] at h
    obtain ⟨n, rfl⟩ : ∃ m, n = m + 1 := ⟨n - 1, by omega⟩
    have hitems := Json.depthItems_le_iff.mp (Nat.le_of_succ_le_succ h)
    rw [List.forall_mem_map] at hitems
    rw [depth]
    exact Nat.succ_le_succ (depthItems_le_iff.mpr fun d hd => ih d hd (hitems d hd))
  | obj pad members ih =>
    rw [value_obj, Json.depth] at h
    obtain ⟨n, rfl⟩ : ∃ m, n = m + 1 := ⟨n - 1, by omega⟩
    have hmembers := Json.depthMembers_le_iff.mp (Nat.le_of_succ_le_succ h)
    rw [List.forall_mem_map] at hmembers
    rw [depth]
    exact Nat.succ_le_succ (depthMembers_le_iff.mpr fun m hm => ih m hm (hmembers m hm))
  | padded before d after ih => exact ih h
  | _ => exact Nat.zero_le n

end Doc

end Shadownet.Foundation
