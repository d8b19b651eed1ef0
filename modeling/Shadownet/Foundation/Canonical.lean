import Mathlib.Data.Nat.Digits.Defs
import Shadownet.Foundation.Json
import Shadownet.Foundation.Unicode

/-!
# Reading a JSON text back

The compact text of a JSON value, given how a string and a number are written. When the
written strings and numbers can be told from what follows them, so can whole values:
`text_unique` says that a text has at most one value as a proper beginning, and
`text_injective` that two values have the same text only if they are equal, members in
the same order.
-/

namespace Shadownet.Foundation

/-! ## Decimal numbers -/

def IsDigit (c : CodePoint) : Prop := 48 ≤ c.val ∧ c.val ≤ 57

instance (c : CodePoint) : Decidable (IsDigit c) := inferInstanceAs (Decidable (_ ∧ _))

/-- The text does not go on with a digit. -/
def Stops (r : Text) : Prop := ∀ c ∈ r.head?, ¬ IsDigit c

def digitText (d : Nat) : CodePoint := Fin.ofNat 0x110000 (48 + d)

def natText (n : Nat) : Text :=
  if n = 0 then [48] else (Nat.digits 10 n).reverse.map digitText

def intText (n : Int) : Text :=
  if n < 0 then 45 :: natText n.natAbs else natText n.natAbs

theorem digitText_val {d : Nat} (h : d < 10) : (digitText d).val = 48 + d := by
  have : 48 + d < 0x110000 := by omega
  simp [digitText, Fin.ofNat, Nat.mod_eq_of_lt this]

theorem isDigit_of_mem_natText {n : Nat} {c : CodePoint} (h : c ∈ natText n) : IsDigit c := by
  unfold natText at h
  split_ifs at h with h0
  · rw [List.mem_singleton.mp h]
    decide
  · obtain ⟨d, hd, rfl⟩ := List.mem_map.mp h
    have hlt : d < 10 := Nat.digits_lt_base (by decide) (List.mem_reverse.mp hd)
    have := digitText_val hlt
    exact ⟨by omega, by omega⟩

theorem natText_ne_nil (n : Nat) : natText n ≠ [] := by
  unfold natText
  split_ifs with h0
  · simp
  · simp [Nat.digits_ne_nil_iff_ne_zero.mpr h0]

theorem natText_injective : Function.Injective natText := by
  have hval : ∀ n, ((natText n).map fun c => c.val - 48).reverse =
      if n = 0 then [0] else Nat.digits 10 n := by
    intro n
    unfold natText
    split_ifs with h0
    · rfl
    · rw [List.map_map, ← List.map_reverse, List.reverse_reverse]
      conv_rhs => rw [← List.map_id (Nat.digits 10 n)]
      refine List.map_congr_left fun d hd => ?_
      have := digitText_val (Nat.digits_lt_base (by decide : 1 < 10) hd)
      simp only [Function.comp_apply, id_eq]
      omega
  intro m n h
  have hd := hval m
  rw [h, hval n] at hd
  have hof := congrArg (Nat.ofDigits 10) hd
  have hofd : ∀ n, Nat.ofDigits 10 (if n = 0 then [0] else Nat.digits 10 n) = n := by
    intro n
    split_ifs with h0
    · simp [h0]
    · exact Nat.ofDigits_digits 10 n
  rw [hofd, hofd] at hof
  exact hof.symm

/-- A run of digits before something that is none is read in one way. -/
theorem digits_unique {s t r r' : Text} (hs : ∀ c ∈ s, IsDigit c) (ht : ∀ c ∈ t, IsDigit c)
    (hr : Stops r) (hr' : Stops r') (h : s ++ r = t ++ r') : s = t ∧ r = r' := by
  induction s generalizing t with
  | nil =>
    cases t with
    | nil => exact ⟨rfl, h⟩
    | cons c t =>
      rw [List.nil_append] at h
      exact absurd (ht c (by simp)) (hr c (by simp [h]))
  | cons c s ih =>
    cases t with
    | nil =>
      rw [List.nil_append] at h
      exact absurd (hs c (by simp)) (hr' c (by simp [← h]))
    | cons d t =>
      rw [List.cons_append, List.cons_append, List.cons.injEq] at h
      obtain ⟨rfl, htail⟩ := h
      obtain ⟨rfl, hrr⟩ :=
        ih (fun c hc => hs c (by simp [hc])) (fun c hc => ht c (by simp [hc])) htail
      exact ⟨rfl, hrr⟩

theorem intText_head (n : Int) : ∃ c t, intText n = c :: t ∧ (c = 45 ∨ IsDigit c) := by
  unfold intText
  split_ifs with h0
  · exact ⟨45, _, rfl, .inl rfl⟩
  · obtain ⟨c, t, h⟩ := List.exists_cons_of_ne_nil (natText_ne_nil n.natAbs)
    exact ⟨c, t, h, .inr (isDigit_of_mem_natText (by rw [h]; simp))⟩

theorem intText_unique {m n : Int} {r r' : Text} (hr : Stops r) (hr' : Stops r')
    (h : intText m ++ r = intText n ++ r') : m = n ∧ r = r' := by
  have hnat : ∀ {a b : Nat}, natText a ++ r = natText b ++ r' → a = b ∧ r = r' := by
    intro a b h
    obtain ⟨hab, hrr⟩ := digits_unique (fun _ => isDigit_of_mem_natText)
      (fun _ => isDigit_of_mem_natText) hr hr' h
    exact ⟨natText_injective hab, hrr⟩
  have hminus : ∀ {a b : Nat} {s s' : Text}, natText a ++ s ≠ 45 :: natText b ++ s' := by
    intro a b s s' h
    obtain ⟨c, t, hc⟩ := List.exists_cons_of_ne_nil (natText_ne_nil a)
    have hd : IsDigit c := isDigit_of_mem_natText (by rw [hc]; simp)
    rw [hc, List.cons_append, List.cons_append, List.cons.injEq] at h
    rw [h.1] at hd
    exact absurd hd (by decide)
  unfold intText at h
  split_ifs at h with hm hn hn
  · rw [List.cons_append, List.cons_append, List.cons.injEq] at h
    obtain ⟨hab, hrr⟩ := hnat h.2
    exact ⟨by omega, hrr⟩
  · exact absurd h.symm hminus
  · exact absurd h hminus
  · obtain ⟨hab, hrr⟩ := hnat h
    exact ⟨by omega, hrr⟩

/-! ## Texts of values -/

/-- How a value's strings and numbers are written. -/
structure Lexemes (σ ν : Type) where
  str : σ → Text
  num : ν → Text

/-- Strings that satisfy `Q` and numbers that satisfy `P` can be read back: a string is
known by its quotation mark, a number by its sign or first digit. -/
structure Lexemes.Readable {σ ν : Type} (L : Lexemes σ ν) (P : ν → Prop) (Q : σ → Prop) :
    Prop where
  str_head : ∀ {s}, Q s → ∃ t, L.str s = 34 :: t
  str_unique : ∀ {a b r r'}, Q a → Q b → L.str a ++ r = L.str b ++ r' → a = b ∧ r = r'
  num_head : ∀ {n}, P n → ∃ c t, L.num n = c :: t ∧ (c = 45 ∨ IsDigit c)
  num_unique : ∀ {a b r r'}, P a → P b → Stops r → Stops r' →
    L.num a ++ r = L.num b ++ r' → a = b ∧ r = r'

namespace Json

variable {σ ν : Type} (L : Lexemes σ ν)

mutual

/-- The compact text of a value, members in the order they stand. -/
def text : Json σ ν → Text
  | .null => [110, 117, 108, 108]
  | .bool true => [116, 114, 117, 101]
  | .bool false => [102, 97, 108, 115, 101]
  | .num n => L.num n
  | .str s => L.str s
  | .arr [] => [91, 93]
  | .arr (v :: vs) => 91 :: (text v ++ (itemsTail vs ++ [93]))
  | .obj [] => [123, 125]
  | .obj ((k, v) :: ms) => 123 :: (L.str k ++ 58 :: (text v ++ (membersTail ms ++ [125])))

/-- The items after the first one, each behind a comma. -/
def itemsTail : List (Json σ ν) → Text
  | [] => []
  | v :: vs => 44 :: (text v ++ itemsTail vs)

def membersTail : List (σ × Json σ ν) → Text
  | [] => []
  | (k, v) :: ms => 44 :: (L.str k ++ 58 :: (text v ++ membersTail ms))

end

/-- One member of an object: its name, a colon and its value. -/
def memberText (m : σ × Json σ ν) : Text := L.str m.1 ++ 58 :: m.2.text L

theorem text_arr (items : List (Json σ ν)) :
    (Json.arr items).text L =
      91 :: (List.intercalate [44] (items.map (text L)) ++ [93]) := by
  have htail : ∀ vs : List (Json σ ν), ∀ t : Text,
      List.intercalate [44] (t :: vs.map (text L)) = t ++ itemsTail L vs := by
    intro vs
    induction vs with
    | nil => simp [itemsTail]
    | cons v vs ih =>
      intro t
      rw [List.map_cons, List.intercalate_cons_cons, ih, itemsTail]
      simp
  cases items with
  | nil => rfl
  | cons v vs => rw [List.map_cons, htail, text, List.append_assoc]

theorem text_obj (members : List (σ × Json σ ν)) :
    (Json.obj members).text L =
      123 :: (List.intercalate [44] (members.map (memberText L)) ++ [125]) := by
  have htail : ∀ ms : List (σ × Json σ ν), ∀ t : Text,
      List.intercalate [44] (t :: ms.map (memberText L)) = t ++ membersTail L ms := by
    intro ms
    induction ms with
    | nil => simp [membersTail]
    | cons m ms ih =>
      intro t
      rw [List.map_cons, List.intercalate_cons_cons, ih, membersTail]
      simp [memberText]
  cases members with
  | nil => rfl
  | cons m ms =>
    obtain ⟨k, v⟩ := m
    rw [List.map_cons, htail, text, memberText]
    simp

variable {L} {P : ν → Prop} {Q : σ → Prop}

/-- A number for each kind of value. -/
def kind : Json σ ν → Nat
  | .null => 0
  | .bool true => 1
  | .bool false => 2
  | .num _ => 3
  | .str _ => 4
  | .arr _ => 5
  | .obj _ => 6

/-- The kind of value a first character announces; `7` for none. -/
def kindOf (c : CodePoint) : Nat :=
  if c = 110 then 0 else if c = 116 then 1 else if c = 102 then 2
  else if c = 45 ∨ IsDigit c then 3 else if c = 34 then 4 else if c = 91 then 5
  else if c = 123 then 6 else 7

theorem kindOf_num {c : CodePoint} (h : c = 45 ∨ IsDigit c) : kindOf c = 3 := by
  have hne : ∀ d : CodePoint, 57 < d.val → c ≠ d := by
    rintro d hd rfl
    rcases h with rfl | h
    · exact absurd hd (by decide)
    · exact absurd h.2 (by omega)
  rw [kindOf, if_neg (hne 110 (by decide)), if_neg (hne 116 (by decide)),
    if_neg (hne 102 (by decide)), if_pos h]

theorem text_head (hL : L.Readable P Q) {v : Json σ ν} (hv : v.Forall P Q (fun _ => True)) :
    ∃ c t, v.text L = c :: t ∧ kindOf c = v.kind := by
  cases v with
  | null => exact ⟨110, _, rfl, (by decide : kindOf 110 = 0)⟩
  | bool b =>
    cases b with
    | true => exact ⟨116, _, rfl, (by decide : kindOf 116 = 1)⟩
    | false => exact ⟨102, _, rfl, (by decide : kindOf 102 = 2)⟩
  | num n =>
    obtain ⟨c, t, h, hc⟩ := hL.num_head hv
    exact ⟨c, t, h, kindOf_num hc⟩
  | str s =>
    obtain ⟨t, h⟩ := hL.str_head hv
    exact ⟨34, t, h, (by decide : kindOf 34 = 4)⟩
  | arr items => cases items <;> exact ⟨91, _, rfl, (by decide : kindOf 91 = 5)⟩
  | obj members => cases members <;> exact ⟨123, _, rfl, (by decide : kindOf 123 = 6)⟩

/-- No value begins with a character that announces none. -/
theorem text_append_ne (hL : L.Readable P Q) {v : Json σ ν}
    (hv : v.Forall P Q (fun _ => True)) {c : CodePoint} (hc : kindOf c = 7) {r r' : Text} :
    v.text L ++ r ≠ c :: r' := by
  intro h
  obtain ⟨d, t, hd, hkind⟩ := text_head hL hv
  rw [hd, List.cons_append, List.cons.injEq] at h
  rw [h.1, hc] at hkind
  cases v with
  | bool b => cases b <;> cases hkind
  | _ => cases hkind

theorem kind_eq_of_text (hL : L.Readable P Q) {v w : Json σ ν}
    (hv : v.Forall P Q (fun _ => True)) (hw : w.Forall P Q (fun _ => True)) {r r' : Text}
    (h : v.text L ++ r = w.text L ++ r') : v.kind = w.kind := by
  obtain ⟨c, t, hc, hkc⟩ := text_head hL hv
  obtain ⟨d, u, hd, hkd⟩ := text_head hL hw
  rw [hc, hd, List.cons_append, List.cons_append, List.cons.injEq] at h
  rw [← hkc, ← hkd, h.1]

/-- A value whose text can be told from whatever does not go on with a digit. -/
def Unique (L : Lexemes σ ν) (P : ν → Prop) (Q : σ → Prop) (v : Json σ ν) : Prop :=
  ∀ (w : Json σ ν) (r r' : Text), w.Forall P Q (fun _ => True) → Stops r → Stops r' →
    v.text L ++ r = w.text L ++ r' → v = w ∧ r = r'

theorem stops_cons {c : CodePoint} {r : Text} (hc : ¬ IsDigit c) : Stops (c :: r) := by
  intro d hd
  rw [List.head?_cons, Option.mem_some_iff] at hd
  rwa [← hd]

theorem stops_itemsTail (vs : List (Json σ ν)) {r : Text} (hr : Stops r) :
    Stops (itemsTail L vs ++ r) := by
  cases vs with
  | nil => exact hr
  | cons v vs => exact stops_cons (by decide)

theorem stops_membersTail (ms : List (σ × Json σ ν)) {r : Text} (hr : Stops r) :
    Stops (membersTail L ms ++ r) := by
  cases ms with
  | nil => exact hr
  | cons m ms => exact stops_cons (by decide)

theorem itemsTail_unique {vs ws : List (Json σ ν)} (hvs : ∀ v ∈ vs, Unique L P Q v)
    (hws : ∀ w ∈ ws, w.Forall P Q (fun _ => True)) {r r' : Text}
    (h : itemsTail L vs ++ 93 :: r = itemsTail L ws ++ 93 :: r') : vs = ws ∧ r = r' := by
  have hstop : ∀ {us : List (Json σ ν)} {s : Text}, Stops (itemsTail L us ++ 93 :: s) :=
    stops_itemsTail _ (stops_cons (by decide))
  induction vs generalizing ws with
  | nil =>
    cases ws with
    | nil => exact ⟨rfl, by simpa [itemsTail] using h⟩
    | cons w ws => simp [itemsTail] at h
  | cons v vs ih =>
    cases ws with
    | nil => simp [itemsTail] at h
    | cons w ws =>
      simp only [itemsTail, List.cons_append, List.append_assoc, List.cons.injEq,
        true_and] at h
      obtain ⟨rfl, htail⟩ := hvs v (by simp) w _ _ (hws w (by simp)) hstop hstop h
      obtain ⟨rfl, hr⟩ := ih (fun u hu => hvs u (by simp [hu]))
        (fun u hu => hws u (by simp [hu])) htail
      exact ⟨rfl, hr⟩

theorem membersTail_unique (hL : L.Readable P Q) {ms ns : List (σ × Json σ ν)}
    (hms : ∀ m ∈ ms, Q m.1 ∧ Unique L P Q m.2)
    (hns : ∀ n ∈ ns, Q n.1 ∧ n.2.Forall P Q (fun _ => True)) {r r' : Text}
    (h : membersTail L ms ++ 125 :: r = membersTail L ns ++ 125 :: r') : ms = ns ∧ r = r' := by
  have hstop : ∀ {us : List (σ × Json σ ν)} {s : Text}, Stops (membersTail L us ++ 125 :: s) :=
    stops_membersTail _ (stops_cons (by decide))
  induction ms generalizing ns with
  | nil =>
    cases ns with
    | nil => exact ⟨rfl, by simpa [membersTail] using h⟩
    | cons n ns => obtain ⟨k, w⟩ := n; simp [membersTail] at h
  | cons m ms ih =>
    obtain ⟨k, v⟩ := m
    cases ns with
    | nil => simp [membersTail] at h
    | cons n ns =>
      obtain ⟨l, w⟩ := n
      simp only [membersTail, List.cons_append, List.append_assoc, List.cons.injEq,
        true_and] at h
      have hv := hms (k, v) (by simp)
      have hw := hns (l, w) (by simp)
      obtain ⟨rfl, hrest⟩ := hL.str_unique hv.1 hw.1 h
      rw [List.cons.injEq] at hrest
      obtain ⟨rfl, htail⟩ := hv.2 w _ _ hw.2 hstop hstop hrest.2
      obtain ⟨rfl, hr⟩ := ih (fun u hu => hms u (by simp [hu]))
        (fun u hu => hns u (by simp [hu])) htail
      exact ⟨rfl, hr⟩

theorem unique_arr (hL : L.Readable P Q) {vs : List (Json σ ν)}
    (hvs : ∀ v ∈ vs, v.Forall P Q (fun _ => True) ∧ Unique L P Q v) :
    Unique L P Q (.arr vs) := by
  intro w r r' hw _ _ h
  have hv : (Json.arr vs).Forall P Q (fun _ => True) := forall_arr.mpr fun v hv => (hvs v hv).1
  have hkind := kind_eq_of_text hL hv hw h
  cases w with
  | arr ws =>
    rw [forall_arr] at hw
    have hstop : ∀ {us : List (Json σ ν)} {s : Text}, Stops (itemsTail L us ++ 93 :: s) :=
      stops_itemsTail _ (stops_cons (by decide))
    cases vs with
    | nil =>
      cases ws with
      | nil => exact ⟨rfl, by simpa [text] using h⟩
      | cons w ws =>
        simp only [text, List.cons_append, List.nil_append, List.append_assoc,
          List.cons.injEq, true_and] at h
        exact absurd h.symm (text_append_ne hL (hw w (by simp)) (by decide))
    | cons v vs =>
      cases ws with
      | nil =>
        simp only [text, List.cons_append, List.nil_append, List.append_assoc,
          List.cons.injEq, true_and] at h
        exact absurd h (text_append_ne hL (hvs v (by simp)).1 (by decide))
      | cons w ws =>
        simp only [text, List.cons_append, List.nil_append, List.append_assoc,
          List.cons.injEq, true_and] at h
        obtain ⟨rfl, htail⟩ := (hvs v (by simp)).2 w _ _ (hw w (by simp)) hstop hstop h
        obtain ⟨rfl, hr⟩ := itemsTail_unique (fun u hu => (hvs u (by simp [hu])).2)
          (fun u hu => hw u (by simp [hu])) htail
        exact ⟨rfl, hr⟩
  | bool b => cases b <;> cases hkind
  | _ => cases hkind

theorem unique_obj (hL : L.Readable P Q) {ms : List (σ × Json σ ν)}
    (hms : ∀ m ∈ ms, (Q m.1 ∧ m.2.Forall P Q (fun _ => True)) ∧ Unique L P Q m.2) :
    Unique L P Q (.obj ms) := by
  intro w r r' hw _ _ h
  have hv : (Json.obj ms).Forall P Q (fun _ => True) :=
    forall_obj.mpr ⟨trivial, fun m hm => (hms m hm).1⟩
  have hkind := kind_eq_of_text hL hv hw h
  have hquote : ∀ {k : σ} {s t : Text}, Q k → L.str k ++ s ≠ 125 :: t := by
    intro k s t hk h
    obtain ⟨u, hu⟩ := hL.str_head hk
    rw [hu, List.cons_append, List.cons.injEq] at h
    exact absurd h.1 (by decide)
  cases w with
  | obj ns =>
    have hns := (forall_obj.mp hw).2
    have hstop : ∀ {us : List (σ × Json σ ν)} {s : Text},
        Stops (membersTail L us ++ 125 :: s) := stops_membersTail _ (stops_cons (by decide))
    cases ms with
    | nil =>
      cases ns with
      | nil => exact ⟨rfl, by simpa [text] using h⟩
      | cons n ns =>
        obtain ⟨l, w⟩ := n
        simp only [text, List.cons_append, List.nil_append, List.append_assoc,
          List.cons.injEq, true_and] at h
        exact absurd h.symm (hquote (hns (l, w) (by simp)).1)
    | cons m ms =>
      obtain ⟨k, v⟩ := m
      have hm := hms (k, v) (by simp)
      cases ns with
      | nil =>
        simp only [text, List.cons_append, List.nil_append, List.append_assoc,
          List.cons.injEq, true_and] at h
        exact absurd h (hquote hm.1.1)
      | cons n ns =>
        obtain ⟨l, w⟩ := n
        have hn := hns (l, w) (by simp)
        simp only [text, List.cons_append, List.nil_append, List.append_assoc,
          List.cons.injEq, true_and] at h
        obtain ⟨rfl, hrest⟩ := hL.str_unique hm.1.1 hn.1 h
        rw [List.cons.injEq] at hrest
        obtain ⟨rfl, htail⟩ := hm.2 w _ _ hn.2 hstop hstop hrest.2
        obtain ⟨rfl, hr⟩ := membersTail_unique hL
          (fun u hu => ⟨(hms u (by simp [hu])).1.1, (hms u (by simp [hu])).2⟩)
          (fun u hu => hns u (by simp [hu])) htail
        exact ⟨rfl, hr⟩
  | bool b => cases b <;> cases hkind
  | _ => cases hkind

/-- Every value can be told from what follows it. -/
theorem text_unique (hL : L.Readable P Q) {v : Json σ ν}
    (hv : v.Forall P Q (fun _ => True)) : Unique L P Q v := by
  induction v using Json.ind with
  | null =>
    intro w r r' hw _ _ h
    have hkind := kind_eq_of_text hL hv hw h
    cases w with
    | null => exact ⟨rfl, by simpa [text] using h⟩
    | bool b => cases b <;> cases hkind
    | _ => cases hkind
  | bool b =>
    intro w r r' hw _ _ h
    have hkind := kind_eq_of_text hL hv hw h
    cases w with
    | bool b' =>
      have hb : b = b' := by cases b <;> cases b' <;> simp_all [kind]
      subst hb
      cases b <;> exact ⟨rfl, by simpa [text] using h⟩
    | _ => cases b <;> cases hkind
  | num n =>
    intro w r r' hw hr hr' h
    have hkind := kind_eq_of_text hL hv hw h
    cases w with
    | num n' =>
      obtain ⟨rfl, hrr⟩ := hL.num_unique hv hw hr hr' h
      exact ⟨rfl, hrr⟩
    | bool b => cases b <;> cases hkind
    | _ => cases hkind
  | str s =>
    intro w r r' hw _ _ h
    have hkind := kind_eq_of_text hL hv hw h
    cases w with
    | str s' =>
      obtain ⟨rfl, hrr⟩ := hL.str_unique hv hw h
      exact ⟨rfl, hrr⟩
    | bool b => cases b <;> cases hkind
    | _ => cases hkind
  | arr vs ih =>
    rw [forall_arr] at hv
    exact unique_arr hL fun v hmem => ⟨hv v hmem, ih v hmem (hv v hmem)⟩
  | obj ms ih =>
    have hms := (forall_obj.mp hv).2
    exact unique_obj hL fun m hmem => ⟨hms m hmem, ih m hmem (hms m hmem).2⟩

/-- Two values with the same text are the same value. -/
theorem text_injective (hL : L.Readable P Q) {v w : Json σ ν}
    (hv : v.Forall P Q (fun _ => True)) (hw : w.Forall P Q (fun _ => True))
    (h : v.text L = w.text L) : v = w := by
  have hnil : Stops [] := by simp [Stops]
  exact (text_unique hL hv w _ _ hw hnil hnil (by rw [h])).1

end Json

end Shadownet.Foundation
