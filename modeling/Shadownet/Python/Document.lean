import Shadownet.Foundation.Document
import Shadownet.Python.Json

/-!
# Reading documents with `json.loads`

`json.loads` reads every document of RFC 8259 whose integers have at most 4300 digits
(`jsonLoads_doc`), and refuses the others (`jsonLoads_long`). The value is the one the
document says, with the last of several members of one name.
-/

namespace Shadownet.Python

open Foundation

/-- An integer the interpreter reads. -/
def ShortLit (n : IntLit) : Prop := n.digits.list.length ≤ 4300

/-- Every integer of a document is short, those that are overwritten included. -/
def ShortInts (v : Json Text IntLit) : Prop := v.Forall ShortLit (fun _ => True) (fun _ => True)

/-- The Python value for what a document says. -/
def pyValue (v : Json Text IntLit) : Value := (v.map id fun n => Number.int n.value).merged

/-! ## Whitespace -/

theorem skipWs_spaces (ws : List Space) (r : Text) : skipWs (spaces ws ++ r) = skipWs r := by
  induction ws with
  | nil => rfl
  | cons w ws ih =>
    rw [spaces, List.map_cons, List.cons_append, skipWs]
    cases w <;> exact ih

/-- The characters that may follow a value in a document. -/
def Ends (r : Text) : Prop :=
  ∀ c ∈ r.head?, c = 32 ∨ c = 9 ∨ c = 10 ∨ c = 13 ∨ c = 44 ∨ c = 93 ∨ c = 125

theorem ends_cons {c : CodePoint} {r : Text}
    (h : c = 32 ∨ c = 9 ∨ c = 10 ∨ c = 13 ∨ c = 44 ∨ c = 93 ∨ c = 125) : Ends (c :: r) := by
  intro c' hc
  rw [List.head?_cons, Option.mem_some_iff] at hc
  rwa [← hc]

theorem ends_spaces {ws : List Space} {r : Text} (h : Ends r) : Ends (spaces ws ++ r) := by
  cases ws with
  | nil => exact h
  | cons w ws =>
    rw [spaces, List.map_cons, List.cons_append]
    exact ends_cons (by cases w <;> decide)

/-! ## Strings -/

theorem hexOf_code (h : HexDigit) : hexOf h.code = some h.digit.val := by
  obtain ⟨d, u⟩ := h
  revert d u
  decide

theorem readHex4_code (a b c d : HexDigit) (r : Text) :
    readHex4 (a.code :: b.code :: c.code :: d.code :: r) =
      .ok (StringItem.hexValue a b c d, r) := by
  simp [readHex4, hexOf_code, StringItem.hexValue]

theorem escapeNext_unicode (a b c d : HexDigit) (r : Text) :
    escapeNext ((StringItem.unicode a b c d).text ++ r) =
      some (a.code :: b.code :: c.code :: d.code :: r) := rfl

theorem escapeNext_none {s : List StringItem} (h : ∀ a b c d t, s ≠ .unicode a b c d :: t)
    (r : Text) : escapeNext (s.flatMap StringItem.text ++ 34 :: r) = none := by
  cases s with
  | nil => cases r <;> rfl
  | cons i s =>
    rw [List.flatMap_cons, List.append_assoc]
    cases i with
    | raw c hc =>
      have hne : ¬ c.val = 92 := hc.2.2.1
      rw [StringItem.text, List.singleton_append]
      cases s.flatMap StringItem.text ++ 34 :: r with
      | nil => rfl
      | cons d t => rw [escapeNext, if_neg fun h => hne h.1]
    | short e => cases e <;> rfl
    | unicode a b c d => exact absurd rfl (h a b c d s)

/-- A `\u` escape that is no pair with the next one. -/
theorem readUnicode_single {s : List StringItem} {a b c d : HexDigit}
    (h : ¬ (IsHigh (StringItem.unicode a b c d).unit ∧ LowNext s)) (r : Text) :
    readUnicode (a.code :: b.code :: c.code :: d.code ::
      (s.flatMap StringItem.text ++ 34 :: r)) =
      .ok ((StringItem.unicode a b c d).unit, s.flatMap StringItem.text ++ 34 :: r) := by
  rw [readUnicode, readHex4_code, ok_bind]
  by_cases hhigh : IsHigh (StringItem.unicode a b c d).unit
  · have hu := hhigh
    unfold IsHigh at hu
    rw [unit_unicode_val] at hu
    simp only [if_pos hu]
    by_cases hnext : ∃ a' b' c' d' t, s = .unicode a' b' c' d' :: t
    · obtain ⟨a', b', c', d', t, rfl⟩ := hnext
      have hlow : ¬ IsLow (StringItem.unicode a' b' c' d').unit :=
        fun hlow => h ⟨hhigh, _, rfl, hlow⟩
      unfold IsLow at hlow
      rw [unit_unicode_val] at hlow
      rw [List.flatMap_cons, List.append_assoc, escapeNext_unicode]
      simp only [readHex4_code, ok_bind, if_neg hlow]
      rfl
    · rw [escapeNext_none fun a' b' c' d' t heq => hnext ⟨a', b', c', d', t, heq⟩]
      rfl
  · have hu := hhigh
    unfold IsHigh at hu
    rw [unit_unicode_val] at hu
    simp only [if_neg hu]
    rfl

theorem readUnicode_pair {a b c d a' b' c' d' : HexDigit}
    (hhigh : IsHigh (StringItem.unicode a b c d).unit)
    (hlow : IsLow (StringItem.unicode a' b' c' d').unit) (r : Text) :
    readUnicode (a.code :: b.code :: c.code :: d.code ::
      ((StringItem.unicode a' b' c' d').text ++ r)) =
      .ok (pairOf (StringItem.unicode a b c d).unit (StringItem.unicode a' b' c' d').unit, r) := by
  rw [pairOf, unit_unicode_val, unit_unicode_val]
  unfold IsHigh at hhigh
  unfold IsLow at hlow
  rw [unit_unicode_val] at hhigh hlow
  rw [readUnicode, readHex4_code, ok_bind]
  simp only [if_pos hhigh, escapeNext_unicode, readHex4_code, ok_bind, if_pos hlow]
  rfl

theorem scanString_items (s : List StringItem) {fuel : Nat} (hf : s.length < fuel) (r : Text) :
    scanString fuel (s.flatMap StringItem.text ++ 34 :: r) = .ok (stringValue s, r) := by
  induction hn : s.length using Nat.strong_induction_on generalizing s fuel with
  | _ n ih =>
    obtain ⟨fuel, rfl⟩ : ∃ m, fuel = m + 1 := ⟨fuel - 1, by omega⟩
    cases s with
    | nil => rfl
    | cons i s =>
      rw [List.length_cons] at hf hn
      have hrest := @ih s.length (by omega) s fuel (by omega) rfl
      rw [List.flatMap_cons, List.append_assoc]
      cases i with
      | raw c hc =>
        have hsur : ¬ (StringItem.raw c hc).unit.IsSurrogate := hc.2.2.2
        rw [stringValue_scalar s hsur, StringItem.text, List.singleton_append]
        change (if c.val = 34 then _ else if c.val = 92 then _ else if c.val < 32 then _ else _) = _
        rw [if_neg hc.2.1, if_neg hc.2.2.1, if_neg (Nat.not_lt.mpr hc.1), hrest, ok_bind]
        rfl
      | short e =>
        have hsur : ¬ (StringItem.short e).unit.IsSurrogate :=
          unit_not_surrogate fun _ _ _ _ h => by cases h
        have hstep : scanString (fuel + 1) ((StringItem.short e).text ++
            (s.flatMap StringItem.text ++ 34 :: r)) =
            (scanString fuel (s.flatMap StringItem.text ++ 34 :: r) >>= fun t =>
              pure (e.code :: t.1, t.2)) := by
          cases e <;> rfl
        rw [stringValue_scalar s hsur, hstep, hrest, ok_bind]
        rfl
      | unicode a b c d =>
        have hstep : ∀ r', scanString (fuel + 1) ((StringItem.unicode a b c d).text ++ r') =
            (readUnicode (a.code :: b.code :: c.code :: d.code :: r') >>= fun u =>
              scanString fuel u.2 >>= fun t => pure (u.1 :: t.1, t.2)) := fun _ => rfl
        rw [hstep]
        by_cases hpair : IsHigh (StringItem.unicode a b c d).unit ∧ LowNext s
        · -- The next item is the low half, and it can only be an escape.
          obtain ⟨hhigh, l, hhead, hlow⟩ := hpair
          cases s with
          | nil => cases hhead
          | cons j s =>
            obtain rfl : j.unit = l := Option.some.inj hhead
            cases j with
            | unicode a' b' c' d' =>
              rw [List.length_cons] at hf hn
              have hrest' := @ih s.length (by omega) s fuel (by omega) rfl
              rw [stringValue_pair s hhigh hlow, List.flatMap_cons, List.append_assoc,
                readUnicode_pair hhigh hlow, ok_bind, hrest', ok_bind]
              rfl
            | raw c hc => exact absurd hlow.surrogate hc.2.2.2
            | short e =>
              have hsur : ¬ (StringItem.short e).unit.IsSurrogate :=
                unit_not_surrogate fun _ _ _ _ h => by cases h
              exact absurd hlow.surrogate hsur
        · rw [stringValue_single hpair, readUnicode_single hpair, ok_bind, hrest, ok_bind]
          rfl

/-! ## Numbers -/

theorem isDigit_digitText {d : Nat} (h : d < 10) : isDigit (digitText d) = true := by
  have := digitText_val h
  rw [isDigit, decide_eq_true_eq, IsDigit]
  omega

theorem Ends.not_digit {r : Text} (h : Ends r) :
    r.takeWhile isDigit = [] ∧ r.dropWhile isDigit = r := by
  cases r with
  | nil => exact ⟨rfl, rfl⟩
  | cons c r =>
    have hc : isDigit c = false := by
      rcases h c rfl with rfl | rfl | rfl | rfl | rfl | rfl | rfl <;> decide
    rw [List.takeWhile_cons_of_neg (by simp [hc]), List.dropWhile_cons_of_neg (by simp [hc])]
    exact ⟨rfl, rfl⟩

theorem spanDigits_digits {ds : List Nat} (h : ∀ d ∈ ds, d < 10) {r : Text} (hr : Ends r) :
    spanDigits (ds.map digitText ++ r) = (ds.map digitText, r) := by
  have hall : ∀ c ∈ ds.map digitText, isDigit c = true := by
    intro c hc
    obtain ⟨d, hd, rfl⟩ := List.mem_map.mp hc
    exact isDigit_digitText (h d hd)
  rw [spanDigits, List.takeWhile_append_of_pos hall, List.dropWhile_append_of_pos hall,
    hr.not_digit.1, hr.not_digit.2, List.append_nil]

theorem digitsValue_digits {ds : List Nat} (h : ∀ d ∈ ds, d < 10) :
    digitsValue (ds.map digitText) = ds.foldl (fun n d => n * 10 + d) 0 := by
  rw [digitsValue, List.foldl_map]
  refine List.foldl_ext _ _ _ fun n d hd => ?_
  have := digitText_val (h d hd)
  omega

theorem Ends.readFraction {r : Text} (h : Ends r) : readFraction r = ([], r) := by
  cases r with
  | nil => rfl
  | cons c r =>
    rcases h c rfl with rfl | rfl | rfl | rfl | rfl | rfl | rfl <;> rfl

theorem Ends.readExponent {r : Text} (h : Ends r) : readExponent r = ([], r) := by
  cases r with
  | nil => rfl
  | cons c r =>
    rcases h c rfl with rfl | rfl | rfl | rfl | rfl | rfl | rfl <;> rfl

theorem digitText_pos_val (d : Fin 9) : (digitText (d.val + 1)).val = 49 + d.val := by
  have := digitText_val (d := d.val + 1) (by omega)
  omega

theorem readInteger_digits (ds : Digits) {r : Text} (hr : Ends r) :
    readInteger (ds.text ++ r) = some (ds.text, r) := by
  have hspan : spanDigits (ds.text ++ r) = (ds.text, r) :=
    spanDigits_digits (fun _ => Digits.lt_of_mem) hr
  cases ds with
  | zero => rfl
  | pos d es =>
    have hne : (Digits.pos d es).text ≠ [] := by simp [Digits.text, Digits.list]
    rw [readInteger, hspan, if_neg hne]
    intro rest heq
    have hhead := congrArg Fin.val (List.cons.inj heq).1
    rw [digitText_pos_val] at hhead
    have h48 : (48 : CodePoint).val = 48 := rfl
    omega

theorem readSign_literal (n : IntLit) (r : Text) :
    readSign (n.text ++ r) = (n.neg, n.digits.text ++ r) := by
  obtain ⟨neg, ds⟩ := n
  cases neg with
  | true => rfl
  | false =>
    cases ds with
    | zero => rfl
    | pos d es =>
      refine readSign.eq_2 _ fun rest heq => ?_
      have hhead := congrArg Fin.val (List.cons.inj heq).1
      rw [digitText_pos_val] at hhead
      have h45 : (45 : CodePoint).val = 45 := rfl
      omega

theorem scanNumber_literal (J : JsonRuntime) (n : IntLit) {r : Text} (hr : Ends r) :
    scanNumber J (n.text ++ r) = if 4300 < n.digits.list.length then
        .error (.digits n.digits.list.length)
      else .ok (.num (.int n.value), r) := by
  have hval : digitsValue n.digits.text = n.digits.value :=
    digitsValue_digits fun _ => Digits.lt_of_mem
  have hlen : n.digits.text.length = n.digits.list.length := List.length_map ..
  unfold scanNumber
  simp only [readSign_literal, readInteger_digits n.digits hr, hr.readFraction, hr.readExponent,
    and_self, if_true, hval, hlen]
  rfl

/-! ## Values -/

theorem pyValue_arr (items : List (Json Text IntLit)) :
    pyValue (.arr items) = .arr (items.map pyValue) := by
  rw [pyValue, Json.map_arr, Json.merged_arr, List.map_map]
  rfl

theorem pyValue_obj (members : List (Text × Json Text IntLit)) :
    pyValue (.obj members) = .obj (Json.keepLast (members.map fun m => (m.1, pyValue m.2))) := by
  rw [pyValue, Json.map_obj, Json.merged_obj, List.map_map]
  rfl

theorem setMembers_eq (ms : List (Text × Value)) (k : Text) (v : Value) :
    Dict.setMembers ms k v = Json.setMember ms k v := by
  induction ms with
  | nil => rfl
  | cons m ms ih => rw [Dict.setMembers, Json.setMember, ih]

/-- The first character of a number. -/
theorem literal_head (n : IntLit) :
    ∃ c s, n.text = c :: s ∧
      (c.val = 45 ∧ (∃ d t, s = d :: t ∧ 48 ≤ d.val ∧ d.val ≤ 57) ∨ 48 ≤ c.val ∧ c.val ≤ 57) := by
  have hdigits : ∀ ds : Digits, ∃ d t, ds.text = d :: t ∧ 48 ≤ d.val ∧ d.val ≤ 57 := by
    intro ds
    cases ds with
    | zero => exact ⟨48, [], rfl, by decide, by decide⟩
    | pos d es =>
      have hval := digitText_pos_val d
      exact ⟨_, _, rfl, by omega, by omega⟩
  obtain ⟨neg, ds⟩ := n
  obtain ⟨d, t, ht, hd⟩ := hdigits ds
  cases neg with
  | true => exact ⟨45, ds.text, rfl, .inl ⟨rfl, d, t, ht, hd⟩⟩
  | false => exact ⟨d, t, ht, .inr hd⟩

theorem scanOnce_number (J : JsonRuntime) (fuel : Nat) (n : IntLit) (r : Text) :
    scanOnce J (fuel + 1) (n.text ++ r) = scanNumber J (n.text ++ r) := by
  obtain ⟨c, s, htext, hc⟩ := literal_head n
  have hinf : ¬ (text "-Infinity").isPrefixOf (c :: (s ++ r)) = true := by
    have hword : text "-Infinity" = 45 :: 73 :: text "nfinity" := rfl
    have h45 : (45 : CodePoint).val = 45 := rfl
    have h73 : (73 : CodePoint).val = 73 := rfl
    rcases hc with ⟨-, d, t, rfl, hd⟩ | hc
    · have hne : ¬ (73 : CodePoint) = d := fun h => by rw [← h] at hd; omega
      rw [hword]
      simp [hne]
    · have hne : ¬ (45 : CodePoint) = c := fun h => by rw [← h] at hc; omega
      rw [hword]
      simp [hne]
  have hval : c.val = 45 ∨ 48 ≤ c.val ∧ c.val ≤ 57 := hc.imp_left And.left
  rw [htext, List.cons_append, scanOnce, if_neg (by omega), if_neg (by omega), if_neg (by omega),
    if_neg (by omega), if_neg (by omega), if_neg (by omega), if_neg (by omega), if_neg (by omega),
    if_neg hinf]

/-- A document begins with a value, and no value begins with a closing bracket. -/
theorem skipWs_text (d : Doc) (r : Text) :
    ∃ c s, skipWs (d.text ++ r) = c :: s ∧ c ≠ 93 := by
  induction d using Doc.ind generalizing r with
  | null => exact ⟨110, _, rfl, by decide⟩
  | bool b => cases b <;> exact ⟨_, _, rfl, by decide⟩
  | num n =>
    obtain ⟨c, s, htext, hc⟩ := literal_head n
    have hval : c.val = 45 ∨ 48 ≤ c.val ∧ c.val ≤ 57 := hc.imp_left And.left
    refine ⟨c, s ++ r, ?_, fun h => ?_⟩
    · rw [Doc.text, htext, List.cons_append, skipWs, if_neg (by omega)]
    · have h93 : (93 : CodePoint).val = 93 := rfl
      rw [h] at hval
      omega
  | str s => exact ⟨34, _, rfl, by decide⟩
  | arr pad items ih => cases items <;> exact ⟨91, _, rfl, by decide⟩
  | obj pad members ih => rcases members with _ | ⟨⟨k, v⟩, ms⟩ <;> exact ⟨123, _, rfl, by decide⟩
  | padded before d after ih =>
    obtain ⟨c, s, hskip, hc⟩ := ih (spaces after ++ r)
    refine ⟨c, s, ?_, hc⟩
    rw [Doc.text, List.append_assoc, skipWs_spaces, List.append_assoc, hskip]

/-- The document is read when its integers are short, and refused otherwise; what is left
differs from what follows it by whitespace. -/
def Scans (J : JsonRuntime) (d : Doc) : Prop :=
  ∀ fuel r, 2 * d.text.length + 1 ≤ fuel → Ends r →
    (ShortInts d.value → ∃ r', scanOnce J fuel (skipWs (d.text ++ r)) =
      .ok (pyValue d.value, r') ∧ skipWs r' = skipWs r) ∧
    (¬ ShortInts d.value → ∃ e, scanOnce J fuel (skipWs (d.text ++ r)) = .error e)

theorem shortInts_arr (items : List (Json Text IntLit)) :
    ShortInts (.arr items) ↔ ∀ v ∈ items, ShortInts v := Json.forall_arr

theorem shortInts_obj (members : List (Text × Json Text IntLit)) :
    ShortInts (.obj members) ↔ ∀ m ∈ members, ShortInts m.2 := by
  rw [ShortInts, Json.forall_obj]
  simp only [true_and]
  rfl

section
variable {J : JsonRuntime} {fuel : Nat} {s r rest : Text} {v : Value} {e : ReadError}

theorem scanItems_next (h : scanOnce J fuel s = .ok (v, r)) (hr : skipWs r = 44 :: rest)
    (acc : List Value) :
    scanItems J (fuel + 1) acc s = scanItems J fuel (acc ++ [v]) (skipWs rest) := by
  rw [scanItems, h, ok_bind]
  simp only [hr]

theorem scanItems_last (h : scanOnce J fuel s = .ok (v, r)) (hr : skipWs r = 93 :: rest)
    (acc : List Value) : scanItems J (fuel + 1) acc s = .ok (.arr (acc ++ [v]), rest) := by
  rw [scanItems, h, ok_bind]
  simp only [hr]

theorem scanItems_error (h : scanOnce J fuel s = .error e) (acc : List Value) :
    scanItems J (fuel + 1) acc s = .error e := by
  rw [scanItems, h, error_bind]

end

theorem scanItems_docs {J : JsonRuntime} {v : Doc} {vs : List Doc}
    (hscans : ∀ d ∈ v :: vs, Scans J d) {fuel : Nat}
    (hfuel : 2 * (v.text ++ Doc.itemsTail vs).length + 2 ≤ fuel) (acc : List Value) (r : Text) :
    ((∀ d ∈ v :: vs, ShortInts d.value) →
      scanItems J fuel acc (skipWs (v.text ++ (Doc.itemsTail vs ++ 93 :: r))) =
        .ok (.arr (acc ++ (v :: vs).map fun d => pyValue d.value), r)) ∧
    (¬ (∀ d ∈ v :: vs, ShortInts d.value) →
      ∃ e, scanItems J fuel acc (skipWs (v.text ++ (Doc.itemsTail vs ++ 93 :: r))) =
        .error e) := by
  induction vs generalizing v fuel acc with
  | nil =>
    obtain ⟨fuel, rfl⟩ : ∃ m, fuel = m + 1 := ⟨fuel - 1, by omega⟩
    rw [Doc.itemsTail, List.append_nil] at hfuel
    obtain ⟨hok, herr⟩ := hscans v (by simp) fuel (93 :: r) (by omega) (ends_cons (by decide))
    rw [Doc.itemsTail, List.nil_append]
    constructor
    · intro hshort
      obtain ⟨r', hscan, hskip⟩ := hok (hshort v (by simp))
      exact scanItems_last hscan hskip acc
    · intro hlong
      obtain ⟨e, hscan⟩ := herr fun h => hlong (by simpa using h)
      exact ⟨e, scanItems_error hscan acc⟩
  | cons w ws ih =>
    obtain ⟨fuel, rfl⟩ : ∃ m, fuel = m + 1 := ⟨fuel - 1, by omega⟩
    have hpos := List.length_pos_iff.mpr v.text_ne_nil
    rw [Doc.itemsTail, List.length_append, List.length_cons] at hfuel
    obtain ⟨hok, herr⟩ := hscans v (by simp) fuel
      (44 :: (w.text ++ (Doc.itemsTail ws ++ 93 :: r))) (by omega) (ends_cons (by decide))
    rw [Doc.itemsTail, List.cons_append, List.append_assoc]
    by_cases hv : ShortInts v.value
    · obtain ⟨r', hscan, hskip⟩ := hok hv
      obtain ⟨hokTail, herrTail⟩ := @ih w (fun d hd => hscans d (List.mem_cons_of_mem _ hd)) fuel
        (by omega) (acc ++ [pyValue v.value])
      rw [scanItems_next hscan hskip]
      constructor
      · intro hshort
        rw [hokTail fun d hd => hshort d (List.mem_cons_of_mem _ hd), List.append_assoc]
        rfl
      · intro hlong
        refine herrTail fun h => hlong ?_
        rw [List.forall_mem_cons]
        exact ⟨hv, h⟩
    · refine ⟨fun hshort => absurd (hshort v (by simp)) hv, fun _ => ?_⟩
      obtain ⟨e, hscan⟩ := herr hv
      exact ⟨e, scanItems_error hscan acc⟩

theorem scanString_length (s : List StringItem) (r : Text) :
    scanString (s.flatMap StringItem.text ++ 34 :: r).length.succ
      (s.flatMap StringItem.text ++ 34 :: r) = .ok (stringValue s, r) := by
  refine scanString_items s ?_ r
  have hitems := length_le_items s
  rw [List.length_append]
  omega

/-- A member up to the colon. -/
theorem scanKey (k : Key) (r : Text) :
    ∃ s, skipWs (k.text ++ 58 :: r) = 34 :: s ∧
      ∃ s', scanString s.length.succ s = .ok (stringValue k.name, s') ∧ skipWs s' = 58 :: r := by
  refine ⟨_, ?_, spaces k.after ++ 58 :: r, scanString_length k.name _, ?_⟩
  · simp only [Key.text, stringText, List.append_assoc, List.cons_append, List.nil_append]
    rw [skipWs_spaces]
    rfl
  · rw [skipWs_spaces]
    rfl

section
variable {J : JsonRuntime} {fuel : Nat} {s s' t r rest : Text} {k : Text} {v : Value}
  {e : ReadError}

theorem scanMembers_next (hk : scanString s.length.succ s = .ok (k, s'))
    (hc : skipWs s' = 58 :: t) (h : scanOnce J fuel (skipWs t) = .ok (v, r))
    (hr : skipWs r = 44 :: rest) (acc : List (Text × Value)) :
    scanMembers J (fuel + 1) acc (34 :: s) =
      scanMembers J fuel (Json.setMember acc k v) (skipWs rest) := by
  rw [← setMembers_eq, scanMembers, hk, ok_bind]
  simp only [hc, h, ok_bind, hr]

theorem scanMembers_last (hk : scanString s.length.succ s = .ok (k, s'))
    (hc : skipWs s' = 58 :: t) (h : scanOnce J fuel (skipWs t) = .ok (v, r))
    (hr : skipWs r = 125 :: rest) (acc : List (Text × Value)) :
    scanMembers J (fuel + 1) acc (34 :: s) = .ok (.obj (Json.setMember acc k v), rest) := by
  rw [← setMembers_eq, scanMembers, hk, ok_bind]
  simp only [hc, h, ok_bind, hr]

theorem scanMembers_error (hk : scanString s.length.succ s = .ok (k, s'))
    (hc : skipWs s' = 58 :: t) (h : scanOnce J fuel (skipWs t) = .error e)
    (acc : List (Text × Value)) : scanMembers J (fuel + 1) acc (34 :: s) = .error e := by
  rw [scanMembers, hk, ok_bind]
  simp only [hc, h, error_bind]

end

theorem scanMembers_docs {J : JsonRuntime} {m : Key × Doc} {ms : List (Key × Doc)}
    (hscans : ∀ n ∈ m :: ms, Scans J n.2) {fuel : Nat}
    (hfuel : 2 * (m.1.text ++ 58 :: (m.2.text ++ Doc.membersTail ms)).length + 2 ≤ fuel)
    (acc : List (Text × Value)) (r : Text) :
    ((∀ n ∈ m :: ms, ShortInts n.2.value) →
      scanMembers J fuel acc (skipWs (m.1.text ++ 58 :: (m.2.text ++
        (Doc.membersTail ms ++ 125 :: r)))) =
        .ok (.obj (((m :: ms).map fun n => (stringValue n.1.name, pyValue n.2.value)).foldl
          (fun acc n => Json.setMember acc n.1 n.2) acc), r)) ∧
    (¬ (∀ n ∈ m :: ms, ShortInts n.2.value) →
      ∃ e, scanMembers J fuel acc (skipWs (m.1.text ++ 58 :: (m.2.text ++
        (Doc.membersTail ms ++ 125 :: r)))) = .error e) := by
  induction ms generalizing m fuel acc with
  | nil =>
    obtain ⟨fuel, rfl⟩ : ∃ m, fuel = m + 1 := ⟨fuel - 1, by omega⟩
    rw [Doc.membersTail, List.append_nil, List.length_append, List.length_cons] at hfuel
    rw [Doc.membersTail, List.nil_append]
    obtain ⟨s, hopen, s', hname, hcolon⟩ := scanKey m.1 (m.2.text ++ 125 :: r)
    obtain ⟨hok, herr⟩ := hscans m (by simp) fuel (125 :: r) (by omega) (ends_cons (by decide))
    rw [hopen]
    constructor
    · intro hshort
      obtain ⟨r', hscan, hskip⟩ := hok (hshort m (by simp))
      exact scanMembers_last hname hcolon hscan hskip acc
    · intro hlong
      obtain ⟨e, hscan⟩ := herr fun h => hlong (by simpa using h)
      exact ⟨e, scanMembers_error hname hcolon hscan acc⟩
  | cons n ns ih =>
    obtain ⟨fuel, rfl⟩ : ∃ m, fuel = m + 1 := ⟨fuel - 1, by omega⟩
    obtain ⟨k, d⟩ := n
    have hpos := List.length_pos_iff.mpr m.2.text_ne_nil
    rw [Doc.membersTail, List.length_append, List.length_cons, List.length_append,
      List.length_cons] at hfuel
    rw [Doc.membersTail, List.cons_append, List.append_assoc, List.cons_append,
      List.append_assoc]
    obtain ⟨hokTail, herrTail⟩ := @ih (k, d) (fun n hn => hscans n (List.mem_cons_of_mem _ hn))
      fuel (by dsimp only; omega)
      (Json.setMember acc (stringValue m.1.name) (pyValue m.2.value))
    generalize k.text ++ 58 :: (d.text ++ (Doc.membersTail ns ++ 125 :: r)) = next
      at hokTail herrTail ⊢
    obtain ⟨s, hopen, s', hname, hcolon⟩ := scanKey m.1 (m.2.text ++ 44 :: next)
    obtain ⟨hok, herr⟩ := hscans m (by simp) fuel (44 :: next) (by omega) (ends_cons (by decide))
    rw [hopen]
    by_cases hm : ShortInts m.2.value
    · obtain ⟨r', hscan, hskip⟩ := hok hm
      rw [scanMembers_next hname hcolon hscan hskip]
      constructor
      · intro hshort
        rw [hokTail fun n hn => hshort n (List.mem_cons_of_mem _ hn)]
        rfl
      · intro hlong
        refine herrTail fun h => hlong ?_
        rw [List.forall_mem_cons]
        exact ⟨hm, h⟩
    · refine ⟨fun hshort => absurd (hshort m (by simp)) hm, fun _ => ?_⟩
      obtain ⟨e, hscan⟩ := herr hm
      exact ⟨e, scanMembers_error hname hcolon hscan acc⟩

theorem scanOnce_bracket (J : JsonRuntime) (fuel : Nat) (s : Text) :
    scanOnce J (fuel + 1) (91 :: s) =
      match skipWs s with
      | 93 :: rest => .ok (.arr [], rest)
      | rest => scanItems J fuel [] rest := by
  rw [scanOnce]
  rfl

theorem scanOnce_brace (J : JsonRuntime) (fuel : Nat) (s : Text) :
    scanOnce J (fuel + 1) (123 :: s) =
      match skipWs s with
      | 125 :: rest => .ok (.obj [], rest)
      | rest => scanMembers J fuel [] rest := by
  rw [scanOnce]
  rfl

theorem scans_arr {J : JsonRuntime} (pad : List Space) {items : List Doc}
    (ih : ∀ d ∈ items, Scans J d) : Scans J (.arr pad items) := by
  intro fuel r hfuel hr
  obtain ⟨fuel, rfl⟩ : ∃ m, fuel = m + 1 := ⟨fuel - 1, by omega⟩
  have hiff : ShortInts (Doc.arr pad items).value ↔ ∀ d ∈ items, ShortInts d.value := by
    rw [Doc.value_arr, shortInts_arr, List.forall_mem_map]
  rw [hiff, Doc.value_arr, pyValue_arr, List.map_map]
  cases items with
  | nil =>
    have htext : skipWs ((Doc.arr pad []).text ++ r) = 91 :: (spaces pad ++ 93 :: r) := by
      rw [Doc.text, List.cons_append, List.append_assoc]
      rfl
    have hskip : skipWs (spaces pad ++ 93 :: r) = 93 :: r := skipWs_spaces _ _
    rw [htext, scanOnce_bracket, hskip]
    exact ⟨fun _ => ⟨r, rfl, rfl⟩, fun hlong => absurd (by simp) hlong⟩
  | cons v vs =>
    have htext : skipWs ((Doc.arr pad (v :: vs)).text ++ r) =
        91 :: (spaces pad ++ (v.text ++ (Doc.itemsTail vs ++ 93 :: r))) := by
      simp only [Doc.text, List.cons_append, List.append_assoc, List.nil_append]
      rfl
    have hlen : (Doc.arr pad (v :: vs)).text.length =
        (spaces pad).length + (v.text ++ Doc.itemsTail vs).length + 2 := by
      simp only [Doc.text, List.length_cons, List.length_append, List.length_nil]
      omega
    have hread := @scanItems_docs J v vs ih fuel (by omega) [] r
    obtain ⟨c, s, hhead, hc⟩ := skipWs_text v (Doc.itemsTail vs ++ 93 :: r)
    have hopen : scanOnce J (fuel + 1)
        (91 :: (spaces pad ++ (v.text ++ (Doc.itemsTail vs ++ 93 :: r)))) =
        scanItems J fuel [] (skipWs (v.text ++ (Doc.itemsTail vs ++ 93 :: r))) := by
      rw [scanOnce_bracket, skipWs_spaces, hhead]
      split
      · next heq => exact absurd (List.cons.inj heq).1 hc
      · rfl
    rw [htext, hopen]
    exact ⟨fun hshort => ⟨r, hread.1 hshort, rfl⟩, hread.2⟩

theorem scans_obj {J : JsonRuntime} (pad : List Space) {members : List (Key × Doc)}
    (ih : ∀ m ∈ members, Scans J m.2) : Scans J (.obj pad members) := by
  intro fuel r hfuel hr
  obtain ⟨fuel, rfl⟩ : ∃ m, fuel = m + 1 := ⟨fuel - 1, by omega⟩
  have hiff : ShortInts (Doc.obj pad members).value ↔ ∀ m ∈ members, ShortInts m.2.value := by
    rw [Doc.value_obj, shortInts_obj, List.forall_mem_map]
  rw [hiff, Doc.value_obj, pyValue_obj, List.map_map]
  rcases members with _ | ⟨⟨k, v⟩, ms⟩
  · have htext : skipWs ((Doc.obj pad []).text ++ r) = 123 :: (spaces pad ++ 125 :: r) := by
      rw [Doc.text, List.cons_append, List.append_assoc]
      rfl
    have hskip : skipWs (spaces pad ++ 125 :: r) = 125 :: r := skipWs_spaces _ _
    rw [htext, scanOnce_brace, hskip]
    exact ⟨fun _ => ⟨r, rfl, rfl⟩, fun hlong => absurd (by simp) hlong⟩
  · have htext : skipWs ((Doc.obj pad ((k, v) :: ms)).text ++ r) = 123 :: (spaces pad ++
        (k.text ++ 58 :: (v.text ++ (Doc.membersTail ms ++ 125 :: r)))) := by
      simp only [Doc.text, List.cons_append, List.append_assoc, List.nil_append]
      rfl
    have hlen : (Doc.obj pad ((k, v) :: ms)).text.length =
        (spaces pad).length + (k.text ++ 58 :: (v.text ++ Doc.membersTail ms)).length + 2 := by
      simp only [Doc.text, List.length_cons, List.length_append, List.length_nil]
      omega
    have hread := @scanMembers_docs J (k, v) ms ih fuel (by dsimp only; omega) [] r
    obtain ⟨s, hquote, -⟩ := scanKey k (v.text ++ (Doc.membersTail ms ++ 125 :: r))
    have hopen : scanOnce J (fuel + 1) (123 :: (spaces pad ++
        (k.text ++ 58 :: (v.text ++ (Doc.membersTail ms ++ 125 :: r))))) =
        scanMembers J fuel []
          (skipWs (k.text ++ 58 :: (v.text ++ (Doc.membersTail ms ++ 125 :: r)))) := by
      rw [scanOnce_brace, skipWs_spaces, hquote]
      rfl
    rw [htext, hopen]
    exact ⟨fun hshort => ⟨r, hread.1 hshort, rfl⟩, hread.2⟩

/-- Every document is read or refused, by the digits of its integers. -/
theorem scans_doc (J : JsonRuntime) (d : Doc) : Scans J d := by
  induction d using Doc.ind with
  | arr pad items ih => exact scans_arr pad ih
  | obj pad members ih => exact scans_obj pad ih
  | padded before d after ih =>
    intro fuel r hfuel hr
    have htext : skipWs ((Doc.padded before d after).text ++ r) =
        skipWs (d.text ++ (spaces after ++ r)) := by
      rw [Doc.text, List.append_assoc, skipWs_spaces, List.append_assoc]
    have hlen : d.text.length ≤ (Doc.padded before d after).text.length := by
      simp only [Doc.text, List.length_append]
      omega
    obtain ⟨hok, herr⟩ := ih fuel (spaces after ++ r) (by omega) (ends_spaces hr)
    rw [htext]
    refine ⟨fun hshort => ?_, herr⟩
    obtain ⟨r', hscan, hskip⟩ := hok hshort
    exact ⟨r', hscan, hskip.trans (skipWs_spaces _ _)⟩
  | null =>
    intro fuel r hfuel hr
    obtain ⟨fuel, rfl⟩ : ∃ m, fuel = m + 1 := ⟨fuel - 1, by omega⟩
    exact ⟨fun _ => ⟨r, rfl, rfl⟩, fun hlong => absurd trivial hlong⟩
  | bool b =>
    intro fuel r hfuel hr
    obtain ⟨fuel, rfl⟩ : ∃ m, fuel = m + 1 := ⟨fuel - 1, by omega⟩
    cases b <;> exact ⟨fun _ => ⟨r, rfl, rfl⟩, fun hlong => absurd trivial hlong⟩
  | num n =>
    intro fuel r hfuel hr
    obtain ⟨fuel, rfl⟩ : ∃ m, fuel = m + 1 := ⟨fuel - 1, by omega⟩
    obtain ⟨c, s, htext, hc⟩ := literal_head n
    have hskip : skipWs (n.text ++ r) = n.text ++ r := by
      rw [htext, List.cons_append, skipWs, if_neg (by omega)]
    rw [Doc.text, hskip, scanOnce_number, scanNumber_literal J n hr]
    constructor
    · intro hshort
      exact ⟨r, if_neg (Nat.not_lt.mpr hshort), rfl⟩
    · intro hlong
      exact ⟨_, if_pos (Nat.lt_of_not_le hlong)⟩
  | str s =>
    intro fuel r hfuel hr
    obtain ⟨fuel, rfl⟩ : ∃ m, fuel = m + 1 := ⟨fuel - 1, by omega⟩
    have htext : skipWs ((Doc.str s).text ++ r) =
        34 :: (s.flatMap StringItem.text ++ 34 :: r) := by
      simp only [Doc.text, stringText, List.cons_append, List.append_assoc, List.nil_append]
      rfl
    refine ⟨fun _ => ⟨r, ?_, rfl⟩, fun hlong => absurd trivial hlong⟩
    have h34 : (34 : CodePoint).val = 34 := rfl
    rw [htext, scanOnce, if_pos h34, scanString_length]
    rfl

/-! ## Bytes -/

theorem utf8Char_pos {c : CodePoint} (hc : 9 ≤ c.val) : ∀ b ∈ utf8Char c, b ≠ 0 := by
  have hlt := c.isLt
  have hbyte : ∀ n, 0 < n → n < 256 → UInt8.ofNat n ≠ 0 := by
    intro n hpos hn h
    have hv := congrArg UInt8.toNat h
    rw [toNat_ofNat_of_lt hn] at hv
    have h0 : (0 : UInt8).toNat = 0 := rfl
    omega
  unfold utf8Char
  split_ifs with h1 h2 h3 <;>
    simp only [List.mem_cons, List.not_mem_nil, or_false, forall_eq_or_imp, forall_eq]
  · exact hbyte _ (by omega) (by omega)
  · exact ⟨hbyte _ (by omega) (by omega), hbyte _ (by omega) (by omega)⟩
  · exact ⟨hbyte _ (by omega) (by omega), hbyte _ (by omega) (by omega),
      hbyte _ (by omega) (by omega)⟩
  · exact ⟨hbyte _ (by omega) (by omega), hbyte _ (by omega) (by omega),
      hbyte _ (by omega) (by omega), hbyte _ (by omega) (by omega)⟩

/-- Bytes that begin with an ASCII character and hold no zero are taken for UTF-8. -/
theorem detectEncoding_utf8 {b : UInt8} {bs : Bytes} (hb : b.toNat < 0x80)
    (h : ∀ x ∈ b :: bs, x ≠ 0) : detectEncoding (b :: bs) = .utf8 := by
  have hne : ∀ x : UInt8, 0x80 ≤ x.toNat ∨ x.toNat = 0 → ¬ x = b := by
    rintro x hx rfl
    rcases hx with hx | hx
    · omega
    · exact h x (by simp) (UInt8.toNat_inj.mp hx)
  have hfe := hne 0xFE (.inl (by decide))
  have hff := hne 0xFF (.inl (by decide))
  have hef := hne 0xEF (.inl (by decide))
  have h0 := hne 0 (.inr rfl)
  unfold detectEncoding
  rw [if_neg (by simp [h0, hff]), if_neg (by simp [hfe, hff]), if_neg (by simp [hef])]
  have hb0 : ¬ b = 0 := h b (by simp)
  split
  · next heq =>
    obtain ⟨rfl, rfl⟩ := List.cons.inj heq
    rw [if_neg hb0, if_neg (h _ (by simp))]
  · next heq =>
    obtain ⟨rfl, rfl⟩ := List.cons.inj heq
    rw [if_neg hb0, if_neg (h _ (by simp))]
  · rfl

theorem decodeJson_doc (J : JsonRuntime) (d : Doc) : decodeJson J (utf8 d.text) = pure d.text := by
  have hplain := d.plain_text
  obtain ⟨c, t, htext, hc⟩ := d.text_head
  have hpos : ∀ x ∈ utf8 d.text, x ≠ 0 := by
    intro x hx
    obtain ⟨e, he, hxe⟩ := List.mem_flatMap.mp hx
    exact utf8Char_pos (hplain e he).1 x hxe
  have hbytes : utf8 d.text = UInt8.ofNat c.val :: utf8 t := by
    rw [htext, utf8_cons, utf8Char, if_pos hc]
    rfl
  have henc : detectEncoding (utf8 d.text) = .utf8 := by
    rw [hbytes] at hpos ⊢
    exact detectEncoding_utf8 (by rw [toNat_ofNat_of_lt (by omega)]; exact hc) hpos
  rw [decodeJson, henc, utf8Decode_utf8 fun e he => (hplain e he).2]

/-- `json.loads` reads every document whose integers are short. -/
theorem jsonLoads_doc (J : JsonRuntime) (d : Doc) (h : ShortInts d.value) :
    jsonLoads J (utf8 d.text) = .ok (pyValue d.value) := by
  have hends : Ends [] := by simp [Ends]
  obtain ⟨hok, -⟩ := scans_doc J d (2 * d.text.length + 2) [] (by omega) hends
  rw [List.append_nil] at hok
  obtain ⟨r, hscan, hskip⟩ := hok h
  have hnil : skipWs r = [] := hskip
  rw [jsonLoads, decodeJson_doc, pure_bind, decodeText, hscan]
  simp only [hnil, if_true]
  rfl

/-- `json.loads` refuses a document with a long integer, also one that is overwritten. -/
theorem jsonLoads_long (J : JsonRuntime) (d : Doc) (h : ¬ ShortInts d.value) :
    ∃ e, jsonLoads J (utf8 d.text) = .error e := by
  have hends : Ends [] := by simp [Ends]
  obtain ⟨-, herr⟩ := scans_doc J d (2 * d.text.length + 2) [] (by omega) hends
  rw [List.append_nil] at herr
  obtain ⟨e, hscan⟩ := herr h
  rw [jsonLoads, decodeJson_doc, pure_bind, decodeText, hscan]
  cases e <;> exact ⟨_, rfl⟩

end Shadownet.Python
