import Shadownet.Foundation.Document
import Shadownet.Go.Jcs

/-!
# Reading documents with `encoding/json`

`parse` reads every document of RFC 8259 whose nesting it allows (`parse_doc`). The value is
the one the document says, with each half of a surrogate pair that stands alone replaced.
-/

namespace Shadownet.Go

open Foundation

/-- What `encoding/json` makes of a code point: a lone half is replaced. -/
def replaceHalf (c : CodePoint) : CodePoint := if c.IsSurrogate then 0xFFFD else c

/-- The Go string for the text of a JSON string. -/
def goString (s : Text) : Bytes := utf8 (s.map replaceHalf)

/-- The Go value for what a document says. -/
def goValue (v : Json Text IntLit) : JsonDoc := v.map goString fun n => utf8 n.text

/-! ## Bytes -/

theorem skipSpace_spaces (ws : List Space) (r : Bytes) :
    skipSpace (utf8 (spaces ws) ++ r) = skipSpace r := by
  induction ws with
  | nil => rfl
  | cons w ws ih =>
    have hcons : utf8 (spaces (w :: ws)) = UInt8.ofNat w.code.val :: utf8 (spaces ws) :=
      utf8_cons_ascii (by cases w <;> decide) _
    rw [hcons, List.cons_append, skipSpace]
    cases w <;> exact ih

theorem skipSpace_idem (bs : Bytes) : skipSpace (skipSpace bs) = skipSpace bs := by
  induction bs with
  | nil => rfl
  | cons b bs ih =>
    rw [skipSpace]
    split_ifs with h
    · exact ih
    · rw [skipSpace, if_neg h]

/-- The bytes that may follow a value in a document. -/
def Ends (r : Bytes) : Prop :=
  ∀ b ∈ r.head?, b = 0x20 ∨ b = 0x09 ∨ b = 0x0A ∨ b = 0x0D ∨ b = 0x2C ∨ b = 0x5D ∨ b = 0x7D

theorem ends_cons {b : UInt8} {r : Bytes}
    (h : b = 0x20 ∨ b = 0x09 ∨ b = 0x0A ∨ b = 0x0D ∨ b = 0x2C ∨ b = 0x5D ∨ b = 0x7D) :
    Ends (b :: r) := by
  intro b' hb
  rw [List.head?_cons, Option.mem_some_iff] at hb
  rwa [← hb]

theorem ends_spaces {ws : List Space} {r : Bytes} (h : Ends r) : Ends (utf8 (spaces ws) ++ r) := by
  cases ws with
  | nil => exact h
  | cons w ws =>
    have hcons : utf8 (spaces (w :: ws)) = UInt8.ofNat w.code.val :: utf8 (spaces ws) :=
      utf8_cons_ascii (by cases w <;> decide) _
    rw [hcons, List.cons_append]
    exact ends_cons (by cases w <;> decide)

/-! ## Strings -/

theorem hexDigit_code (h : HexDigit) : hexDigit (UInt8.ofNat h.code.val) = some h.digit.val := by
  obtain ⟨d, u⟩ := h
  revert d u
  decide

theorem code_lt (h : HexDigit) : h.code.val < 0x80 := by
  obtain ⟨d, u⟩ := h
  revert d u
  decide

theorem utf8_unicode (a b c d : HexDigit) :
    utf8 (StringItem.unicode a b c d).text = [0x5C, 0x75, UInt8.ofNat a.code.val,
      UInt8.ofNat b.code.val, UInt8.ofNat c.code.val, UInt8.ofNat d.code.val] := by
  rw [StringItem.text, utf8_cons_ascii (by decide), utf8_cons_ascii (by decide),
    utf8_cons_ascii (code_lt a), utf8_cons_ascii (code_lt b), utf8_cons_ascii (code_lt c),
    utf8_cons_ascii (code_lt d)]
  rfl

theorem hex4_code (a b c d : HexDigit) (r : Bytes) :
    hex4 (UInt8.ofNat a.code.val :: UInt8.ofNat b.code.val :: UInt8.ofNat c.code.val ::
      UInt8.ofNat d.code.val :: r) = some (StringItem.hexValue a b c d, r) := by
  simp [hex4, hexDigit_code, StringItem.hexValue]

theorem lowHalf_unicode (a b c d : HexDigit) (r : Bytes) :
    lowHalf (utf8 (StringItem.unicode a b c d).text ++ r) =
      if IsLow (StringItem.unicode a b c d).unit then some (StringItem.hexValue a b c d, r)
      else none := by
  have hread : lowHalf (utf8 (StringItem.unicode a b c d).text ++ r) =
      (some (StringItem.hexValue a b c d, r)).filter
        fun u => 0xDC00 ≤ u.1 && u.1 ≤ 0xDFFF := by
    rw [utf8_unicode, ← hex4_code]
    rfl
  have hiff : (decide (0xDC00 ≤ StringItem.hexValue a b c d) &&
      decide (StringItem.hexValue a b c d ≤ 0xDFFF)) = true ↔
        IsLow (StringItem.unicode a b c d).unit := by
    rw [Bool.and_eq_true, decide_eq_true_eq, decide_eq_true_eq, IsLow, unit_unicode_val]
  rw [hread, Option.filter_some]
  exact if_congr hiff rfl rfl

theorem lowHalf_none {s : List StringItem} (h : ¬ LowNext s) (r : Bytes) :
    lowHalf (utf8 (s.flatMap StringItem.text) ++ 0x22 :: r) = none := by
  cases s with
  | nil => rfl
  | cons i s =>
    rw [List.flatMap_cons, utf8_append, List.append_assoc]
    cases i with
    | raw c hc =>
      have hnext : ∀ t : Bytes, ∃ b bs, utf8Char c ++ t = b :: bs ∧ b ≠ 0x5C := by
        intro t
        unfold utf8Char
        have := hc.2.2.1
        have hlt := c.isLt
        split_ifs with h1 h2 h3 <;> refine ⟨_, _, rfl, fun hb => ?_⟩ <;>
          · have hv := congrArg UInt8.toNat hb
            rw [toNat_ofNat_of_lt (by omega)] at hv
            have h5c : (0x5C : UInt8).toNat = 92 := rfl
            omega
      obtain ⟨b, bs, heq, hb⟩ := hnext (utf8 (s.flatMap StringItem.text) ++ 0x22 :: r)
      have htext : utf8 (StringItem.raw c hc).text = utf8Char c := by
        simp [StringItem.text, utf8]
      rw [htext, heq]
      unfold lowHalf
      split
      · next heq' => exact absurd (List.cons.inj heq').1 hb
      · rfl
    | short e => cases e <;> rfl
    | unicode a b c d =>
      rw [lowHalf_unicode, if_neg fun hlow => h ⟨_, rfl, hlow⟩]

theorem replaceHalf_of_not_surrogate {c : CodePoint} (h : ¬ c.IsSurrogate) : replaceHalf c = c :=
  if_neg h

theorem goString_cons (c : CodePoint) (s : Text) :
    goString (c :: s) = utf8Char (replaceHalf c) ++ goString s := by
  rw [goString, List.map_cons, utf8_cons, goString]

/-- One `\u` escape, or two that are a pair. -/
theorem unicodeEscape_single {s : List StringItem} {a b c d : HexDigit}
    (h : ¬ (IsHigh (StringItem.unicode a b c d).unit ∧ LowNext s)) (r : Bytes) :
    unicodeEscape (UInt8.ofNat a.code.val :: UInt8.ofNat b.code.val :: UInt8.ofNat c.code.val ::
      UInt8.ofNat d.code.val :: (utf8 (s.flatMap StringItem.text) ++ 0x22 :: r)) =
      some (utf8Char (replaceHalf (StringItem.unicode a b c d).unit),
        utf8 (s.flatMap StringItem.text) ++ 0x22 :: r) := by
  have hval := unit_unicode_val a b c d
  have hrep : utf8Char 0xFFFD = replacement := rfl
  rw [unicodeEscape, hex4_code]
  simp only [Option.bind_eq_bind, Option.bind_some]
  by_cases hhigh : IsHigh (StringItem.unicode a b c d).unit
  · have hsur := hhigh.surrogate
    have hu := hhigh
    unfold IsHigh at hu
    rw [hval] at hu
    rw [if_pos hu, lowHalf_none fun hlow => h ⟨hhigh, hlow⟩, replaceHalf, if_pos hsur, hrep]
    rfl
  · have hu := hhigh
    unfold IsHigh at hu
    rw [hval] at hu
    rw [if_neg hu]
    by_cases hlow : IsLow (StringItem.unicode a b c d).unit
    · have hsur := hlow.surrogate
      unfold IsLow at hlow
      rw [hval] at hlow
      rw [if_pos hlow, replaceHalf, if_pos hsur, hrep]
      rfl
    · have hsur : ¬ (StringItem.unicode a b c d).unit.IsSurrogate := by
        unfold IsHigh at hhigh
        unfold IsLow at hlow
        unfold CodePoint.IsSurrogate
        omega
      unfold IsLow at hlow
      rw [hval] at hlow
      rw [if_neg hlow, replaceHalf_of_not_surrogate hsur]
      rfl

theorem unicodeEscape_pair {a b c d a' b' c' d' : HexDigit}
    (hhigh : IsHigh (StringItem.unicode a b c d).unit)
    (hlow : IsLow (StringItem.unicode a' b' c' d').unit) (r : Bytes) :
    unicodeEscape (UInt8.ofNat a.code.val :: UInt8.ofNat b.code.val :: UInt8.ofNat c.code.val ::
      UInt8.ofNat d.code.val :: (utf8 (StringItem.unicode a' b' c' d').text ++ r)) =
      some (utf8Char (pairOf (StringItem.unicode a b c d).unit
        (StringItem.unicode a' b' c' d').unit), r) := by
  have hu := hhigh
  unfold IsHigh at hu
  rw [unit_unicode_val] at hu
  rw [unicodeEscape, hex4_code]
  simp only [Option.bind_eq_bind, Option.bind_some]
  rw [if_pos hu, lowHalf_unicode, if_pos hlow, pairOf, unit_unicode_val, unit_unicode_val]
  rfl

/-- A character that stands for itself. -/
theorem readString_raw {c : CodePoint} (hc : Raw c) (fuel : Nat) (r : Bytes) :
    readString (fuel + 1) (utf8Char c ++ r) =
      (readString fuel r).map fun t => (utf8Char c ++ t.1, t.2) := by
  obtain ⟨b, bs, hb⟩ := List.exists_cons_of_ne_nil (utf8Char_ne_nil c)
  have hnext := utf8Next_utf8Char c hc.2.2.2 r
  have hbyte : b.toNat = 0x22 ∨ b.toNat = 0x5C ∨ b.toNat < 0x20 → False := by
    have hlt := c.isLt
    obtain ⟨h1, h2, h3, -⟩ := hc
    unfold utf8Char at hb
    split_ifs at hb <;>
      · have hv := congrArg UInt8.toNat (List.cons.inj hb).1
        rw [toNat_ofNat_of_lt (by omega)] at hv
        omega
  have hq : (b == 0x22) = false :=
    beq_eq_false_iff_ne.mpr fun h => hbyte (.inl (congrArg UInt8.toNat h))
  have hs : (b == 0x5C) = false :=
    beq_eq_false_iff_ne.mpr fun h => hbyte (.inr (.inl (congrArg UInt8.toNat h)))
  have hlt : ¬ b.toNat < 0x20 := fun h => hbyte (.inr (.inr h))
  have hbytes : utf8Char c ++ r = b :: (bs ++ r) := by rw [hb, List.cons_append]
  have hrune : nextRune b (bs ++ r) = (c, r) := by rw [nextRune, ← hbytes, hnext]
  rw [hbytes]
  change (if (b == 0x22) = true then _ else if (b == 0x5C) = true then _ else _) = _
  rw [hq, hs, if_neg Bool.false_ne_true, if_neg Bool.false_ne_true, if_neg hlt, hrune]
  cases h : readString fuel r <;> simp [h]

theorem readString_short (e : ShortEscape) (fuel : Nat) (r : Bytes) :
    readString (fuel + 1) (utf8 (StringItem.short e).text ++ r) =
      (readString fuel r).map fun t => (utf8Char e.code ++ t.1, t.2) := by
  have hbytes : utf8 (StringItem.short e).text = [0x5C, UInt8.ofNat e.letter.val] := by
    cases e <;> rfl
  have hesc : simpleEscape (UInt8.ofNat e.letter.val) = some (UInt8.ofNat e.code.val) := by
    cases e <;> rfl
  have hu : (UInt8.ofNat e.letter.val == 0x75) = false := by cases e <;> rfl
  have hcode : utf8Char e.code = [UInt8.ofNat e.code.val] :=
    utf8Char_ascii (by cases e <;> decide)
  rw [hbytes, hcode, List.cons_append, List.singleton_append]
  change (if (UInt8.ofNat e.letter.val == 0x75) = true then _ else _) = _
  rw [hu, if_neg Bool.false_ne_true, hesc]
  cases readString fuel r <;> simp

theorem readString_unicode (a b c d : HexDigit) (fuel : Nat) (r : Bytes) :
    readString (fuel + 1) (utf8 (StringItem.unicode a b c d).text ++ r) =
      (unicodeEscape (UInt8.ofNat a.code.val :: UInt8.ofNat b.code.val ::
        UInt8.ofNat c.code.val :: UInt8.ofNat d.code.val :: r)).bind fun u =>
        (readString fuel u.2).map fun t => (u.1 ++ t.1, t.2) := by
  rw [utf8_unicode]
  change (unicodeEscape _ >>= _) = _
  rw [Option.bind_eq_bind]
  congr 1
  funext u
  cases h : readString fuel u.2 <;> simp [h]

theorem readString_items (s : List StringItem) {fuel : Nat} (hf : s.length < fuel) (r : Bytes) :
    readString fuel (utf8 (s.flatMap StringItem.text) ++ 0x22 :: r) =
      some (goString (stringValue s), r) := by
  induction hn : s.length using Nat.strong_induction_on generalizing s fuel with
  | _ n ih =>
    obtain ⟨fuel, rfl⟩ : ∃ m, fuel = m + 1 := ⟨fuel - 1, by omega⟩
    cases s with
    | nil => rfl
    | cons i s =>
      rw [List.length_cons] at hf hn
      have hrest := @ih s.length (by omega) s fuel (by omega) rfl
      rw [List.flatMap_cons, utf8_append, List.append_assoc]
      cases i with
      | raw c hc =>
        have hsur : ¬ (StringItem.raw c hc).unit.IsSurrogate := hc.2.2.2
        have htext : utf8 (StringItem.raw c hc).text = utf8Char c := by
          simp [StringItem.text, utf8]
        rw [stringValue_scalar s hsur, goString_cons,
          replaceHalf_of_not_surrogate hsur, htext, readString_raw hc, hrest, Option.map_some]
        rfl
      | short e =>
        have hsur : ¬ (StringItem.short e).unit.IsSurrogate :=
          unit_not_surrogate fun _ _ _ _ h => by cases h
        rw [stringValue_scalar s hsur, goString_cons,
          replaceHalf_of_not_surrogate hsur, readString_short, hrest, Option.map_some]
        rfl
      | unicode a b c d =>
        rw [readString_unicode]
        by_cases hpair : IsHigh (StringItem.unicode a b c d).unit ∧ LowNext s
        · -- The next item is the low half, and it can only be an escape.
          obtain ⟨hhigh, l, hhead, hlow⟩ := hpair
          cases s with
          | nil => cases hhead
          | cons j s =>
            obtain rfl : j.unit = l := Option.some.inj hhead
            cases j with
            | unicode a' b' c' d' =>
              rw [List.length_cons] at hf hn
              have hrest' := @ih s.length (by omega) s fuel (by omega) rfl
              rw [stringValue_pair s hhigh hlow, goString_cons,
                replaceHalf_of_not_surrogate (pairOf_not_surrogate hhigh hlow),
                List.flatMap_cons, utf8_append, List.append_assoc,
                unicodeEscape_pair hhigh hlow, Option.bind_some, hrest', Option.map_some]
            | raw c hc => exact absurd hlow.surrogate hc.2.2.2
            | short e =>
              have hsur : ¬ (StringItem.short e).unit.IsSurrogate :=
                unit_not_surrogate fun _ _ _ _ h => by cases h
              exact absurd hlow.surrogate hsur
        · rw [stringValue_single hpair, goString_cons, unicodeEscape_single hpair,
            Option.bind_some, hrest, Option.map_some]

/-! ## Numbers -/

theorem utf8_digits (ds : List Nat) (h : ∀ d ∈ ds, d < 10) :
    utf8 (ds.map digitText) = ds.map fun d => UInt8.ofNat (48 + d) := by
  induction ds with
  | nil => rfl
  | cons d ds ih =>
    have hval := digitText_val (h d (by simp))
    have hlt := h d (by simp)
    rw [List.map_cons, utf8_cons_ascii (by omega), hval, ih fun e he => h e (by simp [he]),
      List.map_cons]

theorem isDigit_ofNat {d : Nat} (h : d < 10) : isDigit (UInt8.ofNat (48 + d)) = true := by
  have := toNat_ofNat_of_lt (n := 48 + d) (by omega)
  simp only [isDigit, this, Bool.and_eq_true, decide_eq_true_eq]
  omega

/-- What may follow a value is no part of a number. -/
theorem Ends.not_digit {r : Bytes} (h : Ends r) : r.takeWhile isDigit = [] := by
  cases r with
  | nil => rfl
  | cons b r =>
    have hb : isDigit b = false := by
      rcases h b rfl with rfl | rfl | rfl | rfl | rfl | rfl | rfl <;> rfl
    rw [List.takeWhile_cons_of_neg (by simp [hb])]

theorem Ends.optionalPart {mark : UInt8 → Bool} {read : Bytes → Option (Bytes × Bytes)}
    {r : Bytes} (h : Ends r)
    (hmark : ∀ b, b = 0x20 ∨ b = 0x09 ∨ b = 0x0A ∨ b = 0x0D ∨ b = 0x2C ∨ b = 0x5D ∨ b = 0x7D →
      mark b = false) : optionalPart mark read r = some ([], r) := by
  cases r with
  | nil => rfl
  | cons b r => rw [Go.optionalPart, hmark b (h b rfl), if_neg Bool.false_ne_true]

theorem digits1_digits {ds : List Nat} (hne : ds ≠ []) (h : ∀ d ∈ ds, d < 10) {r : Bytes}
    (hr : Ends r) : digits1 ((ds.map fun d => UInt8.ofNat (48 + d)) ++ r) =
      some (ds.map fun d => UInt8.ofNat (48 + d), r) := by
  have htake : ((ds.map fun d => UInt8.ofNat (48 + d)) ++ r).takeWhile isDigit =
      ds.map fun d => UInt8.ofNat (48 + d) := by
    rw [List.takeWhile_append_of_pos, hr.not_digit, List.append_nil]
    intro b hb
    obtain ⟨d, hd, rfl⟩ := List.mem_map.mp hb
    exact isDigit_ofNat (h d hd)
  rw [digits1, htake, if_neg (by simpa using hne), List.drop_left]

/-- The integer part of a literal. -/
theorem readInteger_digits (ds : Digits) {r : Bytes} (hr : Ends r) :
    readInteger (utf8 ds.text ++ r) = some (utf8 ds.text, r) := by
  have hbytes : utf8 ds.text = ds.list.map fun d => UInt8.ofNat (48 + d) :=
    utf8_digits _ fun _ => Digits.lt_of_mem
  rw [hbytes]
  cases ds with
  | zero => rfl
  | pos d es =>
    have hne : UInt8.ofNat (48 + (d.val + 1)) ≠ 0x30 := by
      intro h
      have hv := congrArg UInt8.toNat h
      rw [toNat_ofNat_of_lt (by omega)] at hv
      have h30 : (0x30 : UInt8).toNat = 48 := rfl
      omega
    have hread := @digits1_digits (Digits.pos d es).list (by simp [Digits.list])
      (fun _ => Digits.lt_of_mem) r hr
    rw [← hread, Digits.list, List.map_cons, List.cons_append, readInteger]
    intro rest heq
    exact hne (List.cons.inj heq).1

theorem readNumber_literal (n : IntLit) {r : Bytes} (hr : Ends r) :
    readNumber (utf8 n.text ++ r) = some (utf8 n.text, r) := by
  have hint := readInteger_digits n.digits hr
  have hfrac : optionalPart (· == 0x2E) digits1 r = some ([], r) :=
    hr.optionalPart (by rintro b (rfl | rfl | rfl | rfl | rfl | rfl | rfl) <;> rfl)
  have hexp : optionalPart (fun b => b == 0x65 || b == 0x45) readExponent r = some ([], r) :=
    hr.optionalPart (by rintro b (rfl | rfl | rfl | rfl | rfl | rfl | rfl) <;> rfl)
  by_cases hneg : n.neg = true
  · have htext : utf8 n.text = 0x2D :: utf8 n.digits.text := by
      rw [IntLit.text, if_pos hneg]
      exact utf8_cons_ascii (by decide) _
    rw [htext, List.cons_append, readNumber]
    simp [hint, hfrac, hexp]
  · have htext : utf8 n.text = utf8 n.digits.text := by rw [IntLit.text, if_neg hneg]
    have hhead : ∀ rest, utf8 n.digits.text ++ r ≠ 0x2D :: rest := by
      intro rest heq
      rw [heq] at hint
      simp [readInteger, digits1, isDigit] at hint
    rw [htext, readNumber]
    simp [hint, hfrac, hexp]
    exact hhead

/-! ## Values -/

theorem readValue_skipSpace (fuel depth : Nat) (bs : Bytes) :
    readValue fuel depth (skipSpace bs) = readValue fuel depth bs := by
  cases fuel with
  | zero => rfl
  | succ fuel => rw [readValue, readValue, skipSpace_idem]

/-- No value begins with a closing bracket. -/
theorem readValue_close {fuel depth : Nat} {bs r : Bytes} (h : skipSpace bs = 0x5D :: r) :
    readValue fuel depth bs = none := by
  cases fuel with
  | zero => rfl
  | succ fuel =>
    rw [readValue, h]
    simp [readNumber, readInteger, digits1, isDigit]

/-- The document is read, and what is left differs from what follows it by whitespace. -/
def Reads (d : Doc) : Prop :=
  ∀ fuel depth r, 2 * (utf8 d.text).length + 1 ≤ fuel → d.depth ≤ depth → Ends r →
    ∃ r', readValue fuel depth (utf8 d.text ++ r) = some (goValue d.value, r') ∧
      skipSpace r' = skipSpace r

theorem utf8_nil : utf8 [] = [] := rfl

theorem utf8_quote (t : Text) : utf8 (34 :: t) = 0x22 :: utf8 t := utf8_cons_ascii (by decide) t

theorem utf8_comma (t : Text) : utf8 (44 :: t) = 0x2C :: utf8 t := utf8_cons_ascii (by decide) t

theorem utf8_colon (t : Text) : utf8 (58 :: t) = 0x3A :: utf8 t := utf8_cons_ascii (by decide) t

theorem utf8_openBracket (t : Text) : utf8 (91 :: t) = 0x5B :: utf8 t :=
  utf8_cons_ascii (by decide) t

theorem utf8_closeBracket (t : Text) : utf8 (93 :: t) = 0x5D :: utf8 t :=
  utf8_cons_ascii (by decide) t

theorem utf8_openBrace (t : Text) : utf8 (123 :: t) = 0x7B :: utf8 t :=
  utf8_cons_ascii (by decide) t

theorem utf8_closeBrace (t : Text) : utf8 (125 :: t) = 0x7D :: utf8 t :=
  utf8_cons_ascii (by decide) t

theorem utf8_text_pos (d : Doc) : 0 < (utf8 d.text).length :=
  (List.length_pos_iff.mpr d.text_ne_nil).trans_le (length_le_utf8 _)

theorem readItems_docs {v : Doc} {vs : List Doc} (hreads : ∀ d ∈ v :: vs, Reads d)
    {fuel depth : Nat} (hfuel : 2 * (utf8 (v.text ++ Doc.itemsTail vs)).length + 2 ≤ fuel)
    (hdepth : ∀ d ∈ v :: vs, d.depth ≤ depth) (r : Bytes) :
    readItems fuel depth (utf8 v.text ++ (utf8 (Doc.itemsTail vs) ++ 0x5D :: r)) =
      some ((v :: vs).map fun d => goValue d.value, r) := by
  induction vs generalizing v fuel with
  | nil =>
    obtain ⟨fuel, rfl⟩ : ∃ m, fuel = m + 1 := ⟨fuel - 1, by omega⟩
    rw [Doc.itemsTail, List.append_nil] at hfuel
    obtain ⟨r', hread, hskip⟩ := hreads v (by simp) fuel depth (0x5D :: r) (by omega)
      (hdepth v (by simp)) (ends_cons (by decide))
    rw [Doc.itemsTail, utf8_nil, List.nil_append, readItems, hread]
    simp only [Option.bind_eq_bind, Option.bind_some]
    rw [hskip]
    rfl
  | cons w ws ih =>
    obtain ⟨fuel, rfl⟩ : ∃ m, fuel = m + 1 := ⟨fuel - 1, by omega⟩
    have hpos := utf8_text_pos v
    rw [Doc.itemsTail, utf8_append, utf8_comma, List.length_append, List.length_cons] at hfuel
    obtain ⟨r', hread, hskip⟩ := hreads v (by simp) fuel depth
      (0x2C :: (utf8 (w.text ++ Doc.itemsTail ws) ++ 0x5D :: r)) (by omega) (hdepth v (by simp))
      (ends_cons (by decide))
    have hrest := @ih w (fun d hd => hreads d (by simp [hd])) fuel (by omega)
      (fun d hd => hdepth d (by simp [hd]))
    rw [Doc.itemsTail, utf8_comma, List.cons_append, readItems, hread]
    simp only [Option.bind_eq_bind, Option.bind_some]
    rw [hskip]
    change Option.map _ (readItems fuel depth _) = _
    rw [utf8_append, List.append_assoc, hrest]
    rfl

theorem readString_length (s : List StringItem) (r : Bytes) :
    readString (utf8 (s.flatMap StringItem.text) ++ 0x22 :: r).length.succ
      (utf8 (s.flatMap StringItem.text) ++ 0x22 :: r) = some (goString (stringValue s), r) := by
  refine readString_items s ?_ r
  have hitems := length_le_items s
  have hutf8 := length_le_utf8 (s.flatMap StringItem.text)
  rw [List.length_append]
  omega

/-- A member up to the colon. -/
theorem readKey (k : Key) (r : Bytes) :
    ∃ bs, skipSpace (utf8 k.text ++ 0x3A :: r) = 0x22 :: bs ∧
      ∃ bs', readString bs.length.succ bs = some (goString (stringValue k.name), bs') ∧
        skipSpace bs' = 0x3A :: r := by
  refine ⟨_, ?_, utf8 (spaces k.after) ++ 0x3A :: r, readString_length k.name _, ?_⟩
  · simp only [Key.text, stringText, utf8_append, utf8_quote, List.append_assoc,
      List.cons_append, List.nil_append]
    rw [skipSpace_spaces]
    rfl
  · rw [skipSpace_spaces]
    rfl

theorem readMembers_docs {m : Key × Doc} {ms : List (Key × Doc)}
    (hreads : ∀ n ∈ m :: ms, Reads n.2) {fuel depth : Nat}
    (hfuel : 2 * (utf8 (m.1.text ++ 58 :: (m.2.text ++ Doc.membersTail ms))).length + 2 ≤ fuel)
    (hdepth : ∀ n ∈ m :: ms, n.2.depth ≤ depth) (r : Bytes) :
    readMembers fuel depth (utf8 m.1.text ++ 0x3A :: (utf8 m.2.text ++
      (utf8 (Doc.membersTail ms) ++ 0x7D :: r))) =
      some ((m :: ms).map fun n => (goString (stringValue n.1.name), goValue n.2.value), r) := by
  induction ms generalizing m fuel with
  | nil =>
    obtain ⟨fuel, rfl⟩ : ∃ m, fuel = m + 1 := ⟨fuel - 1, by omega⟩
    rw [Doc.membersTail, List.append_nil, utf8_append, utf8_colon, List.length_append,
      List.length_cons] at hfuel
    obtain ⟨bs, hopen, bs', hname, hcolon⟩ := readKey m.1 (utf8 m.2.text ++ 0x7D :: r)
    obtain ⟨r', hread, hskip⟩ := hreads m (by simp) fuel depth (0x7D :: r) (by omega)
      (hdepth m (by simp)) (ends_cons (by decide))
    rw [Doc.membersTail, utf8_nil, List.nil_append, readMembers, hopen]
    simp only [hname, Option.bind_eq_bind, Option.bind_some]
    rw [hcolon]
    simp only [hread, Option.bind_some]
    rw [hskip]
    rfl
  | cons n ns ih =>
    obtain ⟨fuel, rfl⟩ : ∃ m, fuel = m + 1 := ⟨fuel - 1, by omega⟩
    obtain ⟨k, d⟩ := n
    have hpos := utf8_text_pos m.2
    have htail : utf8 (Doc.membersTail ((k, d) :: ns)) ++ 0x7D :: r = 0x2C :: (utf8 k.text ++
        0x3A :: (utf8 d.text ++ (utf8 (Doc.membersTail ns) ++ 0x7D :: r))) := by
      simp only [Doc.membersTail, utf8_append, utf8_comma, utf8_colon, List.append_assoc,
        List.cons_append]
    rw [Doc.membersTail, utf8_append, utf8_colon, utf8_append, utf8_comma, List.length_append,
      List.length_cons, List.length_append, List.length_cons] at hfuel
    have hrest := @ih (k, d) (fun n hn => hreads n (by simp [hn])) fuel
      (by dsimp only; omega) (fun n hn => hdepth n (by simp [hn]))
    rw [htail]
    generalize utf8 k.text ++ 0x3A :: (utf8 d.text ++ (utf8 (Doc.membersTail ns) ++ 0x7D :: r)) =
      next at hrest ⊢
    obtain ⟨bs, hopen, bs', hname, hcolon⟩ := readKey m.1 (utf8 m.2.text ++ 0x2C :: next)
    obtain ⟨r', hread, hskip⟩ := hreads m (by simp) fuel depth (0x2C :: next) (by omega)
      (hdepth m (by simp)) (ends_cons (by decide))
    rw [readMembers, hopen]
    simp only [hname, Option.bind_eq_bind, Option.bind_some]
    rw [hcolon]
    simp only [hread, Option.bind_some]
    rw [hskip]
    change Option.map _ (readMembers fuel depth next) = _
    rw [hrest]
    rfl

theorem readItems_skipSpace (fuel depth : Nat) (bs : Bytes) :
    readItems fuel depth (skipSpace bs) = readItems fuel depth bs := by
  cases fuel with
  | zero => rfl
  | succ fuel => rw [readItems, readItems, readValue_skipSpace]

theorem readMembers_skipSpace (fuel depth : Nat) (bs : Bytes) :
    readMembers fuel depth (skipSpace bs) = readMembers fuel depth bs := by
  cases fuel with
  | zero => rfl
  | succ fuel => rw [readMembers, readMembers, skipSpace_idem]

theorem readValue_bracket (fuel depth : Nat) (bs : Bytes) :
    readValue (fuel + 1) (depth + 1) (0x5B :: bs) =
      match skipSpace bs with
      | 0x5D :: rest => some (.arr [], rest)
      | rest => (readItems fuel depth rest).map fun r => (.arr r.1, r.2) := by
  rw [readValue]
  rfl

theorem readValue_brace (fuel depth : Nat) (bs : Bytes) :
    readValue (fuel + 1) (depth + 1) (0x7B :: bs) =
      match skipSpace bs with
      | 0x7D :: rest => some (.obj [], rest)
      | rest => (readMembers fuel depth rest).map fun r => (.obj r.1, r.2) := by
  rw [readValue]
  rfl

theorem reads_arr (pad : List Space) {items : List Doc} (ih : ∀ d ∈ items, Reads d) :
    Reads (.arr pad items) := by
  intro fuel depth r hfuel hdepth hr
  obtain ⟨fuel, rfl⟩ : ∃ m, fuel = m + 1 := ⟨fuel - 1, by omega⟩
  rw [Doc.depth] at hdepth
  obtain ⟨depth, rfl⟩ : ∃ m, depth = m + 1 := ⟨depth - 1, by omega⟩
  refine ⟨r, ?_, rfl⟩
  cases items with
  | nil =>
    have htext : utf8 (Doc.arr pad []).text ++ r = 0x5B :: (utf8 (spaces pad) ++ 0x5D :: r) := by
      simp only [Doc.text, utf8_openBracket, utf8_append, utf8_closeBracket, utf8_nil,
        List.cons_append, List.append_assoc, List.nil_append]
    have hskip : skipSpace (utf8 (spaces pad) ++ 0x5D :: r) = 0x5D :: r := skipSpace_spaces _ _
    rw [htext, readValue_bracket, hskip]
    rfl
  | cons v vs =>
    have htext : utf8 (Doc.arr pad (v :: vs)).text ++ r = 0x5B :: (utf8 (spaces pad) ++
        (utf8 v.text ++ (utf8 (Doc.itemsTail vs) ++ 0x5D :: r))) := by
      simp only [Doc.text, utf8_openBracket, utf8_append, utf8_closeBracket, utf8_nil,
        List.cons_append, List.append_assoc, List.nil_append]
    have hlen : (utf8 (Doc.arr pad (v :: vs)).text).length = (utf8 (spaces pad)).length +
        (utf8 (v.text ++ Doc.itemsTail vs)).length + 2 := by
      simp only [Doc.text, utf8_openBracket, utf8_append, utf8_closeBracket, utf8_nil,
        List.length_cons, List.length_append, List.length_nil]
      omega
    have hread := @readItems_docs v vs ih fuel depth (by omega)
      (Doc.depthItems_le_iff.mp (Nat.le_of_succ_le_succ hdepth)) r
    rw [htext, readValue_bracket, skipSpace_spaces, Doc.value_arr, goValue, Json.map_arr,
      List.map_map]
    -- The first item does not begin with the closing bracket, for it is read.
    have hopen : ∀ rest, skipSpace (utf8 v.text ++ (utf8 (Doc.itemsTail vs) ++ 0x5D :: r)) ≠
        0x5D :: rest := by
      intro rest heq
      obtain ⟨fuel, rfl⟩ : ∃ m, fuel = m + 1 := ⟨fuel - 1, by omega⟩
      rw [readItems, readValue_close heq] at hread
      cases hread
    rw [← readItems_skipSpace] at hread
    generalize skipSpace (utf8 v.text ++ (utf8 (Doc.itemsTail vs) ++ 0x5D :: r)) = bs at hread hopen
    split
    · exact absurd rfl (hopen _)
    · rw [hread]
      rfl

theorem reads_obj (pad : List Space) {members : List (Key × Doc)}
    (ih : ∀ m ∈ members, Reads m.2) : Reads (.obj pad members) := by
  intro fuel depth r hfuel hdepth hr
  obtain ⟨fuel, rfl⟩ : ∃ m, fuel = m + 1 := ⟨fuel - 1, by omega⟩
  rw [Doc.depth] at hdepth
  obtain ⟨depth, rfl⟩ : ∃ m, depth = m + 1 := ⟨depth - 1, by omega⟩
  refine ⟨r, ?_, rfl⟩
  cases members with
  | nil =>
    have htext : utf8 (Doc.obj pad []).text ++ r = 0x7B :: (utf8 (spaces pad) ++ 0x7D :: r) := by
      simp only [Doc.text, utf8_openBrace, utf8_append, utf8_closeBrace, utf8_nil,
        List.cons_append, List.append_assoc, List.nil_append]
    have hskip : skipSpace (utf8 (spaces pad) ++ 0x7D :: r) = 0x7D :: r := skipSpace_spaces _ _
    rw [htext, readValue_brace, hskip]
    rfl
  | cons m ms =>
    obtain ⟨k, v⟩ := m
    have htext : utf8 (Doc.obj pad ((k, v) :: ms)).text ++ r = 0x7B :: (utf8 (spaces pad) ++
        (utf8 k.text ++ 0x3A :: (utf8 v.text ++ (utf8 (Doc.membersTail ms) ++ 0x7D :: r)))) := by
      simp only [Doc.text, utf8_openBrace, utf8_append, utf8_closeBrace, utf8_colon, utf8_nil,
        List.cons_append, List.append_assoc, List.nil_append]
    have hlen : (utf8 (Doc.obj pad ((k, v) :: ms)).text).length = (utf8 (spaces pad)).length +
        (utf8 (k.text ++ 58 :: (v.text ++ Doc.membersTail ms))).length + 2 := by
      simp only [Doc.text, utf8_openBrace, utf8_append, utf8_closeBrace, utf8_colon, utf8_nil,
        List.length_cons, List.length_append, List.length_nil]
      omega
    have hread := @readMembers_docs (k, v) ms ih fuel depth (by dsimp only; omega)
      (Doc.depthMembers_le_iff.mp (Nat.le_of_succ_le_succ hdepth)) r
    obtain ⟨bs, hquote, -⟩ :=
      readKey k (utf8 v.text ++ (utf8 (Doc.membersTail ms) ++ 0x7D :: r))
    rw [htext, readValue_brace, skipSpace_spaces, Doc.value_obj, goValue, Json.map_obj,
      List.map_map]
    rw [← readMembers_skipSpace] at hread
    rw [hquote] at hread ⊢
    change Option.map _ (readMembers fuel depth (0x22 :: bs)) = _
    rw [hread]
    rfl

theorem readValue_number (fuel depth : Nat) (n : IntLit) (r : Bytes) :
    readValue (fuel + 1) depth (utf8 n.text ++ r) =
      (readNumber (utf8 n.text ++ r)).map fun r => (.num r.1, r.2) := by
  have hhead : ∃ b bs, utf8 n.text = b :: bs ∧
      b ∈ [0x2D, 0x30, 0x31, 0x32, 0x33, 0x34, 0x35, 0x36, 0x37, 0x38, (0x39 : UInt8)] := by
    obtain ⟨neg, ds⟩ := n
    cases neg with
    | true => exact ⟨0x2D, _, utf8_cons_ascii (by decide) _, by decide⟩
    | false =>
      have hbytes : utf8 (IntLit.mk false ds).text = ds.list.map fun d => UInt8.ofNat (48 + d) :=
        utf8_digits _ fun _ => Digits.lt_of_mem
      cases ds with
      | zero => exact ⟨0x30, _, hbytes, by decide⟩
      | pos d es =>
        refine ⟨_, _, hbytes, ?_⟩
        have hdigit : ∀ d : Fin 9, UInt8.ofNat (48 + (d.val + 1)) ∈
            [0x2D, 0x30, 0x31, 0x32, 0x33, 0x34, 0x35, 0x36, 0x37, 0x38, (0x39 : UInt8)] := by
          decide
        exact hdigit d
  obtain ⟨b, bs, hbytes, hb⟩ := hhead
  rw [hbytes, List.cons_append]
  simp only [List.mem_cons, List.not_mem_nil, or_false] at hb
  rcases hb with rfl | rfl | rfl | rfl | rfl | rfl | rfl | rfl | rfl | rfl | rfl <;>
    · rw [readValue]
      rfl

/-- Every document is read. -/
theorem reads_doc (d : Doc) : Reads d := by
  induction d using Doc.ind with
  | arr pad items ih => exact reads_arr pad ih
  | obj pad members ih => exact reads_obj pad ih
  | padded before d after ih =>
    intro fuel depth r hfuel hdepth hr
    have htext : utf8 (Doc.padded before d after).text ++ r =
        utf8 (spaces before) ++ (utf8 d.text ++ (utf8 (spaces after) ++ r)) := by
      simp only [Doc.text, utf8_append, List.append_assoc]
    have hlen : (utf8 d.text).length ≤ (utf8 (Doc.padded before d after).text).length := by
      simp only [Doc.text, utf8_append, List.length_append]
      omega
    obtain ⟨r', hread, hskip⟩ := ih fuel depth (utf8 (spaces after) ++ r) (by omega) hdepth
      (ends_spaces hr)
    refine ⟨r', ?_, hskip.trans (skipSpace_spaces _ _)⟩
    rw [htext, ← readValue_skipSpace, skipSpace_spaces, readValue_skipSpace, hread]
    rfl
  | null =>
    intro fuel depth r hfuel hdepth hr
    obtain ⟨fuel, rfl⟩ : ∃ m, fuel = m + 1 := ⟨fuel - 1, by omega⟩
    exact ⟨r, rfl, rfl⟩
  | bool b =>
    intro fuel depth r hfuel hdepth hr
    obtain ⟨fuel, rfl⟩ : ∃ m, fuel = m + 1 := ⟨fuel - 1, by omega⟩
    cases b <;> exact ⟨r, rfl, rfl⟩
  | num n =>
    intro fuel depth r hfuel hdepth hr
    obtain ⟨fuel, rfl⟩ : ∃ m, fuel = m + 1 := ⟨fuel - 1, by omega⟩
    refine ⟨r, ?_, rfl⟩
    rw [Doc.text, readValue_number, readNumber_literal n hr]
    rfl
  | str s =>
    intro fuel depth r hfuel hdepth hr
    obtain ⟨fuel, rfl⟩ : ∃ m, fuel = m + 1 := ⟨fuel - 1, by omega⟩
    refine ⟨r, ?_, rfl⟩
    have htext : utf8 (Doc.str s).text ++ r =
        0x22 :: (utf8 (s.flatMap StringItem.text) ++ 0x22 :: r) := by
      simp only [Doc.text, stringText, utf8_quote, utf8_append, utf8_nil, List.cons_append,
        List.append_assoc, List.nil_append]
    rw [htext, readValue]
    change Option.map _ (readString _ _) = _
    rw [readString_length]
    rfl

/-- `encoding/json` reads every document whose nesting it allows. -/
theorem parse_doc (d : Doc) (hd : d.depth ≤ 10000) :
    parse (utf8 d.text) = some (goValue d.value) := by
  have hends : Ends [] := by simp [Ends]
  obtain ⟨r, hread, hskip⟩ := reads_doc d (2 * (utf8 d.text).length + 2) 10000 [] (by omega) hd
    hends
  rw [List.append_nil] at hread
  have hnil : skipSpace r = [] := hskip
  rw [parse, hread]
  simp only [hnil, if_true]

end Shadownet.Go
