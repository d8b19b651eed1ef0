import Mathlib.Data.Fintype.Basic
import Mathlib.Data.List.Basic
import Mathlib.Tactic.SplitIfs

/-!
# Code points, UTF-8 and UTF-16

A text is a list of code points, surrogates included: that is what a Python `str` is. A
byte string is what a Go `string` is. `utf8` and `utf16` encode texts; `utf8Decode` is the
strict decoder of RFC 3629, which refuses overlong forms, surrogates and everything above
`0x10FFFF`.

* `utf8Decode_utf8`: the decoder inverts the encoder on texts without surrogates.
* `utf8_injective`: two texts without surrogates have the same bytes only if they are equal.
* `text_eq`, `bytes_eq`: what a string literal stands for, character by character.
-/

namespace Shadownet.Foundation

abbrev Bytes := List UInt8

abbrev CodePoint := Fin 0x110000

/-- There are code points, so they have numerals. -/
instance neZero_codePoints : @NeZero Nat Zero.ofOfNat0 0x110000 := ⟨by decide⟩

abbrev Text := List CodePoint

namespace CodePoint

/-- A half of a UTF-16 pair: a code point that is no Unicode scalar value. -/
def IsSurrogate (c : CodePoint) : Prop := 0xD800 ≤ c.val ∧ c.val ≤ 0xDFFF

instance (c : CodePoint) : Decidable c.IsSurrogate :=
  inferInstanceAs (Decidable (_ ∧ _))

def IsAscii (c : CodePoint) : Prop := c.val < 0x80

instance (c : CodePoint) : Decidable c.IsAscii := inferInstanceAs (Decidable (_ < _))

end CodePoint

/-- The UTF-8 form of one code point. -/
def utf8Char (c : CodePoint) : Bytes :=
  if c.val < 0x80 then [UInt8.ofNat c.val]
  else if c.val < 0x800 then
    [UInt8.ofNat (0xC0 + c.val / 64), UInt8.ofNat (0x80 + c.val % 64)]
  else if c.val < 0x10000 then
    [UInt8.ofNat (0xE0 + c.val / 4096), UInt8.ofNat (0x80 + c.val / 64 % 64),
      UInt8.ofNat (0x80 + c.val % 64)]
  else
    [UInt8.ofNat (0xF0 + c.val / 262144), UInt8.ofNat (0x80 + c.val / 4096 % 64),
      UInt8.ofNat (0x80 + c.val / 64 % 64), UInt8.ofNat (0x80 + c.val % 64)]

def utf8 (s : Text) : Bytes := s.flatMap utf8Char

/-- The bytes of a Lean string literal. -/
def bytes (s : String) : Bytes := s.toByteArray.data.toList

/-- A continuation byte carries six bits. -/
def contBits (b : UInt8) : Option Nat :=
  if 0x80 ≤ b.toNat ∧ b.toNat < 0xC0 then some (b.toNat - 0x80) else none

/-- A code point from the bits of a multi-byte form, when `lo` says the form is not
overlong and the value is a scalar value. -/
def scalarFrom (lo n : Nat) : Option CodePoint :=
  if h : n < 0x110000 then
    if lo ≤ n ∧ ¬ CodePoint.IsSurrogate ⟨n, h⟩ then some ⟨n, h⟩ else none
  else none

/-- Reads `k` continuation bytes onto the bits `acc`. -/
def contRun : Nat → Nat → Bytes → Option (Nat × Bytes)
  | 0, acc, bs => some (acc, bs)
  | _ + 1, _, [] => none
  | k + 1, acc, b :: bs => (contBits b).bind fun x => contRun k (acc * 64 + x) bs

/-- A multi-byte form: `k` continuation bytes after the lead bits `acc`, not below `lo`. -/
def utf8Multi (lo k acc : Nat) (bs : Bytes) : Option (CodePoint × Bytes) :=
  (contRun k acc bs).bind fun r => (scalarFrom lo r.1).map (·, r.2)

/-- The first code point of a byte string and the bytes after it. -/
def utf8Next : Bytes → Option (CodePoint × Bytes)
  | [] => none
  | b :: bs =>
    if b.toNat < 0x80 then utf8Multi 0 0 b.toNat bs
    else if b.toNat < 0xC0 then none
    else if b.toNat < 0xE0 then utf8Multi 0x80 1 (b.toNat - 0xC0) bs
    else if b.toNat < 0xF0 then utf8Multi 0x800 2 (b.toNat - 0xE0) bs
    else if b.toNat < 0xF8 then utf8Multi 0x10000 3 (b.toNat - 0xF0) bs
    else none

/-- Decodes at most `fuel` code points; a byte string never holds more than its length. -/
def utf8DecodeFuel : Nat → Bytes → Option Text
  | _, [] => some []
  | 0, _ :: _ => none
  | fuel + 1, bs => do
    let (c, rest) ← utf8Next bs
    let cs ← utf8DecodeFuel fuel rest
    pure (c :: cs)

/-- The strict UTF-8 decoder. -/
def utf8Decode (bs : Bytes) : Option Text := utf8DecodeFuel bs.length bs

/-- The text of a Lean string literal. -/
def text (s : String) : Text := (utf8Decode (bytes s)).getD []

/-! ## The decoder inverts the encoder -/

theorem toNat_ofNat_of_lt {n : Nat} (h : n < 256) : (UInt8.ofNat n).toNat = n := by
  simpa using Nat.mod_eq_of_lt h

theorem contBits_ofNat {n : Nat} (h : n < 64) : contBits (UInt8.ofNat (0x80 + n)) = some n := by
  have hn : (UInt8.ofNat (0x80 + n)).toNat = 0x80 + n := toNat_ofNat_of_lt (by omega)
  unfold contBits
  rw [hn, if_pos (by omega), Nat.add_sub_cancel_left]

theorem scalarFrom_val {lo : Nat} {c : CodePoint} (hlo : lo ≤ c.val) (hs : ¬ c.IsSurrogate) :
    scalarFrom lo c.val = some c := by
  unfold scalarFrom
  rw [dif_pos c.isLt, if_pos ⟨hlo, hs⟩]

theorem contRun_cons {k acc n : Nat} (hn : n < 64) (bs : Bytes) :
    contRun (k + 1) acc (UInt8.ofNat (0x80 + n) :: bs) = contRun k (acc * 64 + n) bs := by
  rw [contRun, contBits_ofNat hn, Option.bind_some]

theorem utf8Multi_of_contRun {lo k acc : Nat} {c : CodePoint} {bs rest : Bytes}
    (h : contRun k acc bs = some (c.val, rest)) (hlo : lo ≤ c.val) (hs : ¬ c.IsSurrogate) :
    utf8Multi lo k acc bs = some (c, rest) := by
  rw [utf8Multi, h, Option.bind_some, scalarFrom_val hlo hs, Option.map_some]

theorem utf8Next_utf8Char (c : CodePoint) (hs : ¬ c.IsSurrogate) (rest : Bytes) :
    utf8Next (utf8Char c ++ rest) = some (c, rest) := by
  have hc := c.isLt
  unfold utf8Char
  split_ifs with h1 h2 h3
  · have h0 : (UInt8.ofNat c.val).toNat = c.val := toNat_ofNat_of_lt (by omega)
    simp only [List.cons_append, List.nil_append, utf8Next, h0]
    rw [if_pos h1]
    exact utf8Multi_of_contRun rfl (Nat.zero_le _) hs
  · have h0 : (UInt8.ofNat (0xC0 + c.val / 64)).toNat = 0xC0 + c.val / 64 :=
      toNat_ofNat_of_lt (by omega)
    simp only [List.cons_append, List.nil_append, utf8Next, h0]
    rw [if_neg (by omega), if_neg (by omega), if_pos (by omega)]
    refine utf8Multi_of_contRun ?_ (Nat.le_of_not_lt h1) hs
    rw [contRun_cons (Nat.mod_lt _ (by omega)), contRun]
    congr 2
    omega
  · have h0 : (UInt8.ofNat (0xE0 + c.val / 4096)).toNat = 0xE0 + c.val / 4096 :=
      toNat_ofNat_of_lt (by omega)
    simp only [List.cons_append, List.nil_append, utf8Next, h0]
    rw [if_neg (by omega), if_neg (by omega), if_neg (by omega), if_pos (by omega)]
    refine utf8Multi_of_contRun ?_ (Nat.le_of_not_lt h2) hs
    rw [contRun_cons (Nat.mod_lt _ (by omega)), contRun_cons (Nat.mod_lt _ (by omega)), contRun]
    congr 2
    omega
  · have h0 : (UInt8.ofNat (0xF0 + c.val / 262144)).toNat = 0xF0 + c.val / 262144 :=
      toNat_ofNat_of_lt (by omega)
    simp only [List.cons_append, List.nil_append, utf8Next, h0]
    rw [if_neg (by omega), if_neg (by omega), if_neg (by omega), if_neg (by omega),
      if_pos (by omega)]
    refine utf8Multi_of_contRun ?_ (Nat.le_of_not_lt h3) hs
    rw [contRun_cons (Nat.mod_lt _ (by omega)), contRun_cons (Nat.mod_lt _ (by omega)),
      contRun_cons (Nat.mod_lt _ (by omega)), contRun]
    congr 2
    omega

theorem utf8Char_ne_nil (c : CodePoint) : utf8Char c ≠ [] := by
  unfold utf8Char
  split_ifs <;> simp

theorem utf8_cons (c : CodePoint) (s : Text) : utf8 (c :: s) = utf8Char c ++ utf8 s := by
  simp [utf8]

theorem utf8_append (s t : Text) : utf8 (s ++ t) = utf8 s ++ utf8 t := by
  simp [utf8]

theorem utf8Char_ascii {c : CodePoint} (h : c.val < 0x80) : utf8Char c = [UInt8.ofNat c.val] := by
  rw [utf8Char, if_pos h]

theorem utf8_cons_ascii {c : CodePoint} (h : c.val < 0x80) (t : Text) :
    utf8 (c :: t) = UInt8.ofNat c.val :: utf8 t := by
  rw [utf8_cons, utf8Char_ascii h, List.singleton_append]

theorem utf8_ascii {s : Text} (h : ∀ c ∈ s, c.IsAscii) :
    utf8 s = s.map fun c => UInt8.ofNat c.val := by
  induction s with
  | nil => rfl
  | cons c s ih =>
    rw [utf8_cons_ascii (h c (by simp)), ih fun d hd => h d (by simp [hd]), List.map_cons]

theorem length_le_utf8 (s : Text) : s.length ≤ (utf8 s).length := by
  induction s with
  | nil => simp
  | cons c s ih =>
    have := List.length_pos_iff.mpr (utf8Char_ne_nil c)
    rw [utf8_cons, List.length_append, List.length_cons]
    omega

theorem utf8DecodeFuel_utf8 {s : Text} (hs : ∀ c ∈ s, ¬ c.IsSurrogate) {fuel : Nat}
    (hf : s.length ≤ fuel) : utf8DecodeFuel fuel (utf8 s) = some s := by
  induction s generalizing fuel with
  | nil => cases fuel <;> rfl
  | cons c s ih =>
    obtain ⟨fuel, rfl⟩ : ∃ m, fuel = m + 1 := ⟨fuel - 1, by simp at hf; omega⟩
    obtain ⟨b, bs, hb⟩ := List.exists_cons_of_ne_nil (utf8Char_ne_nil c)
    have hnext := utf8Next_utf8Char c (hs c (by simp)) (utf8 s)
    have hrest : utf8DecodeFuel fuel (utf8 s) = some s :=
      ih (fun d hd => hs d (by simp [hd])) (by simpa using hf)
    rw [utf8_cons]
    rw [hb] at hnext ⊢
    simp only [List.cons_append] at hnext ⊢
    simp only [utf8DecodeFuel, hnext, hrest, Option.bind_eq_bind, Option.bind_some]
    rfl

/-- Encoding a text without surrogates and decoding the bytes gives the text back. -/
theorem utf8Decode_utf8 {s : Text} (hs : ∀ c ∈ s, ¬ c.IsSurrogate) :
    utf8Decode (utf8 s) = some s :=
  utf8DecodeFuel_utf8 hs (length_le_utf8 s)

/-! ## The encoder inverts the decoder -/

theorem contRun_succ {k acc n : Nat} {bs rest : Bytes}
    (h : contRun (k + 1) acc bs = some (n, rest)) :
    ∃ i < 64, ∃ bs', bs = UInt8.ofNat (0x80 + i) :: bs' ∧
      contRun k (acc * 64 + i) bs' = some (n, rest) := by
  cases bs with
  | nil => cases h
  | cons b bs =>
    rw [contRun, Option.bind_eq_some_iff] at h
    obtain ⟨i, hi, h⟩ := h
    rw [contBits] at hi
    split_ifs at hi with hb
    have hi' := Option.some.inj hi
    refine ⟨i, by omega, bs, ?_, h⟩
    rw [show 0x80 + i = b.toNat by omega, UInt8.ofNat_toNat]

theorem contRun_zero {acc n : Nat} {bs rest : Bytes} (h : contRun 0 acc bs = some (n, rest)) :
    n = acc ∧ bs = rest := by
  rw [contRun, Option.some.injEq, Prod.mk.injEq] at h
  exact ⟨h.1.symm, h.2⟩

theorem utf8Multi_eq_some {lo k acc : Nat} {bs rest : Bytes} {c : CodePoint}
    (h : utf8Multi lo k acc bs = some (c, rest)) :
    contRun k acc bs = some (c.val, rest) ∧ lo ≤ c.val ∧ ¬ c.IsSurrogate := by
  rw [utf8Multi, Option.bind_eq_some_iff] at h
  obtain ⟨⟨n, r⟩, hrun, h⟩ := h
  rw [Option.map_eq_some_iff] at h
  obtain ⟨d, hd, heq⟩ := h
  obtain ⟨rfl, rfl⟩ := Prod.mk.inj heq
  rw [scalarFrom] at hd
  split_ifs at hd with hlt hlo
  obtain rfl := Option.some.inj hd
  exact ⟨hrun, hlo⟩

theorem utf8Next_eq_some {bs rest : Bytes} {c : CodePoint} (h : utf8Next bs = some (c, rest)) :
    bs = utf8Char c ++ rest ∧ ¬ c.IsSurrogate := by
  cases bs with
  | nil => cases h
  | cons b bs =>
    have hb : ∀ {n : Nat}, n = b.toNat → UInt8.ofNat n = b := fun hn => by
      rw [hn, UInt8.ofNat_toNat]
    rw [utf8Next] at h
    split_ifs at h with h1 h2 h3 h4 h5
    · obtain ⟨hrun, -, hs⟩ := utf8Multi_eq_some h
      obtain ⟨hn, rfl⟩ := contRun_zero hrun
      refine ⟨?_, hs⟩
      rw [utf8Char_ascii (by omega), hb hn, List.singleton_append]
    · obtain ⟨hrun, hlo, hs⟩ := utf8Multi_eq_some h
      obtain ⟨i, hi, bs, rfl, hrun₁⟩ := contRun_succ hrun
      obtain ⟨hn, rfl⟩ := contRun_zero hrun₁
      refine ⟨?_, hs⟩
      rw [utf8Char, if_neg (by omega), if_pos (by omega),
        hb (show 0xC0 + c.val / 64 = b.toNat by omega),
        show 0x80 + c.val % 64 = 0x80 + i by omega]
      rfl
    · obtain ⟨hrun, hlo, hs⟩ := utf8Multi_eq_some h
      obtain ⟨i, hi, bs, rfl, hrun₁⟩ := contRun_succ hrun
      obtain ⟨j, hj, bs, rfl, hrun₂⟩ := contRun_succ hrun₁
      obtain ⟨hn, rfl⟩ := contRun_zero hrun₂
      refine ⟨?_, hs⟩
      rw [utf8Char, if_neg (by omega), if_neg (by omega), if_pos (by omega),
        hb (show 0xE0 + c.val / 4096 = b.toNat by omega),
        show 0x80 + c.val / 64 % 64 = 0x80 + i by omega,
        show 0x80 + c.val % 64 = 0x80 + j by omega]
      rfl
    · obtain ⟨hrun, hlo, hs⟩ := utf8Multi_eq_some h
      obtain ⟨i, hi, bs, rfl, hrun₁⟩ := contRun_succ hrun
      obtain ⟨j, hj, bs, rfl, hrun₂⟩ := contRun_succ hrun₁
      obtain ⟨k, hk, bs, rfl, hrun₃⟩ := contRun_succ hrun₂
      obtain ⟨hn, rfl⟩ := contRun_zero hrun₃
      refine ⟨?_, hs⟩
      rw [utf8Char, if_neg (by omega), if_neg (by omega), if_neg (by omega),
        hb (show 0xF0 + c.val / 262144 = b.toNat by omega),
        show 0x80 + c.val / 4096 % 64 = 0x80 + i by omega,
        show 0x80 + c.val / 64 % 64 = 0x80 + j by omega,
        show 0x80 + c.val % 64 = 0x80 + k by omega]
      rfl

/-- What the strict decoder accepts is the UTF-8 form of what it returns. -/
theorem utf8Decode_eq_some {bs : Bytes} {t : Text} (h : utf8Decode bs = some t) :
    utf8 t = bs ∧ ∀ c ∈ t, ¬ c.IsSurrogate := by
  rw [utf8Decode] at h
  generalize bs.length = fuel at h
  induction fuel generalizing bs t with
  | zero =>
    cases bs with
    | nil =>
      obtain rfl := Option.some.inj h
      exact ⟨rfl, by simp⟩
    | cons b bs => cases h
  | succ fuel ih =>
    cases bs with
    | nil =>
      obtain rfl := Option.some.inj h
      exact ⟨rfl, by simp⟩
    | cons b bs =>
      simp only [utf8DecodeFuel, Option.bind_eq_bind, Option.bind_eq_some_iff, Option.pure_def,
        Option.some.injEq] at h
      obtain ⟨⟨c, rest⟩, hnext, cs, hcs, rfl⟩ := h
      obtain ⟨hbytes, hc⟩ := utf8Next_eq_some hnext
      obtain ⟨hrest, hclean⟩ := ih hcs
      exact ⟨by rw [utf8_cons, hrest, hbytes], List.forall_mem_cons.mpr ⟨hc, hclean⟩⟩

theorem utf8_injective {s t : Text} (hs : ∀ c ∈ s, ¬ c.IsSurrogate)
    (ht : ∀ c ∈ t, ¬ c.IsSurrogate) (h : utf8 s = utf8 t) : s = t := by
  have h' := utf8Decode_utf8 hs
  rw [h, utf8Decode_utf8 ht] at h'
  exact (Option.some.inj h').symm

/-! ## String literals -/

/-- A character of a Lean string; none is a surrogate. -/
def ofChar (c : Char) : CodePoint :=
  ⟨c.val.toNat, c.valid.elim (fun h => h.trans (by decide)) fun h => h.2⟩

theorem val_ofChar (c : Char) : (ofChar c).val = c.val.toNat := rfl

theorem not_isSurrogate_ofChar (c : Char) : ¬ (ofChar c).IsSurrogate := by
  rintro ⟨hlo, hhi⟩
  rw [val_ofChar] at hlo hhi
  rcases c.valid with h | h
  · omega
  · omega

theorem ofChar_injective : Function.Injective ofChar := by
  intro c d h
  have hval : (ofChar c).val = (ofChar d).val := congrArg Fin.val h
  rw [val_ofChar, val_ofChar] at hval
  exact Char.ext (UInt32.toNat_inj.mp hval)

theorem utf8Char_ofChar (c : Char) : utf8Char (ofChar c) = String.utf8EncodeChar c := by
  unfold utf8Char String.utf8EncodeChar
  dsimp only
  rw [← val_ofChar]
  have hlt := (ofChar c).isLt
  generalize (ofChar c).val = n at *
  by_cases h1 : n < 0x80
  · rw [if_pos h1, if_pos (by omega : n ≤ 0x7F)]
  rw [if_neg h1, if_neg (by omega : ¬ n ≤ 0x7F)]
  by_cases h2 : n < 0x800
  · rw [if_pos h2, if_pos (by omega : n ≤ 0x7FF), Nat.mod_eq_of_lt (by omega : n / 64 < 0x20),
      Nat.add_comm 0xC0, Nat.add_comm 0x80]
  rw [if_neg h2, if_neg (by omega : ¬ n ≤ 0x7FF)]
  by_cases h3 : n < 0x10000
  · rw [if_pos h3, if_pos (by omega : n ≤ 0xFFFF),
      Nat.mod_eq_of_lt (by omega : n / 4096 < 0x10), Nat.add_comm 0xE0, Nat.add_comm 0x80,
      Nat.add_comm 0x80]
  rw [if_neg h3, if_neg (by omega : ¬ n ≤ 0xFFFF),
    Nat.mod_eq_of_lt (by omega : n / 262144 < 0x08), Nat.add_comm 0xF0, Nat.add_comm 0x80,
    Nat.add_comm 0x80, Nat.add_comm 0x80]

theorem bytes_eq (s : String) : bytes s = utf8 (s.toList.map ofChar) := by
  rw [bytes, ← String.utf8Encode_toList, List.utf8Encode, List.toList_data_toByteArray, utf8,
    List.flatMap_map]
  simp only [utf8Char_ofChar]

theorem clean_chars (s : String) : ∀ c ∈ s.toList.map ofChar, ¬ c.IsSurrogate := by
  intro c hc
  obtain ⟨d, -, rfl⟩ := List.mem_map.mp hc
  exact not_isSurrogate_ofChar d

theorem text_eq (s : String) : text s = s.toList.map ofChar := by
  rw [text, bytes_eq, utf8Decode_utf8 (clean_chars s), Option.getD_some]

theorem utf8_text (s : String) : utf8 (text s) = bytes s := by
  rw [text_eq, bytes_eq]

theorem utf8Decode_bytes (s : String) : utf8Decode (bytes s) = some (text s) := by
  rw [bytes_eq, utf8Decode_utf8 (clean_chars s), text_eq]

theorem text_injective : Function.Injective text := by
  intro s t h
  rw [text_eq, text_eq] at h
  exact String.toList_inj.mp (List.map_injective_iff.mpr ofChar_injective h)

theorem bytes_injective : Function.Injective bytes := by
  intro s t h
  have hdec := utf8Decode_bytes s
  rw [h, utf8Decode_bytes, Option.some.injEq] at hdec
  exact (text_injective hdec).symm

/-! ## UTF-16 -/

/-- The UTF-16 code units of one code point. -/
def utf16Char (c : CodePoint) : List Nat :=
  if c.val < 0x10000 then [c.val]
  else [0xD800 + (c.val - 0x10000) / 1024, 0xDC00 + (c.val - 0x10000) % 1024]

def utf16 (s : Text) : List Nat := s.flatMap utf16Char

/-- A code whose words can be told from what follows them is read in one way. -/
theorem flatMap_injective {α β : Type} {f : α → List β} {P : α → Prop}
    (hne : ∀ {a}, P a → f a ≠ [])
    (huniq : ∀ {a b r r'}, P a → P b → f a ++ r = f b ++ r' → a = b ∧ r = r')
    {s t : List α} (hs : ∀ a ∈ s, P a) (ht : ∀ a ∈ t, P a) (h : s.flatMap f = t.flatMap f) :
    s = t := by
  induction s generalizing t with
  | nil =>
    cases t with
    | nil => rfl
    | cons b t => simp [hne (ht b (by simp))] at h
  | cons a s ih =>
    cases t with
    | nil => simp [hne (hs a (by simp))] at h
    | cons b t =>
      rw [List.flatMap_cons, List.flatMap_cons] at h
      obtain ⟨rfl, hrest⟩ := huniq (hs a (by simp)) (ht b (by simp)) h
      rw [ih (fun c hc => hs c (by simp [hc])) (fun c hc => ht c (by simp [hc])) hrest]

theorem utf16Char_unique {c d : CodePoint} {r r' : List Nat} (hc : ¬ c.IsSurrogate)
    (hd : ¬ d.IsSurrogate) (h : utf16Char c ++ r = utf16Char d ++ r') : c = d ∧ r = r' := by
  have hcl := c.isLt
  have hdl := d.isLt
  unfold CodePoint.IsSurrogate at hc hd
  unfold utf16Char at h
  split_ifs at h with h1 h2 h2
  · simp only [List.cons_append, List.nil_append, List.cons.injEq] at h
    exact ⟨Fin.ext h.1, h.2⟩
  · simp only [List.cons_append, List.nil_append, List.cons.injEq] at h
    omega
  · simp only [List.cons_append, List.nil_append, List.cons.injEq] at h
    omega
  · simp only [List.cons_append, List.nil_append, List.cons.injEq] at h
    exact ⟨Fin.ext (by omega), h.2.2⟩

theorem utf16_injective {s t : Text} (hs : ∀ c ∈ s, ¬ c.IsSurrogate)
    (ht : ∀ c ∈ t, ¬ c.IsSurrogate) (h : utf16 s = utf16 t) : s = t := by
  refine flatMap_injective (P := fun c => ¬ CodePoint.IsSurrogate c) ?_ utf16Char_unique hs ht h
  intro c _
  unfold utf16Char
  split_ifs <;> simp

end Shadownet.Foundation
