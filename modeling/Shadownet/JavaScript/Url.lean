import Mathlib.Data.List.DropRight
import Shadownet.Foundation.Pairs
import Shadownet.Foundation.Split
import Shadownet.JavaScript.Basic

/-!
# `URL` and `URLSearchParams`

`new URL(s)` comes with the host. Its parameters are strings without lone halves, written as
`application/x-www-form-urlencoded` and read from it; both are defined here.

* `paramsOf_paramsToString`: parameters that are written are read back.
-/

namespace Shadownet.JavaScript

open Foundation

/-! ## Strings without lone halves -/

/-- The units of a text. -/
def ofText (t : Text) : JsString := (utf16 t).map UInt16.ofNat

/-- A lone half becomes U+FFFD. -/
def replaceHalf (c : CodePoint) : CodePoint := if c.IsSurrogate then 0xFFFD else c

/-- The conversion to a `USVString`. -/
def toUSVString (s : JsString) : JsString := ofText ((codePoints s).map replaceHalf)

/-- `s.isWellFormed()`. -/
def WellFormed (s : JsString) : Prop := ∀ c ∈ codePoints s, ¬ c.IsSurrogate

theorem not_isSurrogate_replaceHalf (c : CodePoint) : ¬ (replaceHalf c).IsSurrogate := by
  rw [replaceHalf]
  split_ifs with h
  · decide
  · exact h

theorem joinPairs_of_scalar {t : Text} (h : ∀ c ∈ t, ¬ c.IsSurrogate) : joinPairs t = t :=
  joinPairs_eq_self_iff.mpr fun x y a b heq hp =>
    h x (by rw [heq]; simp) hp.1.surrogate

theorem codePoints_ofText {t : Text} (h : ∀ c ∈ t, ¬ c.IsSurrogate) :
    codePoints (ofText t) = t := by
  have hunits : ∀ c : CodePoint, ((utf16Char c).map UInt16.ofNat).map
      (fun u => (Fin.ofNat 0x110000 u.toNat : CodePoint)) = halves c := by
    intro c
    have hc : c.val < 0x110000 := c.isLt
    have hunit : ∀ n, n < 0x10000 → (UInt16.ofNat n).toNat = n := by
      intro n hn
      rw [UInt16.toNat_ofNat']
      exact Nat.mod_eq_of_lt hn
    rw [utf16Char, halves]
    split_ifs with hbmp
    · simp only [List.map_cons, List.map_nil, hunit _ hbmp, Fin.ofNat_eq_cast,
        Fin.cast_val_eq_self]
    · have hhigh : (c.val - 0x10000) / 1024 % 1024 = (c.val - 0x10000) / 1024 :=
        Nat.mod_eq_of_lt (by omega)
      simp only [List.map_cons, List.map_nil, hunit (0xD800 + (c.val - 0x10000) / 1024) (by omega),
        hunit (0xDC00 + (c.val - 0x10000) % 1024) (by omega), hhigh]
  have hmap : (ofText t).map (fun u => (Fin.ofNat 0x110000 u.toNat : CodePoint)) =
      t.flatMap halves := by
    rw [ofText, utf16, List.map_flatMap, List.map_flatMap]
    exact List.flatMap_congr fun c _ => hunits c
  rw [codePoints, hmap, joinPairs_halves, joinPairs_of_scalar h]

/-- The units of the code points of a string are its own. -/
theorem ofText_codePoints (s : JsString) : ofText (codePoints s) = s := by
  have hunits : ∀ w : Text, (∀ c ∈ w, c.val < 0x10000) →
      utf16 (joinPairs w) = w.map Fin.val := by
    intro w hw
    have hsingle : ∀ c ∈ w, utf16Char c = [c.val] := fun c hc => if_pos (hw c hc)
    induction w using joinPairs.induct with
    | case1 h l rest hp ih =>
      have hval := pairOf_val hp.1 hp.2
      obtain ⟨hhigh, hlow⟩ := hp
      unfold IsHigh at hhigh
      unfold IsLow at hlow
      have hpair : utf16Char (pairOf h l) = [h.val, l.val] := by
        have hfirst : 0xD800 + ((pairOf h l).val - 0x10000) / 1024 = h.val := by omega
        have hsecond : 0xDC00 + ((pairOf h l).val - 0x10000) % 1024 = l.val := by omega
        rw [utf16Char, if_neg (by omega), hfirst, hsecond]
      rw [joinPairs, if_pos ⟨hhigh, hlow⟩, utf16, List.flatMap_cons, hpair, ← utf16,
        ih (fun c hc => hw c (by simp [hc])) (fun c hc => hsingle c (by simp [hc]))]
      rfl
    | case2 h l rest hp ih =>
      rw [joinPairs, if_neg hp, utf16, List.flatMap_cons, hsingle h (by simp), ← utf16,
        ih (fun c hc => hw c (by simp [hc])) (fun c hc => hsingle c (by simp [hc]))]
      rfl
    | case3 c => rw [joinPairs, utf16, List.flatMap_singleton, hsingle c (by simp)]; rfl
    | case4 => rfl
  have hlt : ∀ u : UInt16, ((Fin.ofNat 0x110000 u.toNat : CodePoint)).val = u.toNat := by
    intro u
    have hu := u.toNat_lt
    exact Nat.mod_eq_of_lt (by omega)
  rw [ofText, codePoints, hunits, List.map_map, List.map_map]
  · conv_rhs => rw [← List.map_id s]
    refine List.map_congr_left fun u _ => ?_
    simp only [Function.comp_apply, hlt, id_eq, UInt16.ofNat_toNat]
  · intro c hc
    obtain ⟨u, -, rfl⟩ := List.mem_map.mp hc
    rw [hlt]
    exact u.toNat_lt

theorem codePoints_toUSVString (s : JsString) :
    codePoints (toUSVString s) = (codePoints s).map replaceHalf := by
  refine codePoints_ofText fun c hc => ?_
  obtain ⟨d, -, rfl⟩ := List.mem_map.mp hc
  exact not_isSurrogate_replaceHalf d

theorem wellFormed_toUSVString (s : JsString) : WellFormed (toUSVString s) := by
  intro c hc
  rw [codePoints_toUSVString] at hc
  obtain ⟨d, -, rfl⟩ := List.mem_map.mp hc
  exact not_isSurrogate_replaceHalf d

theorem toUSVString_eq_self_iff {s : JsString} : toUSVString s = s ↔ WellFormed s := by
  constructor
  · intro h
    rw [← h]
    exact wellFormed_toUSVString s
  · intro h
    have hmap : (codePoints s).map replaceHalf = codePoints s := by
      conv_rhs => rw [← List.map_id (codePoints s)]
      exact List.map_congr_left fun c hc => if_neg (h c hc)
    rw [toUSVString, hmap, ofText_codePoints]

theorem length_toUSVString (s : JsString) : (toUSVString s).length = s.length := by
  have hchar : ∀ c, (utf16Char (replaceHalf c)).length = (utf16Char c).length := by
    intro c
    rw [replaceHalf]
    split_ifs with h
    · have hbmp : c.val < 0x10000 := by
        unfold CodePoint.IsSurrogate at h
        omega
      rw [utf16Char, utf16Char, if_pos (by decide), if_pos hbmp]
      rfl
    · rfl
  have hlen : ∀ t : Text, (utf16 (t.map replaceHalf)).length = (utf16 t).length := by
    intro t
    induction t with
    | nil => rfl
    | cons c t ih =>
      rw [utf16] at ih ⊢
      rw [utf16] at ih ⊢
      rw [List.map_cons, List.flatMap_cons, List.flatMap_cons, List.length_append,
        List.length_append, hchar, ih]
  conv_rhs => rw [← ofText_codePoints s]
  rw [toUSVString, ofText, ofText, List.length_map, List.length_map, hlen]

theorem wellFormed_append {a b : JsString} (h : ∀ u ∈ b.head?, u.toNat < 0xD800) :
    WellFormed (a ++ b) ↔ WellFormed a ∧ WellFormed b := by
  have hhead : ∀ l ∈ (b.map fun u => (Fin.ofNat 0x110000 u.toNat : CodePoint)).head?,
      ¬ IsLow l := by
    intro l hl
    rw [List.head?_map, Option.mem_map] at hl
    obtain ⟨u, hu, rfl⟩ := hl
    have hlt := h u hu
    have hval : (Fin.ofNat 0x110000 u.toNat : CodePoint).val = u.toNat :=
      Nat.mod_eq_of_lt (by omega)
    rw [IsLow, hval]
    omega
  rw [WellFormed, WellFormed, WellFormed, codePoints, codePoints, codePoints, List.map_append,
    joinPairs_append hhead, List.forall_mem_append]

theorem wellFormed_of_lt {s : JsString} (h : ∀ u ∈ s, u.toNat < 0xD800) : WellFormed s := by
  have hscalar : ∀ c ∈ s.map fun u => (Fin.ofNat 0x110000 u.toNat : CodePoint),
      ¬ CodePoint.IsSurrogate c := by
    intro c hc
    obtain ⟨u, hu, rfl⟩ := List.mem_map.mp hc
    have hlt := h u hu
    have hval : (Fin.ofNat 0x110000 u.toNat : CodePoint).val = u.toNat :=
      Nat.mod_eq_of_lt (by omega)
    unfold CodePoint.IsSurrogate
    omega
  rw [WellFormed, codePoints, joinPairs_of_scalar hscalar]
  exact hscalar

/-! ## `application/x-www-form-urlencoded` -/

/-- The bytes that stand for themselves. -/
def isFormPlain (b : UInt8) : Bool :=
  (48 ≤ b.toNat && b.toNat ≤ 57) || (65 ≤ b.toNat && b.toNat ≤ 90) ||
    (97 ≤ b.toNat && b.toNat ≤ 122) || b == 42 || b == 45 || b == 46 || b == 95

/-- A hexadecimal digit. -/
def hexUnit (n : Nat) : UInt16 := UInt16.ofNat (if n < 10 then 48 + n else 55 + n)

def hexValue (u : UInt16) : Option Nat :=
  if 48 ≤ u.toNat ∧ u.toNat ≤ 57 then some (u.toNat - 48)
  else if 65 ≤ u.toNat ∧ u.toNat ≤ 70 then some (u.toNat - 55)
  else if 97 ≤ u.toNat ∧ u.toNat ≤ 102 then some (u.toNat - 87)
  else none

/-- A byte of a name or value. -/
def formByte (b : UInt8) : JsString :=
  if b = 32 then [43]
  else if isFormPlain b then [b.toUInt16]
  else [37, hexUnit (b.toNat / 16), hexUnit (b.toNat % 16)]

def formEncode (s : JsString) : JsString := (bufferFrom s).flatMap formByte

/-- `params.toString()`. -/
def paramsToString (params : List (JsString × JsString)) : JsString :=
  [38].intercalate (params.map fun p => formEncode p.1 ++ 61 :: formEncode p.2)

/-- `params.set(name, value)`. -/
def paramsSet (name value : JsString) :
    List (JsString × JsString) → List (JsString × JsString)
  | [] => [(toUSVString name, toUSVString value)]
  | p :: params =>
    if p.1 = toUSVString name then
      (p.1, toUSVString value) :: params.filter fun p => p.1 ≠ toUSVString name
    else p :: paramsSet name value params

/-- `params.getAll(name)`. -/
def paramsGetAll (params : List (JsString × JsString)) (name : JsString) : List JsString :=
  (params.filter fun p => p.1 = name).map Prod.snd

theorem paramsGetAll_nil (name : JsString) : paramsGetAll [] name = [] := rfl

theorem paramsGetAll_cons (p : JsString × JsString) (params : List (JsString × JsString))
    (name : JsString) : paramsGetAll (p :: params) name =
      if p.1 = name then p.2 :: paramsGetAll params name else paramsGetAll params name := by
  rw [paramsGetAll, List.filter_cons]
  by_cases h : p.1 = name
  · rw [if_pos (decide_eq_true h), if_pos h, List.map_cons]
    rfl
  · rw [if_neg (by simpa using h), if_neg h]
    rfl

/-- The bytes of a name or value in a query of ASCII. -/
def formUnescape : JsString → Bytes
  | u :: a :: b :: rest =>
    if u = 37 then
      match hexValue a, hexValue b with
      | some x, some y => UInt8.ofNat (x * 16 + y) :: formUnescape rest
      | _, _ => 37 :: formUnescape (a :: b :: rest)
    else (if u = 43 then 32 else u.toUInt8) :: formUnescape (a :: b :: rest)
  | u :: rest => (if u = 43 then 32 else u.toUInt8) :: formUnescape rest
  | [] => []

/-- A name or value; `none` when its bytes are no UTF-8. -/
def formDecode (s : JsString) : Option JsString := (utf8Decode (formUnescape s)).map ofText

/-- A name and its value. -/
def paramsPiece (piece : JsString) : Option (JsString × JsString) := do
  let name ← formDecode (piece.takeWhile (· != 61))
  let value ← formDecode (piece.dropWhile (· != 61)).tail
  pure (name, value)

/-- The parameters of a query of ASCII; `none` when a name or value is no UTF-8. -/
def paramsOf (query : JsString) : Option (List (JsString × JsString)) :=
  ((query.splitOn 38).filter (· ≠ [])).mapM paramsPiece

/-- The units of a written query. -/
def IsFormUnit (u : UInt16) : Prop :=
  (∃ b : UInt8, isFormPlain b = true ∧ u = b.toUInt16) ∨ u = 37 ∨ u = 38 ∨ u = 43 ∨ u = 61

theorem formByte_shape (b : UInt8) :
    (∀ u ∈ formByte b, u ≠ 38 ∧ u ≠ 61 ∧ (isFormPlain u.toUInt8 = true ∧ u = u.toUInt8.toUInt16 ∨
      u = 37 ∨ u = 43)) := by
  have hall : ∀ n : Fin 256, (formByte (UInt8.ofNat n.val)).all (fun u => decide (u ≠ 38 ∧ u ≠ 61 ∧
      (isFormPlain u.toUInt8 = true ∧ u = u.toUInt8.toUInt16 ∨ u = 37 ∨ u = 43))) = true := by
    decide +kernel
  have hb := hall ⟨b.toNat, b.toNat_lt⟩
  rw [UInt8.ofNat_toNat, List.all_eq_true] at hb
  exact fun u hu => of_decide_eq_true (hb u hu)

/-- A byte that is written is read back. -/
theorem formUnescape_formByte (b : UInt8) (rest : JsString) :
    formUnescape (formByte b ++ rest) = b :: formUnescape rest := by
  have hsingle : ∀ u : UInt16, u ≠ 37 → formUnescape (u :: rest) =
      (if u = 43 then 32 else u.toUInt8) :: formUnescape rest := by
    intro u hu
    match rest with
    | [] => rfl
    | [_] => rfl
    | a :: b :: rest => rw [formUnescape, if_neg hu]
  have hplain : ∀ n : Fin 256, isFormPlain (UInt8.ofNat n.val) = true →
      (UInt8.ofNat n.val).toUInt16 ≠ 37 ∧ (UInt8.ofNat n.val).toUInt16 ≠ 43 ∧
        (UInt8.ofNat n.val).toUInt16.toUInt8 = UInt8.ofNat n.val := by decide +kernel
  have hhex : ∀ n : Fin 16, hexValue (hexUnit n.val) = some n.val := by decide
  rw [formByte]
  split_ifs with hspace hp
  · rw [List.singleton_append, hsingle 43 (by decide), hspace]
    rfl
  · have hb := hplain ⟨b.toNat, b.toNat_lt⟩
    rw [UInt8.ofNat_toNat] at hb
    obtain ⟨hpct, hplus, hback⟩ := hb hp
    rw [List.singleton_append, hsingle _ hpct, if_neg hplus, hback]
  · have hlt := b.toNat_lt
    have hx := hhex ⟨b.toNat / 16, by omega⟩
    have hy := hhex ⟨b.toNat % 16, by omega⟩
    have hb : b.toNat / 16 * 16 + b.toNat % 16 = b.toNat := by omega
    rw [List.cons_append, List.cons_append, List.singleton_append, formUnescape, if_pos rfl]
    simp only [hx, hy, hb, UInt8.ofNat_toNat]

theorem formUnescape_formEncode (bs : Bytes) : formUnescape (bs.flatMap formByte) = bs := by
  induction bs with
  | nil => rfl
  | cons b bs ih => rw [List.flatMap_cons, formUnescape_formByte, ih]

theorem formDecode_formEncode (s : JsString) :
    formDecode (formEncode s) = some (toUSVString s) := by
  have hscalar : ∀ c ∈ (codePoints s).map replaceHalf, ¬ c.IsSurrogate := by
    intro c hc
    obtain ⟨d, -, rfl⟩ := List.mem_map.mp hc
    exact not_isSurrogate_replaceHalf d
  have hbuffer : bufferFrom s = utf8 ((codePoints s).map replaceHalf) := rfl
  rw [formDecode, formEncode, formUnescape_formEncode, hbuffer, utf8Decode_utf8 hscalar]
  rfl

theorem not_mem_formEncode (s : JsString) :
    (38 : UInt16) ∉ formEncode s ∧ (61 : UInt16) ∉ formEncode s := by
  constructor <;> intro h <;> obtain ⟨b, -, hb⟩ := List.mem_flatMap.mp h
  · exact (formByte_shape b _ hb).1 rfl
  · exact (formByte_shape b _ hb).2.1 rfl

theorem paramsPiece_encode (name value : JsString) :
    paramsPiece (formEncode name ++ 61 :: formEncode value) =
      some (toUSVString name, toUSVString value) := by
  have hname := (not_mem_formEncode name).2
  rw [paramsPiece, takeWhile_ne_append hname, dropWhile_ne_append hname, List.tail_cons,
    formDecode_formEncode, formDecode_formEncode]
  rfl

/-- Parameters that are written are read back, without their lone halves. -/
theorem paramsOf_paramsToString (params : List (JsString × JsString)) :
    paramsOf (paramsToString params) =
      some (params.map fun p => (toUSVString p.1, toUSVString p.2)) := by
  cases params with
  | nil => rfl
  | cons p params =>
    have hsplit : (paramsToString (p :: params)).splitOn 38 =
        (p :: params).map fun p => formEncode p.1 ++ 61 :: formEncode p.2 := by
      refine List.splitOn_intercalate _ (fun l hl => ?_) (by simp)
      obtain ⟨q, -, rfl⟩ := List.mem_map.mp hl
      simp only [List.mem_append, List.mem_cons, not_or]
      exact ⟨(not_mem_formEncode q.1).1, by decide, (not_mem_formEncode q.2).1⟩
    have hfilter : ((p :: params).map fun p => formEncode p.1 ++ 61 :: formEncode p.2).filter
        (· ≠ []) = (p :: params).map fun p => formEncode p.1 ++ 61 :: formEncode p.2 := by
      refine List.filter_eq_self.mpr fun l hl => ?_
      obtain ⟨q, -, rfl⟩ := List.mem_map.mp hl
      simp
    rw [paramsOf, hsplit, hfilter]
    generalize p :: params = qs
    induction qs with
    | nil => rfl
    | cons q qs ih =>
      rw [List.map_cons, List.mapM_cons, paramsPiece_encode, ih]
      rfl

theorem wellFormed_of_paramsOf {query : JsString} {params : List (JsString × JsString)}
    (h : paramsOf query = some params) : ∀ p ∈ params, WellFormed p.2 := by
  have hdecode : ∀ {s v}, formDecode s = some v → WellFormed v := by
    intro s v hv
    obtain ⟨t, ht, rfl⟩ := Option.map_eq_some_iff.mp hv
    have hscalar := (utf8Decode_eq_some ht).2
    rw [WellFormed, codePoints_ofText hscalar]
    exact hscalar
  have hpiece : ∀ {piece p}, paramsPiece piece = some p → WellFormed p.2 := by
    intro piece p hp
    simp only [paramsPiece, Option.bind_eq_bind, Option.bind_eq_some_iff, Option.pure_def,
      Option.some.injEq] at hp
    obtain ⟨name, -, value, hvalue, rfl⟩ := hp
    exact hdecode hvalue
  rw [paramsOf] at h
  generalize (query.splitOn 38).filter (· ≠ []) = pieces at h
  induction pieces generalizing params with
  | nil =>
    rw [← Option.some.inj h]
    nofun
  | cons piece pieces ih =>
    simp only [List.mapM_cons, Option.bind_eq_bind, Option.bind_eq_some_iff, Option.pure_def,
      Option.some.injEq] at h
    obtain ⟨p, hp, ps, hps, rfl⟩ := h
    exact List.forall_mem_cons.mpr ⟨hpiece hp, ih hps⟩

theorem isFormUnit_paramsToString {params : List (JsString × JsString)} {u : UInt16}
    (h : u ∈ paramsToString params) : IsFormUnit u := by
  have hencode : ∀ s, u ∈ formEncode s → IsFormUnit u := by
    intro s hs
    obtain ⟨b, -, hb⟩ := List.mem_flatMap.mp hs
    obtain ⟨-, -, ⟨hplain, hu⟩ | hu | hu⟩ := formByte_shape b u hb
    · exact .inl ⟨_, hplain, hu⟩
    · exact .inr (.inl hu)
    · exact .inr (.inr (.inr (.inl hu)))
  rw [paramsToString] at h
  induction params with
  | nil => cases h
  | cons p params ih =>
    have hpiece : u ∈ formEncode p.1 ++ 61 :: formEncode p.2 → IsFormUnit u := by
      intro hu
      rcases List.mem_append.mp hu with hu | hu
      · exact hencode _ hu
      · rcases List.mem_cons.mp hu with rfl | hu
        · exact .inr (.inr (.inr (.inr rfl)))
        · exact hencode _ hu
    cases params with
    | nil =>
      rw [List.map_singleton, List.intercalate_singleton] at h
      exact hpiece h
    | cons q params =>
      rw [List.map_cons, List.map_cons, List.intercalate_cons_cons] at h
      rcases List.mem_append.mp h with h | h
      · rcases List.mem_append.mp h with h | h
        · exact hpiece h
        · exact .inr (.inr (.inl (List.mem_singleton.mp h)))
      · exact ih h

end Shadownet.JavaScript
