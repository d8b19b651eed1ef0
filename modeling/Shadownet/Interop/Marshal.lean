import Shadownet.Foundation.Prune
import Shadownet.Interop.Faithful

/-!
# `json.Marshal` in Go, `json.loads` in Python

`json.Marshal` sorts the keys of a map byte by byte and writes the characters of HTML and two
line separators as escapes. What it writes is a document, so `json.loads` reads the value back,
members in another order: `jsonLoads_marshal`.
-/

namespace Shadownet.Interop

open Foundation
open Python (Clean)

/-! ## Strings -/

/-- The characters that only `json.Marshal` escapes. -/
def HtmlEscaped (c : CodePoint) : Prop :=
  c.val = 60 ∨ c.val = 62 ∨ c.val = 38 ∨ c.val = 0x2028 ∨ c.val = 0x2029

instance (c : CodePoint) : Decidable (HtmlEscaped c) := inferInstanceAs (Decidable (_ ∨ _))

/-- How `json.Marshal` writes a character. -/
def marshalItem (c : CodePoint) : StringItem :=
  if HtmlEscaped c then
    .unicode (lowerHex (c.val / 4096)) (lowerHex (c.val / 256)) (lowerHex (c.val / 16))
      (lowerHex c.val)
  else itemOf c

theorem htmlEscaped_cases {c : CodePoint} (h : HtmlEscaped c) :
    c = 60 ∨ c = 62 ∨ c = 38 ∨ c = 0x2028 ∨ c = 0x2029 := by
  unfold HtmlEscaped at h
  simp only [Fin.ext_iff]
  exact h

theorem text_marshalItem {c : CodePoint} (hc : ¬ c.IsSurrogate) :
    utf8 (marshalItem c).text = Go.marshalRune c := by
  by_cases hh : HtmlEscaped c
  · obtain rfl | rfl | rfl | rfl | rfl := htmlEscaped_cases hh <;> decide
  · rw [marshalItem, if_neg hh, text_itemOf hc, ← jcsRune_eq]
    unfold HtmlEscaped at hh
    unfold Go.jcsRune Go.marshalRune
    have hctl : (c.val < 32 ∨ c.val = 60 ∨ c.val = 62 ∨ c.val = 38) ↔ c.val < 32 := by omega
    simp only [hctl, if_neg (show c.val ≠ 0x2028 by omega), if_neg (show c.val ≠ 0x2029 by omega)]

theorem unit_marshalItem {c : CodePoint} (hc : ¬ c.IsSurrogate) : (marshalItem c).unit = c := by
  by_cases hh : HtmlEscaped c
  · obtain rfl | rfl | rfl | rfl | rfl := htmlEscaped_cases hh <;> decide
  · rw [marshalItem, if_neg hh, unit_itemOf hc]

theorem marshalString_utf8 {s : Text} (hs : Clean s) :
    Go.marshalString (utf8 s) = utf8 (stringText (s.map marshalItem)) := by
  have hlen : (utf8Char 0xFFFD).length = 3 := by decide
  have hrune : ∀ c ∈ s, (if c.val = 0xFFFD ∧ (utf8Char c).length = 1 then bytes "\\ufffd"
      else Go.marshalRune c) = utf8 (marshalItem c).text := by
    intro c hc
    rw [if_neg, text_marshalItem (hs c hc)]
    rintro ⟨hval, hone⟩
    obtain rfl : c = 0xFFFD := Fin.ext hval
    omega
  have hbody : (s.flatMap fun c => if c.val = 0xFFFD ∧ (utf8Char c).length = 1 then
      bytes "\\ufffd" else Go.marshalRune c) =
        utf8 ((s.map marshalItem).flatMap StringItem.text) := by
    rw [utf8, List.flatMap_map, List.flatMap_assoc]
    exact List.flatMap_congr hrune
  rw [Go.marshalString, segments_utf8 hs, List.flatMap_map, hbody, stringText, Go.utf8_quote,
    utf8_append]
  rfl

theorem stringValue_marshalItem {s : Text} (hs : Clean s) :
    stringValue (s.map marshalItem) = s := by
  have hunits : (s.map marshalItem).map StringItem.unit = s := by
    rw [List.map_map]
    conv_rhs => rw [← List.map_id s]
    exact List.map_congr_left fun c hc => unit_marshalItem (hs c hc)
  rw [stringValue, hunits, joinPairs_of_clean hs]

/-! ## Values -/

/-- The order of names in what `json.Marshal` writes. -/
def marshalLe (a b : Text) : Prop := Go.byteLe (utf8 a) (utf8 b)

instance : DecidableRel marshalLe := fun a b =>
  inferInstanceAs (Decidable (Go.byteLe (utf8 a) (utf8 b)))

theorem marshalLe_total (a b : Text) : marshalLe a b ∨ marshalLe b a := List.le_total _ _

theorem marshalLe_trans (a b c : Text) (hab : marshalLe a b) (hbc : marshalLe b c) :
    marshalLe a c :=
  List.le_trans hab hbc

/-- The text of the document. -/
def marshalText (v : Json Text IntLit) : Text :=
  (v.sorted marshalLe).text (Doc.lexemesOf (List.map marshalItem))

theorem marshalText_arr (items : List (Json Text IntLit)) :
    marshalText (.arr items) =
      91 :: (List.intercalate [44] (items.map marshalText) ++ [93]) := by
  rw [marshalText, Json.sorted, Json.sortedItems_eq, Json.text_arr, List.map_map]
  rfl

def marshalTextMember (m : Text × Json Text IntLit) : Text :=
  stringText (m.1.map marshalItem) ++ 58 :: marshalText m.2

theorem marshalText_obj (members : List (Text × Json Text IntLit)) :
    marshalText (.obj members) = 123 :: (List.intercalate [44]
      ((members.insertionSort (Json.memberLe marshalLe)).map marshalTextMember) ++ [125]) := by
  have hsort := List.map_insertionSort (Json.memberLe marshalLe) (Json.memberLe marshalLe)
    (fun m : Text × Json Text IntLit => (m.1, m.2.sorted marshalLe)) members
    (fun _ _ _ _ => Iff.rfl)
  rw [marshalText, Json.sorted, Json.sortedMembers_eq, Json.text_obj, ← hsort, List.map_map]
  rfl

theorem marshalItems_eq (items : List Go.JsonDoc) :
    Go.marshalItems items = items.map Go.marshalValue := by
  induction items with
  | nil => rfl
  | cons v vs ih => rw [Go.marshalItems, ih, List.map_cons]

theorem marshalMembers_eq (members : List (Bytes × Go.JsonDoc)) :
    Go.marshalMembers members = members.map fun m => (m.1, Go.marshalValue m.2) := by
  induction members with
  | nil => rfl
  | cons m ms ih =>
    obtain ⟨k, v⟩ := m
    rw [Go.marshalMembers, ih, List.map_cons]

theorem intercalate_utf8 (ts : List Text) :
    List.intercalate [0x2C] (ts.map utf8) = utf8 (List.intercalate [44] ts) := by
  induction ts with
  | nil => rfl
  | cons t ts ih =>
    cases ts with
    | nil => simp
    | cons u us =>
      rw [List.map_cons] at ih
      rw [List.map_cons, List.map_cons, List.intercalate_cons_cons, ih,
        List.intercalate_cons_cons, utf8_append, utf8_append]
      rfl

/-- What `json.Marshal` writes. -/
theorem marshalValue_eq {v : Json Text IntLit} (hv : CleanStrings v) :
    Go.marshalValue (goJson v) = utf8 (marshalText v) := by
  induction v using Json.ind with
  | null => rfl
  | bool b => cases b <;> rfl
  | num n => rfl
  | str s => exact marshalString_utf8 hv
  | arr items ih =>
    rw [CleanStrings, Json.forall_arr] at hv
    have hitems : (items.map goJson).map Go.marshalValue = (items.map marshalText).map utf8 := by
      rw [List.map_map, List.map_map]
      exact List.map_congr_left fun v hmem => ih v hmem (hv v hmem)
    have hmap : goJson (.arr items) = .arr (items.map goJson) := Json.map_arr ..
    rw [hmap, Go.marshalValue, marshalItems_eq, hitems, intercalate_utf8, marshalText_arr,
      Go.utf8_openBracket, utf8_append]
    rfl
  | obj members ih =>
    rw [CleanStrings, Json.forall_obj] at hv
    have hmap : goJson (.obj members) = .obj (members.map fun m => (utf8 m.1, goJson m.2)) :=
      Json.map_obj ..
    have hmembers : Go.marshalMembers (members.map fun m => (utf8 m.1, goJson m.2)) =
        members.map fun m => (utf8 m.1, utf8 (marshalText m.2)) := by
      rw [marshalMembers_eq, List.map_map]
      exact List.map_congr_left fun m hm => Prod.ext rfl (ih m hm (hv.2 m hm).2)
    have hsort := List.map_insertionSort (Json.memberLe marshalLe)
      (fun a b : Bytes × Bytes => Go.byteLe a.1 b.1)
      (fun m : Text × Json Text IntLit => (utf8 m.1, utf8 (marshalText m.2))) members
      (fun _ _ _ _ => Iff.rfl)
    have hparts : (members.insertionSort (Json.memberLe marshalLe)).map
        (Go.marshalMember ∘ fun m => (utf8 m.1, utf8 (marshalText m.2))) =
        ((members.insertionSort (Json.memberLe marshalLe)).map marshalTextMember).map utf8 := by
      rw [List.map_map]
      refine List.map_congr_left fun m hm => ?_
      have hm' : m ∈ members := (List.mem_insertionSort _).mp hm
      simp only [Function.comp_apply, Go.marshalMember, marshalString_utf8 (hv.2 m hm').1,
        marshalTextMember, utf8_append, Go.utf8_colon]
    rw [hmap, Go.marshalValue, hmembers, ← hsort, List.map_map, hparts, intercalate_utf8,
      marshalText_obj, Go.utf8_openBrace, utf8_append]
    rfl

theorem clean_text (s : String) : Clean (text s) := by
  rw [text_eq]
  exact clean_chars s

/-- What `json.Marshal` writes for a struct: the fields in their order. -/
theorem marshalObject_text (members : List (String × Json Text IntLit)) :
    Go.marshalObject (members.map fun m =>
        (m.1, utf8 (m.2.text (Doc.lexemesOf (List.map marshalItem))))) =
      utf8 ((Json.obj (members.map fun m => (text m.1, m.2))).text
        (Doc.lexemesOf (List.map marshalItem))) := by
  have hparts : members.map (fun m => Go.marshalString (bytes m.1) ++
      0x3A :: utf8 (m.2.text (Doc.lexemesOf (List.map marshalItem)))) =
      (members.map fun m => stringText ((text m.1).map marshalItem) ++
        58 :: m.2.text (Doc.lexemesOf (List.map marshalItem))).map utf8 := by
    rw [List.map_map]
    refine List.map_congr_left fun m _ => ?_
    rw [Function.comp_apply, ← utf8_text, marshalString_utf8 (clean_text m.1), utf8_append,
      Go.utf8_colon]
  rw [Go.marshalObject, List.map_map]
  change 0x7B :: List.intercalate [0x2C] (members.map fun m => Go.marshalString (bytes m.1) ++
    0x3A :: utf8 (m.2.text (Doc.lexemesOf (List.map marshalItem)))) ++ [0x7D] = _
  rw [hparts, intercalate_utf8, Json.text_obj, List.map_map, Go.utf8_openBrace, utf8_append]
  rfl

/-! ## Reading it in Python -/

/-- The Go value for a Python value. -/
def toGo (v : Python.Value) : Go.JsonDoc := goJson (literals v)

theorem toGo_eq : toGo = Json.map utf8 fun n => utf8 (literalOf n).text := by
  funext v
  rw [toGo, goJson, literals, Json.map_map]
  rfl

@[simp] theorem toGo_str (s : Text) : toGo (.str s) = .str (utf8 s) := rfl

@[simp] theorem toGo_bool (b : Bool) : toGo (.bool b) = .bool b := rfl

@[simp] theorem toGo_arr (items : List Python.Value) :
    toGo (.arr items) = .arr (items.map toGo) := by
  rw [toGo_eq, Json.map_arr]

@[simp] theorem toGo_obj (members : List (Text × Python.Value)) :
    toGo (.obj members) = .obj (members.map fun m => (utf8 m.1, toGo m.2)) := by
  rw [toGo_eq, Json.map_obj]

theorem isEmpty_utf8 (s : Text) : (utf8 s).isEmpty = s.isEmpty := by
  cases s with
  | nil => rfl
  | cons c s => simp [utf8_cons, utf8Char_ne_nil]

/-- Pruning in both languages. -/
theorem pruned_toGo (v : Python.Value) :
    (toGo v).pruned List.isEmpty = (v.pruned List.isEmpty).map toGo := by
  rw [toGo_eq, Json.pruned_map isEmpty_utf8]

/-- `json.loads` of a value as `json.Marshal` writes it, in the given order. -/
theorem jsonLoads_written (J : Python.JsonRuntime) {v : Python.Value} (hv : Python.Encodable v)
    (hd : v.Distinct) :
    Python.jsonLoads J (utf8 ((literals v).text (Doc.lexemesOf (List.map marshalItem)))) =
      .ok v := by
  have hvalue : (Doc.ofJson (List.map marshalItem) (literals v)).value = literals v :=
    Doc.value_ofJson _ ((cleanStrings_literals hv).mono (fun _ _ => trivial)
      (fun _ => stringValue_marshalItem) (fun _ _ => trivial))
  have hread := Python.jsonLoads_doc J (Doc.ofJson (List.map marshalItem) (literals v)) (by
    rw [hvalue]
    exact shortInts_literals hv)
  rw [hvalue, Doc.text_ofJson, Python.pyValue, literals_value hv, Json.merged_of_distinct hd]
    at hread
  exact hread

/-- `json.loads` of what `json.Marshal` writes. -/
theorem jsonLoads_marshal (J : Python.JsonRuntime) {v : Python.Value} (hv : Python.Encodable v)
    (hd : v.Distinct) :
    Python.jsonLoads J (Go.marshalValue (toGo v)) = .ok (v.sorted marshalLe) := by
  have hliterals : (literals v).sorted marshalLe = literals (v.sorted marshalLe) :=
    Json.sorted_map (fun _ _ _ _ => Iff.rfl) (cleanStrings_of_encodable hv)
  rw [toGo, marshalValue_eq (cleanStrings_literals hv), marshalText, hliterals]
  exact jsonLoads_written J (Json.forall_sorted.mpr hv) (Json.distinct_sorted hd)

theorem agrees_sorted_marshal {v : Python.Value} (hd : v.Distinct) :
    v.Agrees (v.sorted marshalLe) :=
  Json.agrees_of_sorted hd (Json.distinct_sorted hd)
    (Json.sorted_sorted marshalLe_total marshalLe_trans v).symm

/-- The Go encoder and the Python encoder write the same for a value of both. -/
theorem canonicalize_toGo (G : Go.Runtime) {v : Python.Value} (hv : Python.Encodable v) :
    Go.canonicalize G (toGo v) = .ok (utf8 (Python.canonicalText v)) := by
  rw [Go.canonicalize, toGo, jcsEncode_eq G (cleanStrings_literals hv), literalText_literals hv]

end Shadownet.Interop
