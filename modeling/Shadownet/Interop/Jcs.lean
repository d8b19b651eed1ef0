import Shadownet.Foundation.Writer
import Shadownet.Go.Document
import Shadownet.Python.Document
import Shadownet.Python.Jcs

/-!
# The two canonical encoders

`core/internal/jcs` and `shadownet/jcs.py` on what documents say.

* `jcsEncode_eq`: what the Go encoder writes for strings without surrogates and integer
  literals. It differs from what the Python encoder writes only in that literals are kept.
* `canonicalizeBytes_agrees_iff`: on which documents the two give the same result.
* `canonicalize_faithful`: the output reads back as the value that was encoded.
-/

namespace Shadownet.Interop

open Foundation
open Python (Clean escape quoted nameLe)

/-! ## Strings and names -/

theorem segmentsFuel_utf8 {s : Text} (hs : Clean s) {fuel : Nat} (hf : (utf8 s).length ≤ fuel) :
    Go.segmentsFuel fuel (utf8 s) = s.map fun c => (c, utf8Char c) := by
  induction s generalizing fuel with
  | nil => cases fuel <;> rfl
  | cons c s ih =>
    obtain ⟨b, bs, hb⟩ := List.exists_cons_of_ne_nil (utf8Char_ne_nil c)
    rw [utf8_cons, List.length_append] at hf
    have hlen := List.length_pos_iff.mpr (utf8Char_ne_nil c)
    obtain ⟨fuel, rfl⟩ : ∃ m, fuel = m + 1 := ⟨fuel - 1, by omega⟩
    have hnext : Go.nextRune b (bs ++ utf8 s) = (c, utf8 s) := by
      rw [Go.nextRune, ← List.cons_append, ← hb, utf8Next_utf8Char c (hs c (by simp))]
    have hbytes : utf8 (c :: s) = b :: (bs ++ utf8 s) := by rw [utf8_cons, hb, List.cons_append]
    have htake : (b :: (bs ++ utf8 s)).take ((b :: (bs ++ utf8 s)).length - (utf8 s).length) =
        utf8Char c := by
      rw [hb, ← List.cons_append, List.length_append, Nat.add_sub_cancel, List.take_left]
    have hrest : Go.segmentsFuel fuel (utf8 s) = s.map fun c => (c, utf8Char c) :=
      ih (fun d hd => hs d (by simp [hd])) (by omega)
    rw [hbytes, Go.segmentsFuel, hnext]
    simp only [htake, hrest, List.map_cons]

theorem segments_utf8 {s : Text} (hs : Clean s) :
    Go.segments (utf8 s) = s.map fun c => (c, utf8Char c) :=
  segmentsFuel_utf8 hs le_rfl

theorem runes_utf8 {s : Text} (hs : Clean s) : Go.runes (utf8 s) = s := by
  rw [Go.runes, segments_utf8 hs, List.map_map]
  exact List.map_id s

/-- Bytes in big-endian order compare as the code units they are made of. -/
theorem lt_bytes_iff (xs ys : List Nat) :
    (xs.flatMap fun u => [u / 256, u % 256]) < (ys.flatMap fun u => [u / 256, u % 256]) ↔
      xs < ys := by
  induction xs generalizing ys with
  | nil =>
    cases ys with
    | nil => simp
    | cons y ys => simp
  | cons x xs ih =>
    cases ys with
    | nil => simp
    | cons y ys =>
      simp only [List.flatMap_cons, List.cons_append, List.nil_append, List.cons_lt_cons_iff, ih]
      constructor
      · rintro (h | ⟨h, h' | ⟨h', hlt⟩⟩)
        · exact .inl (by omega)
        · exact .inl (by omega)
        · exact .inr ⟨by omega, hlt⟩
      · rintro (h | ⟨rfl, hlt⟩)
        · by_cases heq : x / 256 = y / 256
          · exact .inr ⟨heq, .inl (by omega)⟩
          · exact .inl (by omega)
        · exact .inr ⟨rfl, .inr ⟨rfl, hlt⟩⟩

/-- The two encoders order names in the same way. -/
theorem utf16Le_utf8 {a b : Text} (ha : Clean a) (hb : Clean b) :
    nameLe a b ↔ Go.utf16Le (utf8 a) (utf8 b) := by
  rw [Go.utf16Le, runes_utf8 ha, runes_utf8 hb, nameLe, Python.utf16Be, Python.utf16Be,
    lt_bytes_iff]

theorem jcsRune_eq (c : CodePoint) : Go.jcsRune c = utf8 (escape c) := by
  by_cases hc : Python.Escaped c
  · have hall : ∀ i : Fin 93, Python.Escaped (Fin.castLE (by decide) i) →
        Go.jcsRune (Fin.castLE (by decide) i) = utf8 (escape (Fin.castLE (by decide) i)) := by
      decide
    exact hall ⟨c.val, Python.escaped_lt hc⟩ hc
  · rw [Python.escape_of_not_escaped hc]
    unfold Python.Escaped at hc
    have hchar : utf8 [c] = utf8Char c := by simp [utf8]
    rw [hchar]
    unfold Go.jcsRune
    rw [if_neg (by omega), if_neg (by omega), if_neg (by omega), if_neg (by omega),
      if_neg (by omega), if_neg (by omega), if_neg (by omega), if_neg (by omega)]

theorem jcsString_utf8 {s : Text} (hs : Clean s) :
    Go.jcsString (utf8 s) = .ok (utf8 (quoted s)) := by
  have hrunes : s.flatMap Go.jcsRune = utf8 (s.flatMap escape) := by
    rw [utf8, List.flatMap_assoc]
    exact List.flatMap_congr fun c _ => jcsRune_eq c
  rw [Go.jcsString, utf8Decode_utf8 hs]
  simp only [hrunes, quoted, Go.utf8_quote, utf8_append]
  rfl

/-! ## Numbers -/

theorem jcsNumber_literal (G : Go.Runtime) (n : IntLit) :
    Go.jcsNumber G (utf8 n.text) = .ok (utf8 n.text) := by
  have hdigits : utf8 n.digits.text = n.digits.list.map fun d => UInt8.ofNat (48 + d) :=
    Go.utf8_digits _ fun _ => Digits.lt_of_mem
  have hall : (utf8 n.digits.text).all Go.isDigit = true := by
    rw [hdigits, List.all_map, List.all_eq_true]
    exact fun d hd => Go.isDigit_ofNat (Digits.lt_of_mem hd)
  have hne : utf8 n.digits.text ≠ [] := by
    rw [hdigits]
    cases n.digits <;> simp [Digits.list]
  have hmarks : ((utf8 n.digits.text).any fun b => b == 0x2E || b == 0x65 || b == 0x45) =
      false := by
    rw [List.any_eq_false]
    intro b hb
    have hdigit := List.all_eq_true.mp hall b hb
    simp only [Go.isDigit, Bool.and_eq_true, decide_eq_true_eq] at hdigit
    simp only [Bool.or_eq_true, beq_iff_eq, not_or]
    refine ⟨⟨?_, ?_⟩, ?_⟩ <;> rintro rfl <;> simp at hdigit
  obtain ⟨b, bs, hb⟩ := List.exists_cons_of_ne_nil hne
  have hfirst : (b == 0x2D) = false := by
    have hdigit := List.all_eq_true.mp hall b (by simp [hb])
    rw [beq_eq_false_iff_ne]
    rintro rfl
    simp [Go.isDigit] at hdigit
  cases hneg : n.neg with
  | true =>
    have htext : utf8 n.text = 0x2D :: utf8 n.digits.text := by
      rw [IntLit.text, if_pos hneg]
      exact utf8_cons_ascii (by decide) _
    have hint : Go.isIntegerLiteral (0x2D :: utf8 n.digits.text) = true := by
      simp [Go.isIntegerLiteral, hne, hall]
    rw [htext, Go.jcsNumber, if_neg (by simp), List.any_cons, hmarks,
      if_neg (by simp), if_neg (by simp [hint])]
    rfl
  | false =>
    have htext : utf8 n.text = utf8 n.digits.text := by
      rw [IntLit.text, if_neg (by simp [hneg])]
    have hint : Go.isIntegerLiteral (utf8 n.digits.text) = true := by
      rw [hb] at hall ⊢
      rw [Go.isIntegerLiteral, hfirst]
      simpa using hall
    rw [htext, Go.jcsNumber, if_neg hne, hmarks, if_neg (by simp), if_neg (by simp [hint])]
    rfl

/-! ## The Go encoder -/

/-- The Go value for a value over texts and literals. -/
def goJson (v : Json Text IntLit) : Go.JsonDoc := v.map utf8 fun n => utf8 n.text

/-- Strings and numbers as the Go encoder writes them. -/
def literalLexemes : Lexemes Text IntLit := ⟨quoted, IntLit.text⟩

/-- The text the Go encoder writes. -/
def literalText (v : Json Text IntLit) : Text := (v.sorted nameLe).text literalLexemes

/-- No surrogate in any string or name. -/
def CleanStrings {ν : Type} (v : Json Text ν) : Prop :=
  v.Forall (fun _ => True) Clean (fun _ => True)

theorem joinComma_ok (ts : List Text) :
    Go.joinComma (ts.map fun t => .ok (utf8 t)) = .ok (utf8 (List.intercalate [44] ts)) := by
  induction ts with
  | nil => rfl
  | cons t ts ih =>
    cases ts with
    | nil => simp [Go.joinComma]
    | cons u us =>
      rw [List.map_cons] at ih
      rw [List.map_cons, List.map_cons, Go.joinComma, ok_bind, ih, ok_bind,
        List.intercalate_cons_cons, List.append_assoc, List.singleton_append, utf8_append,
        Go.utf8_comma]
      · rfl
      · simp

theorem jcsItems_eq (G : Go.Runtime) (items : List Go.JsonDoc) :
    Go.jcsItems G items = items.map (Go.jcsEncode G) := by
  induction items with
  | nil => rfl
  | cons v vs ih => rw [Go.jcsItems, ih, List.map_cons]

theorem jcsMembers_eq (G : Go.Runtime) (members : List (Bytes × Go.JsonDoc)) :
    Go.jcsMembers G members = members.map fun m => (m.1, Go.jcsEncode G m.2) := by
  induction members with
  | nil => rfl
  | cons m ms ih =>
    obtain ⟨k, v⟩ := m
    rw [Go.jcsMembers, ih, List.map_cons]

theorem literalText_arr (items : List (Json Text IntLit)) :
    literalText (.arr items) =
      91 :: (List.intercalate [44] (items.map literalText) ++ [93]) := by
  rw [literalText, Json.sorted, Json.sortedItems_eq, Json.text_arr, List.map_map]
  rfl

def literalMember (m : Text × Json Text IntLit) : Text := quoted m.1 ++ 58 :: literalText m.2

theorem literalText_obj (members : List (Text × Json Text IntLit)) :
    literalText (.obj members) = 123 :: (List.intercalate [44]
      ((members.insertionSort (Json.memberLe nameLe)).map literalMember) ++ [125]) := by
  have hsort := List.map_insertionSort (Json.memberLe nameLe) (Json.memberLe nameLe)
    (fun m : Text × Json Text IntLit => (m.1, m.2.sorted nameLe)) members
    (fun _ _ _ _ => Iff.rfl)
  rw [literalText, Json.sorted, Json.sortedMembers_eq, Json.text_obj, ← hsort, List.map_map]
  rfl

/-- What the Go encoder writes. -/
theorem jcsEncode_eq (G : Go.Runtime) {v : Json Text IntLit} (hv : CleanStrings v) :
    Go.jcsEncode G (goJson v) = .ok (utf8 (literalText v)) := by
  induction v using Json.ind with
  | null => rfl
  | bool b => cases b <;> rfl
  | num n => exact jcsNumber_literal G n
  | str s => exact jcsString_utf8 hv
  | arr items ih =>
    rw [CleanStrings, Json.forall_arr] at hv
    have hitems : (items.map goJson).map (Go.jcsEncode G) =
        (items.map literalText).map fun t => .ok (utf8 t) := by
      rw [List.map_map, List.map_map]
      exact List.map_congr_left fun v hmem => ih v hmem (hv v hmem)
    have hmap : goJson (.arr items) = .arr (items.map goJson) := Json.map_arr ..
    rw [hmap, Go.jcsEncode, jcsItems_eq, hitems, joinComma_ok, ok_bind, literalText_arr,
      Go.utf8_openBracket, utf8_append]
    rfl
  | obj members ih =>
    rw [CleanStrings, Json.forall_obj] at hv
    have hmap : goJson (.obj members) = .obj (members.map fun m => (utf8 m.1, goJson m.2)) :=
      Json.map_obj ..
    have hmembers : Go.jcsMembers G (members.map fun m => (utf8 m.1, goJson m.2)) =
        members.map fun m => (utf8 m.1, .ok (utf8 (literalText m.2))) := by
      rw [jcsMembers_eq, List.map_map]
      exact List.map_congr_left fun m hm => Prod.ext rfl (ih m hm (hv.2 m hm).2)
    have hsort := List.map_insertionSort (Json.memberLe nameLe)
      (fun a b : Bytes × Go.GoM Bytes => Go.utf16Le a.1 b.1)
      (fun m : Text × Json Text IntLit => (utf8 m.1, .ok (utf8 (literalText m.2)))) members
      (fun a ha b hb => utf16Le_utf8 (hv.2 a ha).1 (hv.2 b hb).1)
    have hparts : (members.insertionSort (Json.memberLe nameLe)).map
        (Go.jcsMember ∘ fun m => (utf8 m.1, .ok (utf8 (literalText m.2)))) =
        ((members.insertionSort (Json.memberLe nameLe)).map literalMember).map
          fun t => .ok (utf8 t) := by
      rw [List.map_map]
      refine List.map_congr_left fun m hm => ?_
      have hm' : m ∈ members := (List.mem_insertionSort _).mp hm
      simp only [Function.comp_apply, Go.jcsMember, jcsString_utf8 (hv.2 m hm').1, ok_bind,
        literalMember, utf8_append, Go.utf8_colon]
      rfl
    rw [hmap, Go.jcsEncode, hmembers, ← hsort, List.map_map, hparts, joinComma_ok, ok_bind,
      literalText_obj, Go.utf8_openBrace, utf8_append]
    rfl

/-! ## The canonical document -/

/-- The hexadecimal digit of a number below 16. -/
def lowerHex (n : Nat) : HexDigit := ⟨Fin.ofNat 16 n, false⟩

/-- How both encoders write a character. A surrogate, which neither writes, is escaped. -/
def itemOf (c : CodePoint) : StringItem :=
  if h : Raw c then .raw c h
  else if c.val = 34 then .short .quote
  else if c.val = 92 then .short .backslash
  else if c.val = 8 then .short .backspace
  else if c.val = 9 then .short .tab
  else if c.val = 10 then .short .lineFeed
  else if c.val = 12 then .short .formFeed
  else if c.val = 13 then .short .carriageReturn
  else .unicode (lowerHex (c.val / 4096)) (lowerHex (c.val / 256)) (lowerHex (c.val / 16))
    (lowerHex c.val)

theorem text_itemOf {c : CodePoint} (hc : ¬ c.IsSurrogate) : (itemOf c).text = escape c := by
  by_cases he : Python.Escaped c
  · have hall : ∀ i : Fin 93, Python.Escaped (Fin.castLE (by decide) i) →
        (itemOf (Fin.castLE (by decide) i)).text = escape (Fin.castLE (by decide) i) := by
      decide
    exact hall ⟨c.val, Python.escaped_lt he⟩ he
  · rw [Python.escape_of_not_escaped he]
    unfold Python.Escaped at he
    have hraw : Raw c := ⟨by omega, by omega, by omega, hc⟩
    rw [itemOf, dif_pos hraw, StringItem.text]

theorem unit_itemOf {c : CodePoint} (hc : ¬ c.IsSurrogate) : (itemOf c).unit = c := by
  by_cases he : Python.Escaped c
  · have hall : ∀ i : Fin 93, Python.Escaped (Fin.castLE (by decide) i) →
        (itemOf (Fin.castLE (by decide) i)).unit = Fin.castLE (by decide) i := by
      decide
    exact hall ⟨c.val, Python.escaped_lt he⟩ he
  · unfold Python.Escaped at he
    have hraw : Raw c := ⟨by omega, by omega, by omega, hc⟩
    rw [itemOf, dif_pos hraw, StringItem.unit]

/-- The canonical document of a value. -/
def canonicalDoc (v : Json Text IntLit) : Doc :=
  .ofJson (List.map itemOf) (v.sorted nameLe)

theorem stringText_itemOf {s : Text} (hs : Clean s) : stringText (s.map itemOf) = quoted s := by
  rw [stringText, quoted, List.flatMap_map]
  exact congrArg (fun t => 34 :: (t ++ [34]))
    (List.flatMap_congr fun c hc => text_itemOf (hs c hc))

theorem joinPairs_of_clean {s : Text} (hs : Clean s) : joinPairs s = s := by
  induction s with
  | nil => rfl
  | cons c s ih =>
    have hrest := ih fun d hd => hs d (by simp [hd])
    cases s with
    | nil => rfl
    | cons d s => rw [joinPairs, if_neg fun h => hs c (by simp) h.1.surrogate, hrest]

theorem stringValue_itemOf {s : Text} (hs : Clean s) : stringValue (s.map itemOf) = s := by
  have hunits : (s.map itemOf).map StringItem.unit = s := by
    rw [List.map_map]
    conv_rhs => rw [← List.map_id s]
    exact List.map_congr_left fun c hc => unit_itemOf (hs c hc)
  rw [stringValue, hunits, joinPairs_of_clean hs]

theorem text_canonicalDoc {v : Json Text IntLit} (hv : CleanStrings v) :
    (canonicalDoc v).text = literalText v := by
  rw [canonicalDoc, Doc.text_ofJson, literalText]
  exact Json.text_congr (Json.forall_sorted.mpr (hv.mono (fun _ _ => rfl)
    (fun _ => stringText_itemOf) (fun _ _ => trivial)))

theorem value_canonicalDoc {v : Json Text IntLit} (hv : CleanStrings v) :
    (canonicalDoc v).value = v.sorted nameLe :=
  Doc.value_ofJson _ (Json.forall_sorted.mpr (hv.mono (fun _ _ => trivial)
    (fun _ => stringValue_itemOf) (fun _ _ => trivial)))

/-! ## Documents -/

/-- Both fail, or both succeed with the same result. -/
def SameResult {ε ε' α : Type} (x : Except ε α) (y : Except ε' α) : Prop :=
  ∀ a, x = .ok a ↔ y = .ok a

/-- What a document says once the Go decoder has replaced the halves of pairs. -/
def replaced (v : Json Text IntLit) : Json Text IntLit := v.map (List.map Go.replaceHalf) id

theorem goValue_eq (v : Json Text IntLit) : Go.goValue v = goJson (replaced v) := by
  rw [goJson, replaced, Json.map_map]
  rfl

theorem clean_replaceHalf (s : Text) : Clean (s.map Go.replaceHalf) := by
  intro c hc
  obtain ⟨d, -, rfl⟩ := List.mem_map.mp hc
  unfold Go.replaceHalf
  split_ifs with h
  · decide
  · exact h

theorem replaceHalf_of_clean {s : Text} (hs : Clean s) : s.map Go.replaceHalf = s := by
  conv_rhs => rw [← List.map_id s]
  exact List.map_congr_left fun c hc => Go.replaceHalf_of_not_surrogate (hs c hc)

theorem cleanStrings_replaced (v : Json Text IntLit) : CleanStrings (replaced v) := by
  rw [CleanStrings, replaced, Json.forall_map]
  exact Json.forall_of_all (fun _ => trivial) clean_replaceHalf (fun _ => trivial) v

theorem merged_goJson {v : Json Text IntLit} (hv : CleanStrings v) :
    (goJson v).merged = goJson v.merged :=
  Json.merged_map (fun _ _ => utf8_injective) hv

/-- `CanonicalizeBytes` succeeds on every document it can read. -/
theorem canonicalizeBytes_doc (G : Go.Runtime) (d : Doc) (hd : d.depth ≤ 10000) :
    Go.canonicalizeBytes G (utf8 d.text) =
      .ok (utf8 (literalText (replaced d.value).merged)) := by
  have hends : Go.Ends [] := by simp [Go.Ends]
  obtain ⟨r, hread, hskip⟩ := Go.reads_doc d (2 * (utf8 d.text).length + 2) 10000 [] (by omega)
    hd hends
  rw [List.append_nil] at hread
  have hmore : Go.more r = false := by
    rw [Go.more, hskip]
    rfl
  have hclean := cleanStrings_replaced d.value
  rw [Go.canonicalizeBytes, hread]
  simp only [hmore, goValue_eq, merged_goJson hclean]
  exact jcsEncode_eq G (Json.forall_merged hclean)

/-- The value `json.loads` makes of a document, by what is left after the merge. -/
theorem pyValue_eq (v : Json Text IntLit) :
    Python.pyValue v = v.merged.map id fun n => .int n.value :=
  Json.merged_map (fun _ _ _ _ h => h)
    (Json.forall_of_all (fun _ => trivial) (fun _ => trivial) (fun _ => trivial) v)

theorem shortInt_value {n : IntLit} (h : Python.ShortLit n) :
    Python.ShortInt (.int n.value) := by
  have hlt := n.digits.value_lt
  have hpow : 10 ^ n.digits.list.length ≤ Python.intLimit := by
    rw [Python.intLimit]
    exact pow_le_pow_right₀ (by decide) h
  rw [Python.ShortInt, IntLit.natAbs_value]
  exact hlt.trans_le hpow

theorem encodable_pyValue {v : Json Text IntLit} (hshort : Python.ShortInts v) :
    Python.Encodable (Python.pyValue v) ↔ CleanStrings v.merged := by
  rw [Python.Encodable, pyValue_eq, Json.forall_map]
  constructor
  · exact Json.Forall.mono (fun _ _ => trivial) (fun _ hs => hs) (fun _ _ => trivial)
  · intro hclean
    have hints : Python.ShortInts v.merged := Json.forall_merged hshort
    exact (hints.and hclean).mono (fun _ h => shortInt_value h.1) (fun _ h => h.2)
      (fun _ _ => trivial)

/-- Strings as both encoders write them, over numbers that are written already. -/
def writtenLexemes : Lexemes Text Text := ⟨quoted, id⟩

theorem writtenLexemes_readable :
    writtenLexemes.Readable (fun t => ∃ n : IntLit, n.text = t) Clean where
  str_head _ := ⟨_, rfl⟩
  str_unique _ _ h := Python.quoted_unique h
  num_head := by
    rintro _ ⟨n, rfl⟩
    exact n.text_head
  num_unique := by
    rintro _ _ r r' ⟨m, rfl⟩ ⟨n, rfl⟩ hr hr' h
    exact IntLit.text_unique hr hr' h

/-- The text the Python encoder writes for a document. -/
theorem canonicalText_pyValue (v : Json Text IntLit) :
    Python.canonicalText (Python.pyValue v) =
      ((v.merged.sorted nameLe).map id fun n => intText n.value).text writtenLexemes := by
  have hsorted : (v.merged.map id fun n => Python.Number.int n.value).sorted nameLe =
      (v.merged.sorted nameLe).map id fun n => Python.Number.int n.value :=
    Json.sorted_map (fun _ _ _ _ => Iff.rfl)
      (Json.forall_of_all (fun _ => trivial) (fun _ => trivial) (fun _ => trivial) _)
  rw [Python.canonicalText, pyValue_eq, hsorted, Json.text_map, Json.text_map]
  rfl

/-- The text the Go encoder writes for a document whose strings are clean after the merge. -/
theorem literalText_replaced {v : Json Text IntLit} (hv : CleanStrings v.merged) :
    literalText (replaced v).merged =
      ((v.merged.sorted nameLe).map id IntLit.text).text writtenLexemes := by
  have hagrees : (replaced v).merged.Agrees v.merged :=
    Json.merged_map_agrees (hv.mono (fun _ _ => trivial) (fun _ => replaceHalf_of_clean)
      (fun _ _ => trivial))
  have hsorted : (replaced v).merged.sorted nameLe = v.merged.sorted nameLe :=
    Json.sorted_of_agrees Python.nameLe_total Python.nameLe_trans Python.nameLe_antisymm
      (Json.distinct_merged _) (Json.distinct_merged _)
      (Json.forall_merged (cleanStrings_replaced v)) hagrees
  rw [literalText, hsorted, Json.text_map]
  rfl

theorem clean_literalText {v : Json Text IntLit} (hv : CleanStrings v) :
    Clean (literalText v) := by
  have hdoc : ∃ d : Doc, d.text = literalText v := ⟨_, text_canonicalDoc hv⟩
  obtain ⟨d, hd⟩ := hdoc
  rw [← hd]
  exact fun c hc => (d.plain_text c hc).2

/-- No number is a negative zero. -/
def NoNegZero (v : Json Text IntLit) : Prop :=
  v.Forall (fun n => n ≠ .negZero) (fun _ => True) (fun _ => True)

/-- The two texts are equal unless a number is a negative zero. -/
theorem written_eq_iff {v : Json Text IntLit} (hv : CleanStrings v) :
    (v.map id IntLit.text).text writtenLexemes =
      (v.map id fun n => intText n.value).text writtenLexemes ↔ NoNegZero v := by
  have hleft : (v.map id IntLit.text).Forall (fun t => ∃ n : IntLit, n.text = t) Clean
      (fun _ => True) := by
    rw [Json.forall_map]
    exact hv.mono (fun n _ => ⟨n, rfl⟩) (fun _ hs => hs) (fun _ _ => trivial)
  have hright : (v.map id fun n => intText n.value).Forall (fun t => ∃ n : IntLit, n.text = t)
      Clean (fun _ => True) := by
    rw [Json.forall_map]
    exact hv.mono (fun n _ => ⟨.ofInt n.value, IntLit.text_ofInt _⟩) (fun _ hs => hs)
      (fun _ _ => trivial)
  have hmaps : v.map id IntLit.text = v.map id (fun n => intText n.value) ↔ NoNegZero v := by
    rw [Json.map_eq_map_iff, NoNegZero]
    simp only [IntLit.text_eq_iff]
  rw [← hmaps]
  exact ⟨Json.text_injective writtenLexemes_readable hleft hright, fun h => by rw [h]⟩

/-- On a document both encoders give the same bytes exactly when all integers are short, no
string that is left holds half a pair, and no number that is left is a negative zero. -/
theorem canonicalizeBytes_agrees_iff (G : Go.Runtime) (J : Python.JsonRuntime) (d : Doc)
    (hd : d.depth ≤ 10000) :
    SameResult (Go.canonicalizeBytes G (utf8 d.text))
      (Python.jsonLoads J (utf8 d.text) >>= Python.canonicalize) ↔
      Python.ShortInts d.value ∧ CleanStrings d.value.merged ∧ NoNegZero d.value.merged := by
  have hgo := canonicalizeBytes_doc G d hd
  have hclean := Json.forall_merged (cleanStrings_replaced d.value)
  by_cases hshort : Python.ShortInts d.value
  · have hpy : (Python.jsonLoads J (utf8 d.text) >>= Python.canonicalize) =
        Python.canonicalize (Python.pyValue d.value) := by
      rw [Python.jsonLoads_doc J d hshort, ok_bind]
    rw [hgo, hpy]
    constructor
    · intro hsame
      obtain ⟨henc, hbytes⟩ := Python.canonicalize_eq_ok.mp ((hsame _).mp rfl)
      have hstrings := (encodable_pyValue hshort).mp henc
      have hsorted : CleanStrings (d.value.merged.sorted nameLe) := Json.forall_sorted.mpr hstrings
      have htext := utf8_injective (clean_literalText hclean) (Python.clean_canonicalText henc)
        hbytes
      rw [literalText_replaced hstrings, canonicalText_pyValue, written_eq_iff hsorted] at htext
      exact ⟨hshort, hstrings, Json.forall_sorted.mp htext⟩
    · rintro ⟨-, hstrings, hzero⟩ b
      have hsorted : CleanStrings (d.value.merged.sorted nameLe) := Json.forall_sorted.mpr hstrings
      have htext : literalText (replaced d.value).merged =
          Python.canonicalText (Python.pyValue d.value) := by
        rw [literalText_replaced hstrings, canonicalText_pyValue, written_eq_iff hsorted]
        exact Json.forall_sorted.mpr hzero
      rw [Python.canonicalize_eq_ok, htext, Except.ok.injEq, eq_comm]
      exact ⟨fun h => ⟨(encodable_pyValue hshort).mpr hstrings, h⟩, fun h => h.2⟩
  · obtain ⟨e, herr⟩ := Python.jsonLoads_long J d hshort
    refine iff_of_false (fun hsame => ?_) fun h => hshort h.1
    have hok := (hsame _).mp hgo
    rw [herr, error_bind] at hok
    cases hok

/-! ## Samples -/

/-- Runtimes for documents that need neither error texts nor keys. -/
def plainGo : Go.Runtime where
  quote s := 0x22 :: s ++ [0x22]
  quoteRune := utf8Char
  isLetterOrDigit _ := false
  toLower := id
  jsonError _ := bytes "unexpected end of JSON input"
  base64Error _ := bytes "illegal base64 data at input byte 0"
  sha256 := id
  parseSigned _ := throw []
  preVerify _ := pure ()
  signCompact _ _ _ _ := throw []

def plainJson : Python.JsonRuntime where
  decode _ _ := throw ⟨.unicodeDecodeError, []⟩
  parseFloat _ := 0
  syntaxText _ := Foundation.text "Expecting value: line 1 column 1 (char 0)"

theorem six_lt : 6 < 9 := by decide

/-- `[true, -7]`. -/
def sevenDoc : Doc :=
  .arr [] [.bool true, .padded [.space] (.num ⟨true, .pos ⟨6, six_lt⟩ []⟩) []]

theorem canonicalizeBytes_agrees_seven :
    sevenDoc.depth ≤ 10000 ∧ SameResult (Go.canonicalizeBytes plainGo (utf8 sevenDoc.text))
      (Python.jsonLoads plainJson (utf8 sevenDoc.text) >>= Python.canonicalize) := by
  have hdepth : sevenDoc.depth ≤ 10000 := by decide
  refine ⟨hdepth, (canonicalizeBytes_agrees_iff plainGo plainJson sevenDoc hdepth).mpr ?_⟩
  have hvalue : sevenDoc.value = .arr [.bool true, .num ⟨true, .pos 6 []⟩] := rfl
  rw [hvalue]
  refine ⟨⟨trivial, ?_, trivial⟩, ⟨trivial, trivial, trivial⟩, ⟨trivial, ?_, trivial⟩⟩
  · show (Digits.pos 6 []).list.length ≤ 4300
    decide
  · show (⟨true, .pos 6 []⟩ : IntLit) ≠ .negZero
    decide

/-- Go writes a negative zero as it stands, Python as a zero. -/
theorem negative_zero_differs :
    (Doc.num .negZero).depth ≤ 10000 ∧
      ¬ SameResult (Go.canonicalizeBytes plainGo (utf8 (Doc.num .negZero).text))
        (Python.jsonLoads plainJson (utf8 (Doc.num .negZero).text) >>= Python.canonicalize) := by
  refine ⟨by decide, fun hsame => ?_⟩
  have hgo : Go.canonicalizeBytes plainGo (utf8 (Doc.num .negZero).text) = .ok (bytes "-0") := rfl
  have hload : Python.jsonLoads plainJson (utf8 (Doc.num .negZero).text) =
      .ok (.num (.int 0)) := rfl
  have hpy : Python.canonicalize (.num (.int 0)) = .ok (bytes "0") :=
    Python.canonicalize_eq_ok.mpr ⟨Python.intLimit_pos, rfl⟩
  have hok := (hsame _).mp hgo
  rw [hload, ok_bind, hpy, Except.ok.injEq] at hok
  exact absurd hok (by decide)

end Shadownet.Interop
