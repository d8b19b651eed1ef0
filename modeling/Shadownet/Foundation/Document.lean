import Shadownet.Foundation.Merge

/-!
# JSON documents

The grammar of RFC 8259 as a type: a `Doc` keeps the whitespace, the way each character of a
string is written, and repeated names. `Doc.text` writes it and `Doc.value` is what it says.
Every document whose numbers have no fraction and no exponent is the text of a `Doc`.

A character beyond the basic plane may be written as two `\u` escapes; a half that stands
alone stays a surrogate (`joinPairs`).
-/

namespace Shadownet.Foundation

/-! ## Whitespace -/

inductive Space where
  | space
  | tab
  | lineFeed
  | carriageReturn
  deriving DecidableEq

def Space.code : Space → CodePoint
  | .space => 32
  | .tab => 9
  | .lineFeed => 10
  | .carriageReturn => 13

def spaces (ws : List Space) : Text := ws.map Space.code

/-! ## Strings -/

/-- The escapes of one letter. -/
inductive ShortEscape where
  | quote
  | backslash
  | slash
  | backspace
  | formFeed
  | lineFeed
  | carriageReturn
  | tab
  deriving DecidableEq

def ShortEscape.letter : ShortEscape → CodePoint
  | .quote => 34
  | .backslash => 92
  | .slash => 47
  | .backspace => 98
  | .formFeed => 102
  | .lineFeed => 110
  | .carriageReturn => 114
  | .tab => 116

/-- The character an escape stands for. -/
def ShortEscape.code : ShortEscape → CodePoint
  | .quote => 34
  | .backslash => 92
  | .slash => 47
  | .backspace => 8
  | .formFeed => 12
  | .lineFeed => 10
  | .carriageReturn => 13
  | .tab => 9

structure HexDigit where
  digit : Fin 16
  upper : Bool
  deriving DecidableEq

def HexDigit.code (h : HexDigit) : CodePoint :=
  Fin.ofNat 0x110000 (h.digit.val + if h.digit.val < 10 then 48 else if h.upper then 55 else 87)

/-- A character that may stand for itself in a string. -/
def Raw (c : CodePoint) : Prop := 32 ≤ c.val ∧ c.val ≠ 34 ∧ c.val ≠ 92 ∧ ¬ c.IsSurrogate

instance (c : CodePoint) : Decidable (Raw c) := inferInstanceAs (Decidable (_ ∧ _))

/-- One way to write a character, or half of one. -/
inductive StringItem where
  | raw (c : CodePoint) (h : Raw c)
  | short (e : ShortEscape)
  | unicode (a b c d : HexDigit)

namespace StringItem

def text : StringItem → Text
  | .raw c _ => [c]
  | .short e => [92, e.letter]
  | .unicode a b c d => [92, 117, a.code, b.code, c.code, d.code]

/-- The number four hexadecimal digits stand for. -/
def hexValue (a b c d : HexDigit) : Nat :=
  ((a.digit.val * 16 + b.digit.val) * 16 + c.digit.val) * 16 + d.digit.val

/-- The character, or the half of one. -/
def unit : StringItem → CodePoint
  | .raw c _ => c
  | .short e => e.code
  | .unicode a b c d => Fin.ofNat 0x110000 (hexValue a b c d)

end StringItem

def IsHigh (c : CodePoint) : Prop := 0xD800 ≤ c.val ∧ c.val ≤ 0xDBFF

def IsLow (c : CodePoint) : Prop := 0xDC00 ≤ c.val ∧ c.val ≤ 0xDFFF

instance (c : CodePoint) : Decidable (IsHigh c) := inferInstanceAs (Decidable (_ ∧ _))

instance (c : CodePoint) : Decidable (IsLow c) := inferInstanceAs (Decidable (_ ∧ _))

/-- The character of two halves. -/
def pairOf (h l : CodePoint) : CodePoint :=
  Fin.ofNat 0x110000 (0x10000 + (h.val - 0xD800) * 1024 + (l.val - 0xDC00))

/-- Joins each high half with a low half that follows it. -/
def joinPairs : Text → Text
  | h :: l :: rest =>
    if IsHigh h ∧ IsLow l then pairOf h l :: joinPairs rest else h :: joinPairs (l :: rest)
  | [c] => [c]
  | [] => []

/-- A string, quotation marks included. -/
def stringText (s : List StringItem) : Text := 34 :: (s.flatMap StringItem.text ++ [34])

def stringValue (s : List StringItem) : Text := joinPairs (s.map StringItem.unit)

theorem length_le_items (s : List StringItem) : s.length ≤ (s.flatMap StringItem.text).length := by
  induction s with
  | nil => simp
  | cons i s ih =>
    have : 1 ≤ i.text.length := by cases i <;> simp [StringItem.text]
    rw [List.flatMap_cons, List.length_append, List.length_cons]
    omega

theorem hexValue_lt (a b c d : HexDigit) : StringItem.hexValue a b c d < 0x10000 := by
  unfold StringItem.hexValue
  omega

theorem unit_unicode_val (a b c d : HexDigit) :
    (StringItem.unicode a b c d).unit.val = StringItem.hexValue a b c d := by
  have := hexValue_lt a b c d
  simp only [StringItem.unit, Fin.ofNat]
  exact Nat.mod_eq_of_lt (by omega)

/-- Only a `\u` escape is half a pair. -/
theorem unit_not_surrogate {i : StringItem} (h : ∀ a b c d, i ≠ .unicode a b c d) :
    ¬ i.unit.IsSurrogate := by
  cases i with
  | raw c hc => exact hc.2.2.2
  | short e => cases e <;> decide
  | unicode a b c d => exact absurd rfl (h a b c d)

/-- The string goes on with a low half. -/
def LowNext (s : List StringItem) : Prop := ∃ l, (s.map StringItem.unit).head? = some l ∧ IsLow l

theorem stringValue_pair {i j : StringItem} (s : List StringItem) (hi : IsHigh i.unit)
    (hj : IsLow j.unit) :
    stringValue (i :: j :: s) = pairOf i.unit j.unit :: stringValue s := by
  rw [stringValue, List.map_cons, List.map_cons, joinPairs, if_pos ⟨hi, hj⟩, stringValue]

theorem stringValue_single {i : StringItem} {s : List StringItem}
    (h : ¬ (IsHigh i.unit ∧ LowNext s)) : stringValue (i :: s) = i.unit :: stringValue s := by
  cases s with
  | nil => rfl
  | cons j s =>
    rw [stringValue, List.map_cons, List.map_cons, joinPairs, if_neg, stringValue, List.map_cons]
    exact fun hij => h ⟨hij.1, j.unit, rfl, hij.2⟩

theorem IsHigh.surrogate {c : CodePoint} (h : IsHigh c) : c.IsSurrogate := by
  unfold IsHigh at h
  unfold CodePoint.IsSurrogate
  omega

theorem IsLow.surrogate {c : CodePoint} (h : IsLow c) : c.IsSurrogate := by
  unfold IsLow at h
  unfold CodePoint.IsSurrogate
  omega

theorem stringValue_scalar {i : StringItem} (s : List StringItem) (h : ¬ i.unit.IsSurrogate) :
    stringValue (i :: s) = i.unit :: stringValue s :=
  stringValue_single fun hp => h hp.1.surrogate

theorem pairOf_not_surrogate {h l : CodePoint} (hh : IsHigh h) (hl : IsLow l) :
    ¬ (pairOf h l).IsSurrogate := by
  unfold IsHigh at hh
  unfold IsLow at hl
  intro hs
  unfold CodePoint.IsSurrogate at hs
  have hval : (pairOf h l).val = 0x10000 + (h.val - 0xD800) * 1024 + (l.val - 0xDC00) := by
    simp only [pairOf, Fin.ofNat]
    exact Nat.mod_eq_of_lt (by omega)
  omega

/-! ## Numbers -/

/-- Digits without a leading zero; `pos d` begins with the digit `d + 1`. -/
inductive Digits where
  | zero
  | pos (d : Fin 9) (ds : List (Fin 10))
  deriving DecidableEq

/-- A number without fraction and exponent. -/
structure IntLit where
  neg : Bool
  digits : Digits
  deriving DecidableEq

def Digits.list : Digits → List Nat
  | .zero => [0]
  | .pos d ds => (d.val + 1) :: ds.map Fin.val

def Digits.value (ds : Digits) : Nat := ds.list.foldl (fun n d => n * 10 + d) 0

def Digits.text (ds : Digits) : Text := ds.list.map digitText

theorem Digits.lt_of_mem {ds : Digits} {d : Nat} (h : d ∈ ds.list) : d < 10 := by
  cases ds with
  | zero =>
    rw [Digits.list, List.mem_singleton] at h
    omega
  | pos e es =>
    rw [Digits.list, List.mem_cons, List.mem_map] at h
    rcases h with rfl | ⟨f, -, rfl⟩
    · omega
    · exact f.isLt

namespace IntLit

def text (n : IntLit) : Text := if n.neg then 45 :: n.digits.text else n.digits.text

def value (n : IntLit) : Int := if n.neg then -n.digits.value else n.digits.value

/-- The one literal that is not the text of its value. -/
def negZero : IntLit := ⟨true, .zero⟩

end IntLit

/-! ## Documents -/

/-- The name of a member, with the whitespace before and after it. -/
structure Key where
  before : List Space
  name : List StringItem
  after : List Space

/-- A document. `pad` stands behind the opening bracket; `padded` puts whitespace around. -/
inductive Doc where
  | null
  | bool (b : Bool)
  | num (n : IntLit)
  | str (s : List StringItem)
  | arr (pad : List Space) (items : List Doc)
  | obj (pad : List Space) (members : List (Key × Doc))
  | padded (before : List Space) (d : Doc) (after : List Space)

def Key.text (k : Key) : Text := spaces k.before ++ (stringText k.name ++ spaces k.after)

namespace Doc

/-- Induction over a document, with the hypothesis for all items and all members at once. -/
@[elab_as_elim]
theorem ind {motive : Doc → Prop} (null : motive .null) (bool : ∀ b, motive (.bool b))
    (num : ∀ n, motive (.num n)) (str : ∀ s, motive (.str s))
    (arr : ∀ pad items, (∀ v ∈ items, motive v) → motive (.arr pad items))
    (obj : ∀ pad members, (∀ m ∈ members, motive m.2) → motive (.obj pad members))
    (padded : ∀ before d after, motive d → motive (.padded before d after)) :
    ∀ d, motive d := by
  intro d
  refine @Doc.rec motive (fun items => ∀ v ∈ items, motive v)
    (fun members => ∀ m ∈ members, motive m.2) (fun m => motive m.2)
    null bool num str arr obj padded ?_ ?_ ?_ ?_ ?_ d
  · simp
  · intro v vs hv hvs w hw
    rcases List.mem_cons.mp hw with rfl | hw
    · exact hv
    · exact hvs w hw
  · simp
  · intro m ms hm hms n hn
    rcases List.mem_cons.mp hn with rfl | hn
    · exact hm
    · exact hms n hn
  · intro _ _ hv
    exact hv

mutual

def text : Doc → Text
  | .null => [110, 117, 108, 108]
  | .bool true => [116, 114, 117, 101]
  | .bool false => [102, 97, 108, 115, 101]
  | .num n => n.text
  | .str s => stringText s
  | .arr pad [] => 91 :: (spaces pad ++ [93])
  | .arr pad (v :: vs) => 91 :: (spaces pad ++ (text v ++ (itemsTail vs ++ [93])))
  | .obj pad [] => 123 :: (spaces pad ++ [125])
  | .obj pad ((k, v) :: ms) =>
    123 :: (spaces pad ++ (k.text ++ 58 :: (text v ++ (membersTail ms ++ [125]))))
  | .padded before d after => spaces before ++ (text d ++ spaces after)

/-- The items after the first one, each behind a comma. -/
def itemsTail : List Doc → Text
  | [] => []
  | v :: vs => 44 :: (text v ++ itemsTail vs)

def membersTail : List (Key × Doc) → Text
  | [] => []
  | (k, v) :: ms => 44 :: (k.text ++ 58 :: (text v ++ membersTail ms))

end

mutual

/-- What a document says, repeated names included. -/
def value : Doc → Json Text IntLit
  | .null => .null
  | .bool b => .bool b
  | .num n => .num n
  | .str s => .str (stringValue s)
  | .arr _ items => .arr (itemValues items)
  | .obj _ members => .obj (memberValues members)
  | .padded _ d _ => value d

def itemValues : List Doc → List (Json Text IntLit)
  | [] => []
  | v :: vs => value v :: itemValues vs

def memberValues : List (Key × Doc) → List (Text × Json Text IntLit)
  | [] => []
  | (k, v) :: ms => (stringValue k.name, value v) :: memberValues ms

end

mutual

/-- How deep arrays and objects are nested. -/
def depth : Doc → Nat
  | .arr _ items => depthItems items + 1
  | .obj _ members => depthMembers members + 1
  | .padded _ d _ => depth d
  | _ => 0

def depthItems : List Doc → Nat
  | [] => 0
  | v :: vs => max (depth v) (depthItems vs)

def depthMembers : List (Key × Doc) → Nat
  | [] => 0
  | (_, v) :: ms => max (depth v) (depthMembers ms)

end

theorem depthItems_le_iff {items : List Doc} {n : Nat} :
    depthItems items ≤ n ↔ ∀ d ∈ items, d.depth ≤ n := by
  induction items with
  | nil => simp [depthItems]
  | cons v vs ih => rw [depthItems, max_le_iff, List.forall_mem_cons, ih]

theorem depthMembers_le_iff {members : List (Key × Doc)} {n : Nat} :
    depthMembers members ≤ n ↔ ∀ m ∈ members, m.2.depth ≤ n := by
  induction members with
  | nil => simp [depthMembers]
  | cons m ms ih =>
    obtain ⟨k, v⟩ := m
    rw [depthMembers, max_le_iff, List.forall_mem_cons, ih]

theorem value_arr (pad : List Space) (items : List Doc) :
    (Doc.arr pad items).value = .arr (items.map value) := by
  have h : itemValues items = items.map value := by
    induction items with
    | nil => rfl
    | cons v vs ih => rw [itemValues, ih, List.map_cons]
  rw [value, h]

theorem value_obj (pad : List Space) (members : List (Key × Doc)) :
    (Doc.obj pad members).value =
      .obj (members.map fun m => (stringValue m.1.name, m.2.value)) := by
  have h : memberValues members = members.map fun m => (stringValue m.1.name, m.2.value) := by
    induction members with
    | nil => rfl
    | cons m ms ih =>
      obtain ⟨k, v⟩ := m
      rw [memberValues, ih, List.map_cons]
  rw [value, h]

/-- The first character of a document is a letter, a digit, a mark or whitespace. -/
theorem text_head (d : Doc) : ∃ c t, d.text = c :: t ∧ c.val < 0x80 := by
  induction d using Doc.ind with
  | null => exact ⟨110, _, rfl, by decide⟩
  | bool b => cases b <;> exact ⟨_, _, rfl, by decide⟩
  | num n =>
    obtain ⟨neg, ds⟩ := n
    cases neg with
    | true => exact ⟨45, _, rfl, by decide⟩
    | false =>
      cases ds with
      | zero => exact ⟨48, _, rfl, by decide⟩
      | pos e es =>
        refine ⟨digitText (e.val + 1), es.map fun f => digitText f.val, ?_, ?_⟩
        · rw [text, IntLit.text, Digits.text, Digits.list, List.map_cons, List.map_map]
          rfl
        · rw [digitText_val (by omega)]
          omega
  | str s => exact ⟨34, _, rfl, by decide⟩
  | arr pad items ih => cases items <;> exact ⟨91, _, rfl, by decide⟩
  | obj pad members ih => rcases members with _ | ⟨⟨k, v⟩, ms⟩ <;> exact ⟨123, _, rfl, by decide⟩
  | padded before d after ih =>
    cases before with
    | nil =>
      obtain ⟨c, t, htext, hc⟩ := ih
      exact ⟨c, t ++ spaces after, by rw [text, htext]; rfl, hc⟩
    | cons w ws => exact ⟨w.code, _, rfl, by cases w <;> decide⟩

theorem text_ne_nil (d : Doc) : d.text ≠ [] := by
  obtain ⟨c, t, htext, -⟩ := d.text_head
  simp [htext]

/-- The characters of documents: no surrogates, and no control characters but whitespace. -/
def Plain (t : Text) : Prop := ∀ c ∈ t, 9 ≤ c.val ∧ ¬ c.IsSurrogate

theorem plain_cons {c : CodePoint} {t : Text} (hc : 9 ≤ c.val ∧ ¬ c.IsSurrogate) (ht : Plain t) :
    Plain (c :: t) :=
  List.forall_mem_cons.mpr ⟨hc, ht⟩

theorem plain_nil : Plain [] := by simp [Plain]

theorem plain_append {s t : Text} (hs : Plain s) (ht : Plain t) : Plain (s ++ t) :=
  List.forall_mem_append.mpr ⟨hs, ht⟩

theorem plain_ascii {t : Text} (h : (t.all fun c => 9 ≤ c.val && c.val < 0x80) = true) :
    Plain t := by
  intro c hc
  have := List.all_eq_true.mp h c hc
  rw [Bool.and_eq_true, decide_eq_true_eq, decide_eq_true_eq] at this
  unfold CodePoint.IsSurrogate
  omega

theorem plain_spaces (ws : List Space) : Plain (spaces ws) := by
  intro c hc
  obtain ⟨w, -, rfl⟩ := List.mem_map.mp hc
  cases w <;> decide

theorem plain_item (i : StringItem) : Plain i.text := by
  have hhex : ∀ h : HexDigit, 9 ≤ h.code.val ∧ ¬ h.code.IsSurrogate := by
    rintro ⟨d, u⟩
    revert d u
    decide
  cases i with
  | raw c hc => exact plain_cons ⟨by have := hc.1; omega, hc.2.2.2⟩ plain_nil
  | short e => exact plain_cons (by decide) (plain_cons (by cases e <;> decide) plain_nil)
  | unicode a b c d =>
    exact plain_cons (by decide) (plain_cons (by decide) (plain_cons (hhex a)
      (plain_cons (hhex b) (plain_cons (hhex c) (plain_cons (hhex d) plain_nil)))))

theorem plain_string (s : List StringItem) : Plain (stringText s) := by
  refine plain_cons (by decide) (plain_append ?_ (plain_cons (by decide) plain_nil))
  intro c hc
  obtain ⟨i, -, hi⟩ := List.mem_flatMap.mp hc
  exact plain_item i c hi

theorem plain_literal (n : IntLit) : Plain n.text := by
  have hdigits : Plain n.digits.text := by
    intro c hc
    obtain ⟨d, hd, rfl⟩ := List.mem_map.mp hc
    have hval := digitText_val (Digits.lt_of_mem hd)
    have hlt := Digits.lt_of_mem hd
    unfold CodePoint.IsSurrogate
    omega
  unfold IntLit.text
  split_ifs
  · exact plain_cons (by decide) hdigits
  · exact hdigits

theorem plain_key (k : Key) : Plain k.text :=
  plain_append (plain_spaces _) (plain_append (plain_string _) (plain_spaces _))

theorem plain_text (d : Doc) : Plain d.text := by
  induction d using Doc.ind with
  | null => exact plain_ascii (by decide)
  | bool b => cases b <;> exact plain_ascii (by decide)
  | num n => exact plain_literal n
  | str s => exact plain_string s
  | arr pad items ih =>
    have htail : ∀ vs : List Doc, (∀ v ∈ vs, Plain v.text) → Plain (itemsTail vs) := by
      intro vs hvs
      induction vs with
      | nil => exact plain_nil
      | cons v vs ihvs =>
        rw [List.forall_mem_cons] at hvs
        exact plain_cons (by decide) (plain_append hvs.1 (ihvs hvs.2))
    have hclose : Plain [93] := plain_cons (by decide) plain_nil
    cases items with
    | nil => exact plain_cons (by decide) (plain_append (plain_spaces _) hclose)
    | cons v vs =>
      rw [List.forall_mem_cons] at ih
      exact plain_cons (by decide) (plain_append (plain_spaces _)
        (plain_append ih.1 (plain_append (htail vs ih.2) hclose)))
  | obj pad members ih =>
    have htail : ∀ ms : List (Key × Doc), (∀ m ∈ ms, Plain m.2.text) → Plain (membersTail ms) := by
      intro ms hms
      induction ms with
      | nil => exact plain_nil
      | cons m ms ihms =>
        rw [List.forall_mem_cons] at hms
        exact plain_cons (by decide) (plain_append (plain_key _)
          (plain_cons (by decide) (plain_append hms.1 (ihms hms.2))))
    have hclose : Plain [125] := plain_cons (by decide) plain_nil
    rcases members with _ | ⟨⟨k, v⟩, ms⟩
    · exact plain_cons (by decide) (plain_append (plain_spaces _) hclose)
    · rw [List.forall_mem_cons] at ih
      exact plain_cons (by decide) (plain_append (plain_spaces _) (plain_append (plain_key _)
        (plain_cons (by decide) (plain_append ih.1 (plain_append (htail ms ih.2) hclose)))))
  | padded before d after ih =>
    exact plain_append (plain_spaces _) (plain_append ih (plain_spaces _))

end Doc

end Shadownet.Foundation
