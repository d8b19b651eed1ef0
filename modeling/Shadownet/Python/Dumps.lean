import Shadownet.Foundation.Pairs
import Shadownet.Foundation.Writer
import Shadownet.Python.Crypto
import Shadownet.Python.Document

/-!
# `json.dumps`

The writer of CPython with its defaults: `", "` and `": "` between the pieces, and everything
outside printable ASCII escaped. A character beyond the basic plane becomes two escapes, so two
halves of a pair that stand next to each other in a `str` come back as one character.

* `stringValue_dumped`: what a written string says.
-/

namespace Shadownet.Python

open Foundation

/-! ## Strings -/

/-- `ESCAPE_DCT` of `json.encoder`. -/
def shortLetter (c : CodePoint) : Option CodePoint :=
  if c.val = 92 then some 92
  else if c.val = 34 then some 34
  else if c.val = 8 then some 98
  else if c.val = 12 then some 102
  else if c.val = 10 then some 110
  else if c.val = 13 then some 114
  else if c.val = 9 then some 116
  else none

/-- One character of `py_encode_basestring_ascii`. -/
def escapeAscii (c : CodePoint) : Text :=
  match shortLetter c with
  | some letter => [92, letter]
  | none =>
    if 32 ≤ c.val ∧ c.val ≤ 126 then [c]
    else if c.val < 0x10000 then 92 :: 117 :: hex4 97 c.val
    else
      let n := c.val - 0x10000
      92 :: 117 :: hex4 97 (0xD800 + n / 1024 % 1024) ++ 92 :: 117 :: hex4 97 (0xDC00 + n % 1024)

def dumpsStr (s : Text) : Text := 34 :: (s.flatMap escapeAscii ++ [34])

/-! ## Values -/

/-- `int.__repr__`. -/
def intRepr (n : Int) : Py Text :=
  if 4300 < (natText n.natAbs).length then
    throw ⟨.valueError, text "Exceeds the limit (4300 digits) for integer string conversion; " ++
      text "use sys.set_int_max_str_digits() to increase the limit"⟩
  else pure (decimal n)

/-- `floatstr` of `json.encoder`. -/
def floatText (G : Runtime) (bits : UInt64) : Text :=
  if bits.toNat % 2 ^ 63 > 0x7FF0000000000000 then text "NaN"
  else if bits = 0x7FF0000000000000 then text "Infinity"
  else if bits = 0xFFF0000000000000 then text "-Infinity"
  else G.repr (.num (.float bits))

mutual

/-- `json.dumps`. -/
def dumps (G : Runtime) : Value → Py Text
  | .null => pure (text "null")
  | .bool true => pure (text "true")
  | .bool false => pure (text "false")
  | .num (.int n) => intRepr n
  | .num (.float bits) => pure (floatText G bits)
  | .str s => pure (dumpsStr s)
  | .arr [] => pure (text "[]")
  | .arr (v :: vs) => do
    let t ← dumps G v
    let ts ← dumpsItems G vs
    pure (91 :: (t ++ (ts ++ [93])))
  | .obj [] => pure [123, 125]
  | .obj ((k, v) :: ms) => do
    let t ← dumps G v
    let ts ← dumpsMembers G ms
    pure (123 :: (dumpsStr k ++ 58 :: 32 :: (t ++ (ts ++ [125]))))

/-- The items after the first one. -/
def dumpsItems (G : Runtime) : List Value → Py Text
  | [] => pure []
  | v :: vs => do
    let t ← dumps G v
    let ts ← dumpsItems G vs
    pure (44 :: 32 :: (t ++ ts))

/-- The members after the first one. -/
def dumpsMembers (G : Runtime) : List (Text × Value) → Py Text
  | [] => pure []
  | (k, v) :: ms => do
    let t ← dumps G v
    let ts ← dumpsMembers G ms
    pure (44 :: 32 :: (dumpsStr k ++ 58 :: 32 :: (t ++ ts)))

end

/-! ## What a written string says -/

theorem neZero_hex : @NeZero Nat Zero.ofOfNat0 16 := ⟨by decide⟩

def hexDigitOf (n : Nat) : HexDigit := ⟨@Fin.ofNat 16 neZero_hex n, false⟩

/-- A `\u` escape. -/
def unicodeItem (n : Nat) : StringItem :=
  .unicode (hexDigitOf (n / 4096)) (hexDigitOf (n / 256 % 16)) (hexDigitOf (n / 16 % 16))
    (hexDigitOf (n % 16))

theorem unicodeItem_text {n : Nat} (h : n < 0x10000) :
    (unicodeItem n).text = 92 :: 117 :: hex4 97 n := by
  have hcode : ∀ m, m < 16 → (hexDigitOf m).code = hexDigit 97 m := by
    have hall : ∀ m : Fin 16, (hexDigitOf m.val).code = hexDigit 97 m.val := by decide
    exact fun m hm => hall ⟨m, hm⟩
  rw [unicodeItem, StringItem.text, hcode _ (by omega), hcode _ (by omega), hcode _ (by omega),
    hcode _ (by omega)]
  rfl

theorem unicodeItem_unit {n : Nat} (h : n < 0x10000) :
    (unicodeItem n).unit.val = n := by
  rw [unicodeItem, unit_unicode_val]
  simp only [StringItem.hexValue, hexDigitOf, Fin.ofNat]
  omega

/-- How a character is written. -/
def dumpItems (c : CodePoint) : List StringItem :=
  if c.val = 92 then [.short .backslash]
  else if c.val = 34 then [.short .quote]
  else if c.val = 8 then [.short .backspace]
  else if c.val = 12 then [.short .formFeed]
  else if c.val = 10 then [.short .lineFeed]
  else if c.val = 13 then [.short .carriageReturn]
  else if c.val = 9 then [.short .tab]
  else if h : 32 ≤ c.val ∧ c.val ≤ 126 ∧ Raw c then [.raw c h.2.2]
  else if c.val < 0x10000 then [unicodeItem c.val]
  else [unicodeItem (0xD800 + (c.val - 0x10000) / 1024 % 1024),
    unicodeItem (0xDC00 + (c.val - 0x10000) % 1024)]

theorem dumpItems_ascii {c : CodePoint} (h : c.val < 128) :
    (dumpItems c).flatMap StringItem.text = escapeAscii c ∧
      (dumpItems c).map StringItem.unit = halves c := by
  have hall : ∀ n : Fin 128,
      (dumpItems (Fin.ofNat 0x110000 n.val)).flatMap StringItem.text =
          escapeAscii (Fin.ofNat 0x110000 n.val) ∧
        (dumpItems (Fin.ofNat 0x110000 n.val)).map StringItem.unit =
          halves (Fin.ofNat 0x110000 n.val) := by decide
  have hc : Fin.ofNat 0x110000 c.val = c := Fin.ext (Nat.mod_eq_of_lt c.isLt)
  have hn := hall ⟨c.val, h⟩
  rwa [hc] at hn

theorem dumpItems_wide {c : CodePoint} (h : 128 ≤ c.val) :
    dumpItems c = if c.val < 0x10000 then [unicodeItem c.val]
      else [unicodeItem (0xD800 + (c.val - 0x10000) / 1024 % 1024),
        unicodeItem (0xDC00 + (c.val - 0x10000) % 1024)] := by
  rw [dumpItems, if_neg (by omega), if_neg (by omega), if_neg (by omega), if_neg (by omega),
    if_neg (by omega), if_neg (by omega), if_neg (by omega), dif_neg (by omega)]

theorem dumpItems_text (c : CodePoint) : (dumpItems c).flatMap StringItem.text = escapeAscii c := by
  by_cases hascii : c.val < 128
  · exact (dumpItems_ascii hascii).1
  · have hnone : shortLetter c = none := by
      rw [shortLetter, if_neg (by omega), if_neg (by omega), if_neg (by omega), if_neg (by omega),
        if_neg (by omega), if_neg (by omega), if_neg (by omega)]
    have hprint : ¬ (32 ≤ c.val ∧ c.val ≤ 126) := by omega
    rw [dumpItems_wide (by omega), escapeAscii, hnone]
    dsimp only
    rw [if_neg hprint]
    split_ifs with hbmp
    · rw [List.flatMap_singleton, unicodeItem_text hbmp]
    · rw [List.flatMap_cons, List.flatMap_singleton, unicodeItem_text (by omega),
        unicodeItem_text (by omega)]

theorem dumpItems_unit (c : CodePoint) : (dumpItems c).map StringItem.unit = halves c := by
  have hc : c.val < 0x110000 := c.isLt
  have hunit : ∀ {n}, n < 0x10000 → (unicodeItem n).unit = Fin.ofNat 0x110000 n := by
    intro n hn
    refine Fin.ext ((unicodeItem_unit hn).trans ?_)
    exact (Nat.mod_eq_of_lt (by omega)).symm
  by_cases hascii : c.val < 128
  · exact (dumpItems_ascii hascii).2
  · rw [dumpItems_wide (by omega), halves]
    split_ifs with hbmp
    · rw [List.map_singleton, hunit hbmp, Fin.ofNat_eq_cast, Fin.cast_val_eq_self]
    · rw [List.map_cons, List.map_singleton, hunit (by omega), hunit (by omega)]

/-- A string as a document holds it. -/
def dumpedItems (s : Text) : List StringItem := s.flatMap dumpItems

theorem stringText_dumped (s : Text) : stringText (dumpedItems s) = dumpsStr s := by
  rw [stringText, dumpedItems, dumpsStr, List.flatMap_assoc,
    List.flatMap_congr fun c _ => dumpItems_text c]

theorem stringValue_dumped (s : Text) : stringValue (dumpedItems s) = joinPairs s := by
  have hmap : (dumpedItems s).map StringItem.unit = s.flatMap halves := by
    rw [dumpedItems, List.map_flatMap]
    exact List.flatMap_congr fun c _ => dumpItems_unit c
  rw [stringValue, hmap, joinPairs_halves]

end Shadownet.Python
