import Shadownet.Python.Stdlib
import Shadownet.Python.Values

/-!
# The canonical JSON encoder of the Python SDK

`shadownet/jcs.py`. The encoder refuses floats, surrogates and integers beyond the
interpreter's limit on digits; on everything else it writes the text of the value with the
members of every object sorted by their UTF-16 code units (`encode_eq_ok`). Two values have
the same canonical bytes exactly when they are equal up to the order of members
(`canonicalize_agrees`, `canonicalize_congr`).
-/

namespace Shadownet.Python

open Foundation

def jcsError (msg : Text) : Exc := ⟨.jcsError, msg⟩

/-! ## Strings -/

/-- What `_encode_string` appends for a character that is no surrogate. -/
def escape (ch : CodePoint) : Text :=
  if ch.val = 34 then [92, 34]
  else if ch.val = 92 then [92, 92]
  else if ch.val = 8 then [92, 98]
  else if ch.val = 9 then [92, 116]
  else if ch.val = 10 then [92, 110]
  else if ch.val = 12 then [92, 102]
  else if ch.val = 13 then [92, 114]
  else if ch.val < 32 then [92, 117] ++ hex4 97 ch.val
  else [ch]

/-- One round of the loop of `_encode_string`. -/
def encodeChar (ch : CodePoint) : Py Text :=
  if ch.IsSurrogate then
    throw (jcsError (text "lone surrogate U+" ++ hex4 65 ch.val ++ text " in input string"))
  else pure (escape ch)

def encodeString (s : Text) : Py Text := do
  let out ← s.mapM encodeChar
  pure (34 :: (out.flatten ++ [34]))

/-! ## Numbers -/

/-- The first integer with more digits than `sys.get_int_max_str_digits()`. -/
def intLimit : Nat := 10 ^ 4300

theorem intLimit_pos : 0 < intLimit := by
  rw [intLimit]
  exact pow_pos (by decide) _

/-- `str(n)`. -/
def strInt (n : Int) : Py Text :=
  if intLimit ≤ n.natAbs then
    throw ⟨.valueError, text "Exceeds the limit (4300 digits) for integer string conversion; " ++
      text "use sys.set_int_max_str_digits() to increase the limit"⟩
  else pure (intText n)

/-! ## Objects -/

/-- `s.encode("utf-16-be")` of a text without surrogates. -/
def utf16Be (s : Text) : List Nat := (utf16 s).flatMap fun u => [u / 256, u % 256]

/-- `_utf16_codeunits(b) < _utf16_codeunits(a)` negated: the order of the sort. -/
def nameLe (a b : Text) : Prop := ¬ utf16Be b < utf16Be a

instance : DecidableRel nameLe := fun a b =>
  inferInstanceAs (Decidable (¬ utf16Be b < utf16Be a))

def hasSurrogate (s : Text) : Bool := s.any fun c => decide c.IsSurrogate

/-- `s.encode(codec)` of a text with a surrogate: the first one is reported. -/
def surrogateExc (codec : String) (s : Text) : Exc :=
  let i := s.findIdx fun c => decide c.IsSurrogate
  ⟨.unicodeEncodeError, text "'" ++ text codec ++ text "' codec can't encode character '\\u" ++
    hex4 97 ((s[i]?).elim 0 Fin.val) ++ text "' in position " ++ decimal i ++
    text ": surrogates not allowed"⟩

/-- `_encode_string(k) + ":" + _encode(obj[k])`. -/
def encodeMember (m : Text × Py Text) : Py Text := do
  let k ← encodeString m.1
  let v ← m.2
  pure (k ++ 58 :: v)

/-- `_encode_object`, over the names of the members and what encoding their values gives.
The sort needs the key of every member before the first one is encoded. -/
def encodeObject (members : List (Text × Py Text)) : Py Text :=
  match (members.map Prod.fst).find? hasSurrogate with
  | some k => throw (surrogateExc "utf-16-be" k)
  | none => do
    let parts ← (members.insertionSort (Json.memberLe nameLe)).mapM encodeMember
    pure (123 :: (List.intercalate [44] parts ++ [125]))

mutual

/-- `_encode`. -/
def encode : Value → Py Text
  | .null => pure (text "null")
  | .bool true => pure (text "true")
  | .bool false => pure (text "false")
  | .str s => encodeString s
  | .num (.int n) => strInt n
  | .num (.float _) => throw (jcsError (text "float canonicalization is intentionally unsupported"))
  | .obj members => encodeObject (encodeMembers members)
  | .arr items => do
    let parts ← encodeItems items
    pure (91 :: (List.intercalate [44] parts ++ [93]))

def encodeItems : List Value → Py (List Text)
  | [] => pure []
  | v :: vs => do
    let t ← encode v
    let ts ← encodeItems vs
    pure (t :: ts)

def encodeMembers : List (Text × Value) → List (Text × Py Text)
  | [] => []
  | (k, v) :: ms => (k, encode v) :: encodeMembers ms

end

/-- `s.encode("utf-8")`. -/
def encodeUtf8 (s : Text) : Py Bytes :=
  if hasSurrogate s then throw (surrogateExc "utf-8" s) else pure (utf8 s)

def canonicalize (v : Value) : Py Bytes := do
  let t ← encode v
  encodeUtf8 t

/-! ## Written strings can be read back -/

/-- A text without surrogates. -/
def Clean (s : Text) : Prop := ∀ c ∈ s, ¬ c.IsSurrogate

theorem hasSurrogate_eq_false {s : Text} : hasSurrogate s = false ↔ Clean s := by
  simp [hasSurrogate, Clean]

def quoted (s : Text) : Text := 34 :: (s.flatMap escape ++ [34])

theorem encodeString_eq_ok {s t : Text} : encodeString s = .ok t ↔ Clean s ∧ t = quoted s := by
  have hchar : ∀ c ∈ s, ∀ u, encodeChar c = .ok u ↔ ¬ c.IsSurrogate ∧ u = escape c := by
    intro c _ u
    rw [encodeChar, guard_eq_ok, pure_eq_ok, eq_comm (a := u)]
  rw [encodeString, bind_eq_ok]
  constructor
  · rintro ⟨out, hout, hret⟩
    obtain ⟨hs, rfl⟩ := (mapM_eq_ok hchar).mp hout
    rw [pure_eq_ok] at hret
    exact ⟨hs, by rw [← hret, quoted, List.flatMap_def]⟩
  · rintro ⟨hs, rfl⟩
    refine ⟨s.map escape, (mapM_eq_ok hchar).mpr ⟨hs, rfl⟩, ?_⟩
    rw [pure_eq_ok, quoted, List.flatMap_def]

/-- The characters that are written with a backslash. -/
def Escaped (c : CodePoint) : Prop := c.val < 32 ∨ c.val = 34 ∨ c.val = 92

instance (c : CodePoint) : Decidable (Escaped c) := inferInstanceAs (Decidable (_ ∨ _ ∨ _))

theorem escape_of_not_escaped {c : CodePoint} (h : ¬ Escaped c) : escape c = [c] := by
  unfold Escaped at h
  unfold escape
  rw [if_neg (by omega), if_neg (by omega), if_neg (by omega), if_neg (by omega),
    if_neg (by omega), if_neg (by omega), if_neg (by omega), if_neg (by omega)]

theorem escaped_lt {c : CodePoint} (h : Escaped c) : c.val < 93 := by
  unfold Escaped at h
  omega

theorem escape_head {c : CodePoint} (h : Escaped c) : (escape c).head? = some 92 := by
  have hall : ∀ i : Fin 93, Escaped (Fin.castLE (by decide) i) →
      (escape (Fin.castLE (by decide) i)).head? = some 92 := by decide
  exact hall ⟨c.val, escaped_lt h⟩ h

theorem eq_of_escape_le {c d : CodePoint} (hc : Escaped c) (hd : Escaped d)
    (h : escape c <+: escape d) : c = d := by
  have hall : ∀ i j : Fin 93, Escaped (Fin.castLE (by decide) i) →
      Escaped (Fin.castLE (by decide) j) →
      escape (Fin.castLE (by decide) i) <+: escape (Fin.castLE (by decide) j) → i = j := by
    decide +kernel
  have := hall ⟨c.val, escaped_lt hc⟩ ⟨d.val, escaped_lt hd⟩ hc hd h
  exact Fin.ext (by simpa using this)

theorem escape_unique {c d : CodePoint} {r r' : Text} (h : escape c ++ r = escape d ++ r') :
    c = d ∧ r = r' := by
  have hmix : ∀ {c d : CodePoint} {r r' : Text}, Escaped c → ¬ Escaped d →
      escape c ++ r ≠ escape d ++ r' := by
    intro c d r r' hc hd h
    have hhead := escape_head hc
    rw [escape_of_not_escaped hd, List.singleton_append] at h
    have hd92 : (escape c ++ r).head? = some d := by rw [h, List.head?_cons]
    rw [List.head?_append, hhead, Option.some_or, Option.some.injEq] at hd92
    exact hd (by rw [← hd92]; decide)
  by_cases hc : Escaped c
  · by_cases hd : Escaped d
    · have hcd : c = d := by
        rcases List.prefix_or_prefix_of_prefix (List.prefix_append (escape c) r)
          (h ▸ List.prefix_append (escape d) r') with hp | hp
        · exact eq_of_escape_le hc hd hp
        · exact (eq_of_escape_le hd hc hp).symm
      subst hcd
      exact ⟨rfl, List.append_cancel_left h⟩
    · exact absurd h (hmix hc hd)
  · by_cases hd : Escaped d
    · exact absurd h.symm (hmix hd hc)
    · rw [escape_of_not_escaped hc, escape_of_not_escaped hd, List.singleton_append,
        List.singleton_append, List.cons.injEq] at h
      exact h

theorem escape_ne_quote {c : CodePoint} {r r' : Text} : escape c ++ r ≠ 34 :: r' := by
  intro h
  by_cases hc : Escaped c
  · have hhead : (escape c ++ r).head? = some 92 := by
      rw [List.head?_append, escape_head hc, Option.some_or]
    rw [h, List.head?_cons] at hhead
    exact absurd hhead (by decide)
  · rw [escape_of_not_escaped hc, List.singleton_append, List.cons.injEq] at h
    exact hc (by rw [h.1]; decide)

theorem quoted_unique {s t r r' : Text} (h : quoted s ++ r = quoted t ++ r') :
    s = t ∧ r = r' := by
  simp only [quoted, List.cons_append, List.append_assoc, List.nil_append, List.cons.injEq,
    true_and] at h
  induction s generalizing t with
  | nil =>
    cases t with
    | nil => exact ⟨rfl, by simpa using h⟩
    | cons d t =>
      rw [List.flatMap_cons, List.append_assoc] at h
      exact absurd h.symm escape_ne_quote
  | cons c s ih =>
    cases t with
    | nil =>
      rw [List.flatMap_cons, List.append_assoc] at h
      exact absurd h escape_ne_quote
    | cons d t =>
      rw [List.flatMap_cons, List.flatMap_cons, List.append_assoc, List.append_assoc] at h
      obtain ⟨rfl, hrest⟩ := escape_unique h
      obtain ⟨rfl, hr⟩ := ih hrest
      exact ⟨rfl, hr⟩

/-! ## The order of names -/

theorem nameLe_total (a b : Text) : nameLe a b ∨ nameLe b a := List.le_total _ _

theorem nameLe_trans (a b c : Text) (hab : nameLe a b) (hbc : nameLe b c) : nameLe a c :=
  List.le_trans hab hbc

theorem nameLe_antisymm (a b : Text) (ha : Clean a) (hb : Clean b) (hab : nameLe a b)
    (hba : nameLe b a) : a = b := by
  have hbytes : utf16Be a = utf16Be b := List.le_antisymm hab hba
  refine utf16_injective ha hb (flatMap_injective (P := fun _ => True) (by simp) ?_ (by simp)
    (by simp) hbytes)
  intro u v r r' _ _ h
  simp only [List.cons_append, List.nil_append, List.cons.injEq] at h
  exact ⟨by omega, h.2.2⟩

/-! ## What the encoder writes -/

/-- Integers the interpreter converts to text; no float is one. -/
def ShortInt : Number → Prop
  | .int n => n.natAbs < intLimit
  | .float _ => False

/-- The values `canonicalize` accepts. -/
def Encodable (v : Value) : Prop := v.Forall ShortInt Clean (fun _ => True)

def lexemes : Lexemes Text Number where
  str := quoted
  num
    | .int n => intText n
    | .float _ => []

theorem lexemes_readable : lexemes.Readable ShortInt Clean where
  str_head _ := ⟨_, rfl⟩
  str_unique _ _ h := quoted_unique h
  num_head := by
    intro n hn
    cases n with
    | int n => exact intText_head n
    | float _ => exact hn.elim
  num_unique := by
    intro a b r r' ha hb hr hr' h
    cases a with
    | float _ => exact ha.elim
    | int m =>
      cases b with
      | float _ => exact hb.elim
      | int n =>
        obtain ⟨rfl, hrr⟩ := intText_unique hr hr' h
        exact ⟨rfl, hrr⟩

theorem encodeItems_eq (items : List Value) : encodeItems items = items.mapM encode := by
  induction items with
  | nil => rw [encodeItems, List.mapM_nil]
  | cons v vs ih => rw [encodeItems, List.mapM_cons, ih]

theorem encodeMembers_eq (members : List (Text × Value)) :
    encodeMembers members = members.map fun m => (m.1, encode m.2) := by
  induction members with
  | nil => rfl
  | cons m ms ih =>
    obtain ⟨k, v⟩ := m
    rw [encodeMembers, ih, List.map_cons]

/-- The canonical text of a value. -/
def canonicalText (v : Value) : Text := (v.sorted nameLe).text lexemes

theorem canonicalText_arr (items : List Value) :
    canonicalText (.arr items) =
      91 :: (List.intercalate [44] (items.map canonicalText) ++ [93]) := by
  rw [canonicalText, Json.sorted, Json.sortedItems_eq, Json.text_arr, List.map_map]
  rfl

/-- A member and its canonical text. -/
def canonicalMember (m : Text × Value) : Text := quoted m.1 ++ 58 :: canonicalText m.2

theorem canonicalText_obj (members : List (Text × Value)) :
    canonicalText (.obj members) = 123 :: (List.intercalate [44]
      ((members.insertionSort (Json.memberLe nameLe)).map canonicalMember) ++ [125]) := by
  have hsort := List.map_insertionSort (Json.memberLe nameLe) (Json.memberLe nameLe)
    (fun m : Text × Value => (m.1, m.2.sorted nameLe)) members (fun _ _ _ _ => Iff.rfl)
  rw [canonicalText, Json.sorted, Json.sortedMembers_eq, ← hsort, Json.text_obj, List.map_map]
  rfl

theorem raises_strInt (n : Int) : Raises .valueError (strInt n) := by
  intro e h
  rw [strInt] at h
  split_ifs at h
  · rw [← Except.error.inj h]
  · cases h

theorem strInt_eq_ok {n : Int} {t : Text} :
    strInt n = .ok t ↔ n.natAbs < intLimit ∧ t = intText n := by
  rw [strInt, guard_eq_ok, pure_eq_ok, Nat.not_le, eq_comm (a := t)]

theorem encodeObject_eq_ok {members : List (Text × Value)}
    (ih : ∀ m ∈ members, ∀ t, encode m.2 = .ok t ↔ Encodable m.2 ∧ t = canonicalText m.2)
    {t : Text} :
    encodeObject (encodeMembers members) = .ok t ↔
      Encodable (.obj members) ∧ t = canonicalText (.obj members) := by
  have hsort := List.map_insertionSort (Json.memberLe nameLe) (Json.memberLe nameLe)
    (fun m : Text × Value => (m.1, encode m.2)) members (fun _ _ _ _ => Iff.rfl)
  have hfst : (encodeMembers members).map Prod.fst = members.map Prod.fst := by
    rw [encodeMembers_eq, List.map_map]
    rfl
  have hEnc : Encodable (.obj members) ↔ ∀ m ∈ members, Clean m.1 ∧ Encodable m.2 := by
    rw [Encodable, Json.forall_obj]
    simp [Encodable]
  have hstep : ∀ m ∈ members.insertionSort (Json.memberLe nameLe), ∀ u,
      (encodeMember ∘ fun m => (m.1, encode m.2)) m = .ok u ↔
        (Clean m.1 ∧ Encodable m.2) ∧ u = canonicalMember m := by
    intro m hm u
    have hm' : m ∈ members := (List.mem_insertionSort _).mp hm
    simp only [Function.comp_apply, encodeMember, bind_eq_ok, encodeString_eq_ok, ih m hm',
      pure_eq_ok]
    constructor
    · rintro ⟨k, ⟨hk, rfl⟩, v, ⟨hv, rfl⟩, rfl⟩
      exact ⟨⟨hk, hv⟩, rfl⟩
    · rintro ⟨⟨hk, hv⟩, rfl⟩
      exact ⟨_, ⟨hk, rfl⟩, _, ⟨hv, rfl⟩, rfl⟩
  have hloop : ∀ {ts : List Text},
      ((encodeMembers members).insertionSort (Json.memberLe nameLe)).mapM encodeMember =
        .ok ts ↔ (∀ m ∈ members, Clean m.1 ∧ Encodable m.2) ∧
        ts = (members.insertionSort (Json.memberLe nameLe)).map canonicalMember := by
    intro ts
    rw [encodeMembers_eq, ← hsort, List.mapM_map, mapM_eq_ok hstep]
    simp only [List.mem_insertionSort]
  rw [hEnc, canonicalText_obj, encodeObject, hfst]
  cases hfind : (members.map Prod.fst).find? hasSurrogate with
  | some k =>
    obtain ⟨m, hm, rfl⟩ := List.mem_map.mp (List.mem_of_find?_eq_some hfind)
    have hk : hasSurrogate m.1 = true := List.find?_some hfind
    refine ⟨fun h => (throw_eq_ok.mp h).elim, fun h => ?_⟩
    rw [hasSurrogate_eq_false.mpr (h.1 m hm).1] at hk
    cases hk
  | none =>
    simp only [bind_eq_ok, hloop, pure_eq_ok]
    constructor
    · rintro ⟨ts, ⟨hms, rfl⟩, rfl⟩
      exact ⟨hms, rfl⟩
    · rintro ⟨hms, rfl⟩
      exact ⟨_, ⟨hms, rfl⟩, rfl⟩

/-- `_encode` returns exactly on encodable values, and returns their canonical text. -/
theorem encode_eq_ok {v : Value} {t : Text} :
    encode v = .ok t ↔ Encodable v ∧ t = canonicalText v := by
  induction v using Json.ind generalizing t with
  | null =>
    rw [encode, pure_eq_ok]
    exact ⟨fun h => ⟨trivial, h.symm⟩, fun h => h.2.symm⟩
  | bool b =>
    cases b <;> rw [encode, pure_eq_ok] <;>
      exact ⟨fun h => ⟨trivial, h.symm⟩, fun h => h.2.symm⟩
  | num n =>
    cases n with
    | int n => exact strInt_eq_ok
    | float _ => exact ⟨fun h => (throw_eq_ok.mp h).elim, fun h => h.1.elim⟩
  | str s => exact encodeString_eq_ok
  | arr items ih =>
    have hloop : ∀ {ts}, items.mapM encode = .ok ts ↔
        (∀ v ∈ items, Encodable v) ∧ ts = items.map canonicalText :=
      mapM_eq_ok fun v hv _ => ih v hv
    rw [encode, encodeItems_eq, canonicalText_arr, Encodable, Json.forall_arr]
    simp only [bind_eq_ok, hloop, pure_eq_ok]
    constructor
    · rintro ⟨ts, ⟨hvs, rfl⟩, rfl⟩
      exact ⟨hvs, rfl⟩
    · rintro ⟨hvs, rfl⟩
      exact ⟨_, ⟨hvs, rfl⟩, rfl⟩
  | obj members ih =>
    rw [encode]
    exact encodeObject_eq_ok fun m hm t => ih m hm

/-! ## Canonical bytes -/

theorem clean_append {s t : Text} (hs : Clean s) (ht : Clean t) : Clean (s ++ t) :=
  List.forall_mem_append.mpr ⟨hs, ht⟩

theorem clean_cons {c : CodePoint} {s : Text} (hc : ¬ c.IsSurrogate) (hs : Clean s) :
    Clean (c :: s) :=
  List.forall_mem_cons.mpr ⟨hc, hs⟩

theorem clean_intercalate {ts : List Text} (h : ∀ t ∈ ts, Clean t) :
    Clean (List.intercalate [44] ts) := by
  induction ts with
  | nil => simp [Clean]
  | cons t ts ih =>
    have ht := h t (by simp)
    have hts := ih fun u hu => h u (by simp [hu])
    cases ts with
    | nil => simpa using ht
    | cons u us =>
      rw [List.intercalate_cons_cons]
      exact clean_append (clean_append ht (clean_cons (by decide) (by simp [Clean]))) hts

theorem clean_quoted {s : Text} (hs : Clean s) : Clean (quoted s) := by
  have hescape : ∀ c : CodePoint, ¬ c.IsSurrogate → Clean (escape c) := by
    intro c hc
    by_cases he : Escaped c
    · have hall : ∀ i : Fin 93, hasSurrogate (escape (Fin.castLE (by decide) i)) = false := by
        decide
      exact hasSurrogate_eq_false.mp (hall ⟨c.val, escaped_lt he⟩)
    · rw [escape_of_not_escaped he]
      exact clean_cons hc (by simp [Clean])
  refine clean_cons (by decide) (clean_append ?_ (clean_cons (by decide) (by simp [Clean])))
  intro d hd
  obtain ⟨c, hc, hdc⟩ := List.mem_flatMap.mp hd
  exact hescape c (hs c hc) d hdc

theorem clean_intText (n : Int) : Clean (intText n) := by
  have hdigit : ∀ m, Clean (natText m) := by
    intro m c hc hs
    have := isDigit_of_mem_natText hc
    unfold IsDigit at this
    unfold CodePoint.IsSurrogate at hs
    omega
  unfold intText
  split_ifs with h
  · exact clean_cons (by decide) (hdigit _)
  · exact hdigit _

theorem clean_canonicalText {v : Value} (h : Encodable v) : Clean (canonicalText v) := by
  induction v using Json.ind with
  | null => exact hasSurrogate_eq_false.mp (by decide)
  | bool b => cases b <;> exact hasSurrogate_eq_false.mp (by decide)
  | num n =>
    cases n with
    | int n => exact clean_intText n
    | float _ => exact h.elim
  | str s => exact clean_quoted h
  | arr items ih =>
    rw [Encodable, Json.forall_arr] at h
    rw [canonicalText_arr]
    refine clean_cons (by decide) (clean_append (clean_intercalate ?_)
      (clean_cons (by decide) (by simp [Clean])))
    intro t ht
    obtain ⟨v, hv, rfl⟩ := List.mem_map.mp ht
    exact ih v hv (h v hv)
  | obj members ih =>
    have hms := (Json.forall_obj.mp h).2
    rw [canonicalText_obj]
    refine clean_cons (by decide) (clean_append (clean_intercalate ?_)
      (clean_cons (by decide) (by simp [Clean])))
    intro t ht
    obtain ⟨m, hm, rfl⟩ := List.mem_map.mp ht
    have hm' : m ∈ members := (List.mem_insertionSort _).mp hm
    exact clean_append (clean_quoted (hms m hm').1)
      (clean_cons (by decide) (ih m hm' (hms m hm').2))

theorem canonicalize_eq_ok {v : Value} {b : Bytes} :
    canonicalize v = .ok b ↔ Encodable v ∧ b = utf8 (canonicalText v) := by
  have hutf8 : Encodable v → encodeUtf8 (canonicalText v) = pure (utf8 (canonicalText v)) := by
    intro hv
    rw [encodeUtf8, hasSurrogate_eq_false.mpr (clean_canonicalText hv), if_neg (by simp)]
  simp only [canonicalize, bind_eq_ok, encode_eq_ok]
  constructor
  · rintro ⟨t, ⟨hv, rfl⟩, hb⟩
    rw [hutf8 hv, pure_eq_ok] at hb
    exact ⟨hv, hb.symm⟩
  · rintro ⟨hv, rfl⟩
    exact ⟨_, ⟨hv, rfl⟩, by rw [hutf8 hv, pure_eq_ok]⟩

/-- `canonicalize` raises nothing but a `ValueError`. -/
theorem canonicalize_error {v : Value} {e : Exc} (h : canonicalize v = .error e) :
    e.cls.isA .valueError = true := by
  have hstring : ∀ s, Yields (fun _ => True) (fun e : Exc => e.cls.isA .valueError = true)
      (encodeString s) := fun s =>
    .bind (.mapM (S := fun _ => True) fun c _ => .guard (fun _ => rfl) fun _ => trivial)
      fun _ _ _ => trivial
  have hencode : ∀ v, Yields (fun _ => True) (fun e : Exc => e.cls.isA .valueError = true)
      (encode v) := by
    intro v
    induction v using Json.ind with
    | null => trivial
    | bool b => cases b <;> trivial
    | str s => exact hstring s
    | num n =>
      cases n with
      | int n =>
        have hint := raises_strInt n
        change Yields _ _ (strInt n)
        generalize strInt n = x at hint
        cases x with
        | ok t => trivial
        | error e =>
          change e.cls.isA .valueError = true
          rw [hint e rfl]
          rfl
      | float bits => exact .throw rfl
    | arr items ih =>
      rw [encode, encodeItems_eq]
      exact .bind (.mapM ih) fun _ _ _ => trivial
    | obj members ih =>
      rw [encode, encodeMembers_eq, encodeObject]
      split
      · exact .throw rfl
      · refine .bind (.mapM (S := fun _ => True) fun m hm => ?_) fun _ _ _ => trivial
        obtain ⟨m', hm', rfl⟩ := List.mem_map.mp ((List.mem_insertionSort _).mp hm)
        exact .bind (hstring _) fun _ _ _ => .bind (ih m' hm') fun _ _ _ => trivial
  have hall : Yields (fun _ => True) (fun e : Exc => e.cls.isA .valueError = true)
      (canonicalize v) :=
    .bind (hencode v) fun _ _ _ => .guard (fun _ => rfl) fun _ => trivial
  rw [h] at hall
  exact hall

/-- Values with the same canonical bytes agree. -/
theorem canonicalize_agrees {v w : Value} {b : Bytes} (hv : v.Distinct) (hw : w.Distinct)
    (h : canonicalize v = .ok b) (h' : canonicalize w = .ok b) : v.Agrees w := by
  obtain ⟨hev, hbv⟩ := canonicalize_eq_ok.mp h
  obtain ⟨hew, hbw⟩ := canonicalize_eq_ok.mp h'
  have htext : canonicalText v = canonicalText w :=
    utf8_injective (clean_canonicalText hev) (clean_canonicalText hew) (hbv.symm.trans hbw)
  have hsorted : v.sorted nameLe = w.sorted nameLe :=
    Json.text_injective lexemes_readable (Json.forall_sorted.mpr hev)
      (Json.forall_sorted.mpr hew) htext
  exact Json.agrees_of_sorted hv hw hsorted

/-- Values that agree have the same canonical bytes. -/
theorem canonicalize_congr {v w : Value} {b : Bytes} (hv : v.Distinct) (hw : w.Distinct)
    (hvw : v.Agrees w) (h : canonicalize v = .ok b) : canonicalize w = .ok b := by
  obtain ⟨hev, rfl⟩ := canonicalize_eq_ok.mp h
  have hclean : v.Forall (fun _ => True) Clean (fun _ => True) :=
    hev.mono (fun _ _ => trivial) (fun _ hs => hs) (fun _ _ => trivial)
  have hsorted : v.sorted nameLe = w.sorted nameLe :=
    Json.sorted_of_agrees nameLe_total nameLe_trans nameLe_antisymm hv hw hclean hvw
  refine canonicalize_eq_ok.mpr ⟨?_, by rw [canonicalText, hsorted, canonicalText]⟩
  have hew : (w.sorted nameLe).Forall ShortInt Clean (fun _ => True) := by
    rw [← hsorted]
    exact Json.forall_sorted.mpr hev
  exact Json.forall_sorted.mp hew

end Shadownet.Python
