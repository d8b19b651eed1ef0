import Shadownet.Python.Values
import Shadownet.Python.Stdlib

/-!
# `json.loads`

The reader of CPython on a byte string: the encoding is detected, and the text is read into
a value. A `dict` keeps the last of several members with one name, a lone half of a surrogate
pair stays as it is, and an integer with more than 4300 digits is a `ValueError`. What the
interpreter does with other encodings and with floats, and the texts of its syntax errors,
are in `JsonRuntime`.
-/

namespace Shadownet.Python

open Foundation

/-- What `json.detect_encoding` answers. -/
inductive Encoding where
  | utf8 | utf8Sig
  | utf16 | utf16Be | utf16Le
  | utf32 | utf32Be | utf32Le
  deriving DecidableEq

structure JsonRuntime where
  /-- `b.decode(encoding, "surrogatepass")` where strict UTF-8 does not apply. -/
  decode : Encoding → Bytes → Py Text
  /-- `float(literal)`, by its bits. -/
  parseFloat : Text → UInt64
  /-- `str(exc)` of the `JSONDecodeError` for a text. -/
  syntaxText : Text → Text

/-- `json.detect_encoding`. -/
def detectEncoding (b : Bytes) : Encoding :=
  if [0x00, 0x00, 0xFE, 0xFF].isPrefixOf b || [0xFF, 0xFE, 0x00, 0x00].isPrefixOf b then .utf32
  else if [0xFE, 0xFF].isPrefixOf b || [0xFF, 0xFE].isPrefixOf b then .utf16
  else if [0xEF, 0xBB, 0xBF].isPrefixOf b then .utf8Sig
  else
    match b with
    | [b0, b1] => if b0 = 0 then .utf16Be else if b1 = 0 then .utf16Le else .utf8
    | b0 :: b1 :: b2 :: b3 :: _ =>
      if b0 = 0 then (if b1 ≠ 0 then .utf16Be else .utf32Be)
      else if b1 = 0 then (if b2 ≠ 0 ∨ b3 ≠ 0 then .utf16Le else .utf32Le)
      else .utf8
    | _ => .utf8

def decodeJson (J : JsonRuntime) (b : Bytes) : Py Text :=
  match detectEncoding b, utf8Decode b with
  | .utf8, some t => pure t
  | enc, _ => J.decode enc b

/-! ## Reading a text -/

inductive ReadError where
  | malformed
  | digits (n : Nat)
  deriving DecidableEq

def skipWs : Text → Text
  | [] => []
  | c :: s => if c.val = 32 ∨ c.val = 9 ∨ c.val = 10 ∨ c.val = 13 then skipWs s else c :: s

def hexOf (c : CodePoint) : Option Nat :=
  if 48 ≤ c.val ∧ c.val ≤ 57 then some (c.val - 48)
  else if 97 ≤ c.val ∧ c.val ≤ 102 then some (c.val - 87)
  else if 65 ≤ c.val ∧ c.val ≤ 70 then some (c.val - 55)
  else none

/-- Four hexadecimal digits. -/
def readHex4 : Text → Except ReadError (Nat × Text)
  | a :: b :: c :: d :: rest =>
    match hexOf a, hexOf b, hexOf c, hexOf d with
    | some a, some b, some c, some d => .ok (((a * 16 + b) * 16 + c) * 16 + d, rest)
    | _, _, _, _ => .error .malformed
  | _ => .error .malformed

/-- What stands behind a `\u` that a text begins with. -/
def escapeNext : Text → Option Text
  | b :: u :: rest => if b.val = 92 ∧ u.val = 117 then some rest else none
  | _ => none

/-- The character of a `\u` escape, after the `u`: a high half takes a low half with it. -/
def readUnicode (s : Text) : Except ReadError (CodePoint × Text) := do
  let (u, rest) ← readHex4 s
  if 0xD800 ≤ u ∧ u ≤ 0xDBFF then
    match escapeNext rest with
    | some rest' => do
      let (l, rest'') ← readHex4 rest'
      if 0xDC00 ≤ l ∧ l ≤ 0xDFFF then
        pure (Fin.ofNat _ (0x10000 + (u - 0xD800) * 1024 + (l - 0xDC00)), rest'')
      else pure (Fin.ofNat _ u, rest)
    | none => pure (Fin.ofNat _ u, rest)
  else pure (Fin.ofNat _ u, rest)

def shortEscape (c : CodePoint) : Option CodePoint :=
  match c.val with
  | 34 => some 34
  | 92 => some 92
  | 47 => some 47
  | 98 => some 8
  | 102 => some 12
  | 110 => some 10
  | 114 => some 13
  | 116 => some 9
  | _ => none

/-- `scanstring`, after the opening quote. -/
def scanString : Nat → Text → Except ReadError (Text × Text)
  | 0, _ => .error .malformed
  | _, [] => .error .malformed
  | fuel + 1, c :: s =>
    if c.val = 34 then .ok ([], s)
    else if c.val = 92 then
      match s with
      | [] => .error .malformed
      | e :: rest =>
        if e.val = 117 then do
          let (u, rest) ← readUnicode rest
          let (t, rest) ← scanString fuel rest
          pure (u :: t, rest)
        else
          match shortEscape e with
          | none => .error .malformed
          | some u => do
            let (t, rest) ← scanString fuel rest
            pure (u :: t, rest)
    else if c.val < 32 then .error .malformed
    else do
      let (t, rest) ← scanString fuel s
      pure (c :: t, rest)

def isDigit (c : CodePoint) : Bool := decide (IsDigit c)

/-- The digits a text begins with, and the rest. -/
def spanDigits (s : Text) : Text × Text := (s.takeWhile isDigit, s.dropWhile isDigit)

/-- `int(digits)`. -/
def digitsValue (ds : Text) : Nat := ds.foldl (fun n c => n * 10 + (c.val - 48)) 0

/-- The fraction, when there is one. -/
def readFraction (s : Text) : Text × Text :=
  match s with
  | 46 :: rest => if (spanDigits rest).1 = [] then ([], s) else
      (46 :: (spanDigits rest).1, (spanDigits rest).2)
  | _ => ([], s)

/-- The exponent, when there is one. -/
def readExponent (s : Text) : Text × Text :=
  match s with
  | c :: rest =>
    if c.val = 101 ∨ c.val = 69 then
      let (sign, rest) : Text × Text := match rest with
        | 43 :: rest => ([43], rest)
        | 45 :: rest => ([45], rest)
        | _ => ([], rest)
      if (spanDigits rest).1 = [] then ([], s)
      else (c :: sign ++ (spanDigits rest).1, (spanDigits rest).2)
    else ([], s)
  | [] => ([], s)

/-- The sign, when there is one. -/
def readSign (s : Text) : Bool × Text :=
  match s with
  | 45 :: rest => (true, rest)
  | _ => (false, s)

/-- The digits of the integer part: a zero, or digits that begin with another one. -/
def readInteger (s : Text) : Option (Text × Text) :=
  match s with
  | 48 :: rest => some ([48], rest)
  | _ => if (spanDigits s).1 = [] then none else some (spanDigits s)

/-- `_match_number`. -/
def scanNumber (J : JsonRuntime) (s : Text) : Except ReadError (Value × Text) :=
  let (neg, s) := readSign s
  match readInteger s with
  | none => .error .malformed
  | some (ds, rest) =>
    let (frac, rest) := readFraction rest
    let (exp, rest) := readExponent rest
    if frac = [] ∧ exp = [] then
      if 4300 < ds.length then .error (.digits ds.length)
      else .ok (.num (.int (if neg then -(digitsValue ds : Int) else digitsValue ds)), rest)
    else
      let literal := (if neg then [45] else []) ++ ds ++ frac ++ exp
      .ok (.num (.float (J.parseFloat literal)), rest)

/-- A word that stands for a value. -/
def scanWord (word : String) (v : Value) (s : Text) : Except ReadError (Value × Text) :=
  if (text word).isPrefixOf s then .ok (v, s.drop (text word).length) else .error .malformed

mutual

/-- `scan_once`. -/
def scanOnce (J : JsonRuntime) : Nat → Text → Except ReadError (Value × Text)
  | 0, _ => .error .malformed
  | _, [] => .error .malformed
  | fuel + 1, c :: s =>
    if c.val = 34 then do
      let (t, rest) ← scanString s.length.succ s
      pure (.str t, rest)
    else if c.val = 123 then
      match skipWs s with
      | 125 :: rest => .ok (.obj [], rest)
      | rest => scanMembers J fuel [] rest
    else if c.val = 91 then
      match skipWs s with
      | 93 :: rest => .ok (.arr [], rest)
      | rest => scanItems J fuel [] rest
    else if c.val = 110 then scanWord "null" .null (c :: s)
    else if c.val = 116 then scanWord "true" (.bool true) (c :: s)
    else if c.val = 102 then scanWord "false" (.bool false) (c :: s)
    else if c.val = 78 then scanWord "NaN" (.num (.float 0x7FF8000000000000)) (c :: s)
    else if c.val = 73 then scanWord "Infinity" (.num (.float 0x7FF0000000000000)) (c :: s)
    else if (text "-Infinity").isPrefixOf (c :: s) then
      scanWord "-Infinity" (.num (.float 0xFFF0000000000000)) (c :: s)
    else scanNumber J (c :: s)

/-- `JSONArray`, after the bracket and whitespace, with the items so far. -/
def scanItems (J : JsonRuntime) : Nat → List Value → Text → Except ReadError (Value × Text)
  | 0, _, _ => .error .malformed
  | fuel + 1, acc, s => do
    let (v, rest) ← scanOnce J fuel s
    match skipWs rest with
    | 44 :: rest => scanItems J fuel (acc ++ [v]) (skipWs rest)
    | 93 :: rest => .ok (.arr (acc ++ [v]), rest)
    | _ => .error .malformed

/-- `JSONObject`, after the brace and whitespace, with the members so far. -/
def scanMembers (J : JsonRuntime) : Nat → List (Text × Value) → Text →
    Except ReadError (Value × Text)
  | 0, _, _ => .error .malformed
  | fuel + 1, acc, s =>
    match s with
    | 34 :: s => do
      let (k, rest) ← scanString s.length.succ s
      match skipWs rest with
      | 58 :: rest => do
        let (v, rest) ← scanOnce J fuel (skipWs rest)
        match skipWs rest with
        | 44 :: rest => scanMembers J fuel (Dict.setMembers acc k v) (skipWs rest)
        | 125 :: rest => .ok (.obj (Dict.setMembers acc k v), rest)
        | _ => .error .malformed
      | _ => .error .malformed
    | _ => .error .malformed

end

/-- The text of the `ValueError` for an integer with too many digits. -/
def digitsExc (n : Nat) : Exc :=
  ⟨.valueError, text "Exceeds the limit (4300 digits) for integer string conversion: value has " ++
    decimal n ++ text " digits; use sys.set_int_max_str_digits() to increase the limit"⟩

/-- `JSONDecoder.decode`. Every value takes at least one character, so twice the length is
fuel enough. -/
def decodeText (J : JsonRuntime) (s : Text) : Py Value :=
  match scanOnce J (2 * s.length + 2) (skipWs s) with
  | .error (.digits n) => throw (digitsExc n)
  | .error .malformed => throw ⟨.jsonDecodeError, J.syntaxText s⟩
  | .ok (v, rest) => if skipWs rest = [] then pure v else throw ⟨.jsonDecodeError, J.syntaxText s⟩

/-- `json.loads` of a byte string. -/
def jsonLoads (J : JsonRuntime) (b : Bytes) : Py Value := do
  let s ← decodeJson J b
  decodeText J s

theorem jsonLoads_error {J : JsonRuntime}
    (hdecode : ∀ enc b, Raises .unicodeDecodeError (J.decode enc b)) {b : Bytes} {e : Exc}
    (h : jsonLoads J b = .error e) : e.cls.isA .valueError = true := by
  have hread : ∀ e, decodeJson J b = .error e → e.cls.isA .valueError = true := by
    intro e he
    rw [decodeJson] at he
    split at he
    · cases he
    · rw [hdecode _ _ e he]
      rfl
  rw [jsonLoads] at h
  cases hs : decodeJson J b with
  | error e' =>
    rw [hs, error_bind] at h
    rw [← Except.error.inj h]
    exact hread e' hs
  | ok s =>
    rw [hs, ok_bind, decodeText] at h
    split at h
    · rw [← Except.error.inj h]
      rfl
    · rw [← Except.error.inj h]
      rfl
    · split_ifs at h
      · cases h
      · rw [← Except.error.inj h]
        rfl

end Shadownet.Python
