import Mathlib.Data.List.Sort
import Shadownet.Foundation.Json
import Shadownet.Go.Text

/-!
# `encoding/json`

`parse` is the syntax check and the reading of a document into a value: RFC 8259 with the
nesting limit of the Go decoder. Strings come out as Go strings, a lone surrogate escape
and each ill-formed byte replaced by `U+FFFD`. Numbers stay literals.

`decodeField` and its companions store a value into a Go variable the way `Unmarshal` does:
`null` changes nothing, a value of another type is an error, a member is matched with a
field by its exact name or else by case folding, and the last of several members wins.

`marshalString` and `marshalInt` write values, `marshalValue` whole ones.
-/

namespace Shadownet.Go

open Foundation

/-- A parsed document. -/
abbrev JsonDoc := Json Bytes Bytes

/-! ## Reading -/

def skipSpace : Bytes → Bytes
  | [] => []
  | b :: bs => if b == 0x20 || b == 0x09 || b == 0x0A || b == 0x0D then skipSpace bs else b :: bs

/-- The bytes of a replacement character. -/
def replacement : Bytes := [0xEF, 0xBF, 0xBD]

def hexDigit (b : UInt8) : Option Nat :=
  if 48 ≤ b.toNat ∧ b.toNat ≤ 57 then some (b.toNat - 48)
  else if 97 ≤ b.toNat ∧ b.toNat ≤ 102 then some (b.toNat - 87)
  else if 65 ≤ b.toNat ∧ b.toNat ≤ 70 then some (b.toNat - 55)
  else none

/-- Four hexadecimal digits. -/
def hex4 : Bytes → Option (Nat × Bytes)
  | a :: b :: c :: d :: rest => do
    let a ← hexDigit a
    let b ← hexDigit b
    let c ← hexDigit c
    let d ← hexDigit d
    pure (((a * 16 + b) * 16 + c) * 16 + d, rest)
  | _ => none

/-- The character a one-letter escape stands for. -/
def simpleEscape (b : UInt8) : Option UInt8 :=
  match b.toNat with
  | 34 => some 34
  | 92 => some 92
  | 47 => some 47
  | 98 => some 8
  | 102 => some 12
  | 110 => some 10
  | 114 => some 13
  | 116 => some 9
  | _ => none

/-- The second half of a surrogate pair, written as an escape. -/
def lowHalf : Bytes → Option (Nat × Bytes)
  | 0x5C :: 0x75 :: rest => (hex4 rest).filter fun r => 0xDC00 ≤ r.1 && r.1 ≤ 0xDFFF
  | _ => none

/-- A `\u` escape, after the `u`. -/
def unicodeEscape (bs : Bytes) : Option (Bytes × Bytes) := do
  let (u, rest) ← hex4 bs
  if 0xD800 ≤ u ∧ u ≤ 0xDBFF then
    match lowHalf rest with
    | some (l, rest') =>
      pure (utf8Char (Fin.ofNat _ (0x10000 + (u - 0xD800) * 1024 + (l - 0xDC00))), rest')
    | none => pure (replacement, rest)
  else if 0xDC00 ≤ u ∧ u ≤ 0xDFFF then pure (replacement, rest)
  else pure (utf8Char (Fin.ofNat _ u), rest)

/-- A string literal, after its opening quote. -/
def readString : Nat → Bytes → Option (Bytes × Bytes)
  | 0, _ => none
  | _, [] => none
  | fuel + 1, b :: bs =>
    if b == 0x22 then some ([], bs)
    else if b == 0x5C then
      match bs with
      | [] => none
      | e :: rest =>
        if e == 0x75 then do
          let (s, rest) ← unicodeEscape rest
          let (t, rest) ← readString fuel rest
          pure (s ++ t, rest)
        else do
          let c ← simpleEscape e
          let (t, rest) ← readString fuel rest
          pure (c :: t, rest)
    else if b.toNat < 0x20 then none
    else do
      let (c, rest) := nextRune b bs
      let (t, rest) ← readString fuel rest
      pure (utf8Char c ++ t, rest)

def isDigit (b : UInt8) : Bool := 48 ≤ b.toNat && b.toNat ≤ 57

/-- One or more digits. -/
def digits1 (bs : Bytes) : Option (Bytes × Bytes) :=
  let d := bs.takeWhile isDigit
  if d = [] then none else some (d, bs.drop d.length)

/-- The integer part of a number: no leading zeros. -/
def readInteger (bs : Bytes) : Option (Bytes × Bytes) :=
  match bs with
  | 0x30 :: rest => some ([0x30], rest)
  | _ => digits1 bs

/-- A part of a number that may be absent: `mark`, then what `read` reads. -/
def optionalPart (mark : UInt8 → Bool) (read : Bytes → Option (Bytes × Bytes)) (bs : Bytes) :
    Option (Bytes × Bytes) :=
  match bs with
  | b :: rest => if mark b then (read rest).map fun r => (b :: r.1, r.2) else some ([], bs)
  | [] => some ([], [])

/-- An optional sign, then digits. -/
def readExponent (bs : Bytes) : Option (Bytes × Bytes) :=
  match bs with
  | b :: rest =>
    if b == 0x2B || b == 0x2D then (digits1 rest).map fun r => (b :: r.1, r.2) else digits1 bs
  | [] => none

def readNumber (bs : Bytes) : Option (Bytes × Bytes) := do
  let (sign, bs) ← match bs with
    | 0x2D :: rest => some ([0x2D], rest)
    | _ => some ([], bs)
  let (int, bs) ← readInteger bs
  let (frac, bs) ← optionalPart (· == 0x2E) digits1 bs
  let (exp, bs) ← optionalPart (fun b => b == 0x65 || b == 0x45) readExponent bs
  pure (sign ++ int ++ frac ++ exp, bs)

/-- `true`, `false` or `null`. -/
def readLiteral (word : String) (v : JsonDoc) (bs : Bytes) : Option (JsonDoc × Bytes) :=
  if (bytes word).isPrefixOf bs then some (v, bs.drop (bytes word).length) else none

mutual

/-- A value after optional space; `depth` more levels of nesting are allowed. -/
def readValue : Nat → Nat → Bytes → Option (JsonDoc × Bytes)
  | 0, _, _ => none
  | fuel + 1, depth, bs =>
    match skipSpace bs with
    | [] => none
    | b :: rest =>
      if b == 0x22 then (readString rest.length.succ rest).map fun r => (.str r.1, r.2)
      else if b == 0x7B then
        match depth with
        | 0 => none
        | depth + 1 =>
          match skipSpace rest with
          | 0x7D :: rest => some (.obj [], rest)
          | rest => (readMembers fuel depth rest).map fun r => (.obj r.1, r.2)
      else if b == 0x5B then
        match depth with
        | 0 => none
        | depth + 1 =>
          match skipSpace rest with
          | 0x5D :: rest => some (.arr [], rest)
          | rest => (readItems fuel depth rest).map fun r => (.arr r.1, r.2)
      else if b == 0x74 then readLiteral "true" (.bool true) (b :: rest)
      else if b == 0x66 then readLiteral "false" (.bool false) (b :: rest)
      else if b == 0x6E then readLiteral "null" .null (b :: rest)
      else (readNumber (b :: rest)).map fun r => (.num r.1, r.2)

/-- Array items up to the closing bracket. -/
def readItems : Nat → Nat → Bytes → Option (List JsonDoc × Bytes)
  | 0, _, _ => none
  | fuel + 1, depth, bs => do
    let (v, bs) ← readValue fuel depth bs
    match skipSpace bs with
    | 0x2C :: rest => (readItems fuel depth rest).map fun r => (v :: r.1, r.2)
    | 0x5D :: rest => some ([v], rest)
    | _ => none

/-- Object members up to the closing brace. -/
def readMembers : Nat → Nat → Bytes → Option (List (Bytes × JsonDoc) × Bytes)
  | 0, _, _ => none
  | fuel + 1, depth, bs =>
    match skipSpace bs with
    | 0x22 :: rest => do
      let (k, bs) ← readString rest.length.succ rest
      match skipSpace bs with
      | 0x3A :: rest => do
        let (v, bs) ← readValue fuel depth rest
        match skipSpace bs with
        | 0x2C :: rest => (readMembers fuel depth rest).map fun r => ((k, v) :: r.1, r.2)
        | 0x7D :: rest => some ([(k, v)], rest)
        | _ => none
      | _ => none
    | _ => none

end

/-- A whole document. Every value takes at least one byte, so twice the length is fuel
enough. -/
def parse (data : Bytes) : Option JsonDoc :=
  match readValue (2 * data.length + 2) 10000 data with
  | some (v, rest) => if skipSpace rest = [] then some v else none
  | none => none

/-! ## Storing -/

/-- The case folding of member names, on the code points that fold to ASCII. -/
def foldRune (c : CodePoint) : CodePoint :=
  if 65 ≤ c.val ∧ c.val ≤ 90 then Fin.ofNat _ (c.val + 32)
  else if c.val = 0x212A then 107
  else if c.val = 0x17F then 115
  else c

def foldName (s : Bytes) : Text := (runes s).map foldRune

/-- The field a member is stored in: the one of that very name, else one that folds to the
same name. -/
def matchField (fields : List String) (key : Bytes) : Option String :=
  match fields.find? fun f => bytes f == key with
  | some f => some f
  | none => fields.find? fun f => foldName (bytes f) == foldName key

/-- The members stored in field `f`, in order. -/
def membersOf (fields : List String) (f : String) (ms : List (Bytes × JsonDoc)) : List JsonDoc :=
  (ms.filter fun m => matchField fields m.1 == some f).map Prod.snd

/-- Stores the members of a field one after the other. -/
def decodeField {α : Type} (fields : List String) (f : String) (store : α → JsonDoc → Option α)
    (zero : α) (ms : List (Bytes × JsonDoc)) : Option α :=
  (membersOf fields f ms).foldlM store zero

/-- Stores into a `string`. -/
def storeString (old : Bytes) : JsonDoc → Option Bytes
  | .null => some old
  | .str s => some s
  | _ => none

/-- `strconv.ParseInt(s, 10, 64)` of a number literal. -/
def parseInt64 (lit : Bytes) : Option Int :=
  let n? : Option Int := match lit with
    | [] => none
    | [0x2D] => none
    | 0x2D :: ds => (parseDigits 0 ds).map fun n => -(n : Int)
    | ds => (parseDigits 0 ds).map fun n => (n : Int)
  n?.filter fun n => -(2 ^ 63) ≤ n && n < 2 ^ 63

/-- Stores into an `int64`. -/
def storeInt (old : Int) : JsonDoc → Option Int
  | .null => some old
  | .num lit => parseInt64 lit
  | _ => none

/-! ## Writing -/

/-- One character of a marshalled string; HTML characters and line separators are escaped. -/
def marshalRune (c : CodePoint) : Bytes :=
  let hex (n : Nat) : UInt8 := UInt8.ofNat (if n < 10 then 48 + n else 87 + n)
  if c.val = 34 then bytes "\\\"" else if c.val = 92 then bytes "\\\\"
  else if c.val = 8 then bytes "\\b" else if c.val = 12 then bytes "\\f"
  else if c.val = 10 then bytes "\\n" else if c.val = 13 then bytes "\\r"
  else if c.val = 9 then bytes "\\t"
  else if c.val < 32 ∨ c.val = 60 ∨ c.val = 62 ∨ c.val = 38 then
    bytes "\\u00" ++ [hex (c.val / 16), hex (c.val % 16)]
  else if c.val = 0x2028 then bytes "\\u2028" else if c.val = 0x2029 then bytes "\\u2029"
  else utf8Char c

/-- `json.Marshal` of a string. -/
def marshalString (s : Bytes) : Bytes :=
  0x22 :: ((segments s).flatMap fun p =>
    if p.1.val = 0xFFFD ∧ p.2.length = 1 then bytes "\\ufffd" else marshalRune p.1) ++ [0x22]

/-- `json.Marshal` of an integer. -/
def marshalInt (n : Int) : Bytes := bytes (toString n)

/-- `json.Marshal` of a struct or a map, from its marshalled members in order. -/
def marshalObject (members : List (String × Bytes)) : Bytes :=
  0x7B :: ((members.map fun m => marshalString (bytes m.1) ++ 0x3A :: m.2).intersperse
    [0x2C]).flatten
    ++ [0x7D]

/-- The order of map keys: byte by byte. -/
def byteLe (a b : Bytes) : Prop := ¬ b.map UInt8.toNat < a.map UInt8.toNat

instance : DecidableRel byteLe := fun a b =>
  inferInstanceAs (Decidable (¬ b.map UInt8.toNat < a.map UInt8.toNat))

/-- A marshalled member of a map. -/
def marshalMember (m : Bytes × Bytes) : Bytes := marshalString m.1 ++ 0x3A :: m.2

mutual

/-- `json.Marshal` of maps, slices, strings, booleans and number literals. -/
def marshalValue : JsonDoc → Bytes
  | .null => bytes "null"
  | .bool b => bytes (if b then "true" else "false")
  | .num lit => lit
  | .str s => marshalString s
  | .arr items => 0x5B :: List.intercalate [0x2C] (marshalItems items) ++ [0x5D]
  | .obj members =>
    let sorted := (marshalMembers members).insertionSort fun a b => byteLe a.1 b.1
    0x7B :: List.intercalate [0x2C] (sorted.map marshalMember) ++ [0x7D]

def marshalItems : List JsonDoc → List Bytes
  | [] => []
  | v :: vs => marshalValue v :: marshalItems vs

def marshalMembers : List (Bytes × JsonDoc) → List (Bytes × Bytes)
  | [] => []
  | (k, v) :: ms => (k, marshalValue v) :: marshalMembers ms

end

end Shadownet.Go
