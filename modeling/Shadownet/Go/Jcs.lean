import Mathlib.Data.List.Sort
import Shadownet.Foundation.Merge
import Shadownet.Go.Json

/-!
# The canonical JSON encoder of the Go code

`core/internal/jcs`. A map is the list of its members; `encodeObject` sorts them by the
UTF-16 code units of their names.
-/

namespace Shadownet.Go

open Foundation

/-- `utf16Less(b, a)` negated: the order of member names. -/
def utf16Le (a b : Bytes) : Prop := ¬ utf16 (runes b) < utf16 (runes a)

instance : DecidableRel utf16Le := fun a b =>
  inferInstanceAs (Decidable (¬ utf16 (runes b) < utf16 (runes a)))

/-- One character of `encodeString`. -/
def jcsRune (c : CodePoint) : Bytes :=
  let hex (n : Nat) : UInt8 := UInt8.ofNat (if n < 10 then 48 + n else 87 + n)
  if c.val = 34 then bytes "\\\"" else if c.val = 92 then bytes "\\\\"
  else if c.val = 8 then bytes "\\b" else if c.val = 12 then bytes "\\f"
  else if c.val = 10 then bytes "\\n" else if c.val = 13 then bytes "\\r"
  else if c.val = 9 then bytes "\\t"
  else if c.val < 32 then bytes "\\u00" ++ [hex (c.val / 16), hex (c.val % 16)]
  else utf8Char c

def jcsString (s : Bytes) : GoM Bytes :=
  match utf8Decode s with
  | none =>
    throw (bytes "jcs: invalid input: input string is not valid UTF-8 (lone surrogate or " ++
      bytes "malformed sequence)")
  | some t => pure (0x22 :: t.flatMap jcsRune ++ [0x22])

/-- `isIntegerLiteral`. -/
def isIntegerLiteral (s : Bytes) : Bool :=
  match s with
  | [] => false
  | b :: bs => if b == 0x2D then bs ≠ [] && bs.all isDigit else s.all isDigit

/-- `encodeNumber`. A literal that `ParseInt` accepts is written verbatim. -/
def jcsNumber (G : Runtime) (lit : Bytes) : GoM Bytes :=
  if lit = [] then throw (bytes "jcs: invalid input: empty number literal")
  else if lit.any fun b => b == 0x2E || b == 0x65 || b == 0x45 then
    throw (bytes "jcs: float canonicalization is intentionally unsupported")
  else if (parseInt64 lit).isNone ∧ ¬ isIntegerLiteral lit then
    throw (bytes "jcs: invalid input: malformed integer " ++ G.quote lit ++
      bytes ": strconv.ParseInt: parsing " ++ G.quote lit ++ bytes ": invalid syntax")
  else pure lit

/-- The texts of items or members joined by commas, or the first error. -/
def joinComma : List (GoM Bytes) → GoM Bytes
  | [] => pure []
  | [x] => x
  | x :: xs => do
    let a ← x
    let b ← joinComma xs
    pure (a ++ 0x2C :: b)

/-- `encodeString(k)`, a colon, and the value. -/
def jcsMember (m : Bytes × GoM Bytes) : GoM Bytes := do
  let k ← jcsString m.1
  let v ← m.2
  pure (k ++ 0x3A :: v)

mutual

/-- `encode`. -/
def jcsEncode (G : Runtime) : JsonDoc → GoM Bytes
  | .null => pure (bytes "null")
  | .bool b => pure (bytes (if b then "true" else "false"))
  | .num lit => jcsNumber G lit
  | .str s => jcsString s
  | .arr items => do
    let inner ← joinComma (jcsItems G items)
    pure (0x5B :: inner ++ [0x5D])
  | .obj members => do
    let sorted := (jcsMembers G members).insertionSort fun a b => utf16Le a.1 b.1
    let inner ← joinComma (sorted.map jcsMember)
    pure (0x7B :: inner ++ [0x7D])

def jcsItems (G : Runtime) : List JsonDoc → List (GoM Bytes)
  | [] => []
  | v :: vs => jcsEncode G v :: jcsItems G vs

def jcsMembers (G : Runtime) : List (Bytes × JsonDoc) → List (Bytes × GoM Bytes)
  | [] => []
  | (k, v) :: ms => (k, jcsEncode G v) :: jcsMembers G ms

end

/-- `Canonicalize`. -/
def canonicalize (G : Runtime) (v : JsonDoc) : GoM Bytes := jcsEncode G v

/-- `dec.More()` before the bytes `rest`. -/
def more (rest : Bytes) : Bool :=
  match skipSpace rest with
  | [] => false
  | b :: _ => b != 0x5D && b != 0x7D

/-- `CanonicalizeBytes`. The decoder reads one value, into maps that keep the last member of
a name. -/
def canonicalizeBytes (G : Runtime) (doc : Bytes) : GoM Bytes :=
  match readValue (2 * doc.length + 2) 10000 doc with
  | none => throw (bytes "jcs: parse input: " ++ G.jsonError doc)
  | some (v, rest) =>
    if more rest then throw (bytes "jcs: invalid input: trailing JSON after document")
    else canonicalize G v.merged

end Shadownet.Go
