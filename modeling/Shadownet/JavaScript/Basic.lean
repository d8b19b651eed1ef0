import Shadownet.Foundation.Document
import Shadownet.Foundation.Recency

/-!
# Pieces of JavaScript and of Node

A string is the list of its UTF-16 units. `JSON.parse`, `JSON.stringify`, the text of a
number and HMAC-SHA-256 come with the runtime; the conversions around them, `parseInt` and
`Map` are defined here.
-/

namespace Shadownet.JavaScript

open Foundation

abbrev JsString := List UInt16

/-- The units of a Lean string literal. -/
def js (s : String) : JsString := (utf16 (text s)).map UInt16.ofNat

/-- A value `JSON.parse` returns, over the numbers `ν`. -/
abbrev JsValue (ν : Type) := Json JsString ν

/-- What the host provides, over the numbers `ν`. -/
structure Runtime (ν : Type) where
  /-- `createHmac("sha256", secret).update(body).digest("hex")`. -/
  hmacSha256Hex : JsString → Bytes → JsString
  /-- `JSON.parse`, or `none` when it throws. -/
  jsonParse : JsString → Option (JsValue ν)
  /-- `JSON.stringify` of a value without `undefined`. -/
  jsonStringify : JsValue ν → JsString
  /-- `String(n)`. -/
  numberToString : ν → JsString
  /-- The number of an integer. -/
  ofInt : Int → ν

/-! ## Strings -/

/-- The code points of a string: a pair of halves is one, a lone half stays. -/
def codePoints (s : JsString) : Text :=
  joinPairs (s.map fun u => Fin.ofNat 0x110000 u.toNat)

/-- `Buffer.from(s, "utf8")`: a lone half becomes U+FFFD. -/
def bufferFrom (s : JsString) : Bytes :=
  utf8 ((codePoints s).map fun c => if c.IsSurrogate then 0xFFFD else c)

/-- Whitespace and line ends, as `parseInt` skips them. -/
def isSpace (u : UInt16) : Bool :=
  (9 ≤ u.toNat && u.toNat ≤ 13) || u.toNat == 32 || u.toNat == 0xA0 || u.toNat == 0x1680 ||
    (0x2000 ≤ u.toNat && u.toNat ≤ 0x200A) || u.toNat == 0x2028 || u.toNat == 0x2029 ||
    u.toNat == 0x202F || u.toNat == 0x205F || u.toNat == 0x3000 || u.toNat == 0xFEFF

def isDigit (u : UInt16) : Bool := 48 ≤ u.toNat && u.toNat ≤ 57

/-- The digits a text starts with, as a number, or `none` for `NaN`. -/
def leadingDigits (s : JsString) : Option Nat :=
  match s.takeWhile isDigit with
  | [] => none
  | ds => some (ds.foldl (fun n u => n * 10 + (u.toNat - 48)) 0)

/-- `Number.parseInt(s, 10)` before it is rounded to a number, or `none` for `NaN`. -/
def parseInt (s : JsString) : Option Int :=
  match s.dropWhile isSpace with
  | 43 :: rest => (leadingDigits rest).map Int.ofNat
  | 45 :: rest => (leadingDigits rest).map fun n => -Int.ofNat n
  | s => (leadingDigits s).map Int.ofNat

/-- Integers from here on are rounded to `Infinity`. -/
def infinityFrom : Nat := 2 ^ 1024 - 2 ^ 970

/-- `Number.isFinite` of a parsed integer. -/
def isFinite (n : Option Int) : Option Int := n.filter fun n => decide (n.natAbs < infinityFrom)

/-- A string that counts as true: not empty. -/
def truthy (s : Option JsString) : Option JsString := s.filter fun s => !s.isEmpty

/-! ## Values -/

/-- `v.name` and `v["name"]` for a name no prototype has, or `none` for `undefined`. A value
that is no object has no such property. -/
def property {ν : Type} (v : JsValue ν) (name : JsString) : Option (JsValue ν) :=
  match v with
  | .obj members => members.lookup name
  | _ => none

/-- A value that is a string. -/
def asString {ν : Type} : Option (JsValue ν) → Option JsString
  | some (.str s) => some s
  | _ => none

section
variable {ν : Type} (rt : Runtime ν)

mutual

/-- `String(v)`, or `none` for a `TypeError`: an own member `toString` hides the method, is
not callable itself, and `valueOf` gives the object back. -/
def toText : JsValue ν → Option JsString
  | .null => some (js "null")
  | .bool true => some (js "true")
  | .bool false => some (js "false")
  | .num n => some (rt.numberToString n)
  | .str s => some s
  | .arr items => (itemTexts items).map (List.intercalate (js ","))
  | .obj members =>
    if (members.lookup (js "toString")).isSome then none else some (js "[object Object]")

/-- The texts `Array.prototype.join` puts together: nothing stands for `null`. -/
def itemTexts : List (JsValue ν) → Option (List JsString)
  | [] => some []
  | .null :: items => (itemTexts items).map ([] :: ·)
  | item :: items => (toText item).bind fun s => (itemTexts items).map (s :: ·)

end

/-- A value in a template literal. -/
def template : Option (JsValue ν) → Option JsString
  | none => some (js "undefined")
  | some v => toText rt v

end

/-! ## `Map`

The entries of a `Map` stand in the order in which their keys were first set; `delete` is
`forget` of the library and `get` is `List.lookup`. -/

/-- `m.set(k, v)`. -/
def mapSet {κ α : Type} [DecidableEq κ] (k : κ) (v : α) (m : List (κ × α)) : List (κ × α) :=
  if k ∈ m.map Prod.fst then m.map fun e => if e.1 = k then (k, v) else e else m ++ [(k, v)]

/-! ## Headers of a request -/

/-- `req.headers[name]`: `string | string[] | undefined`. -/
inductive HeaderValue where
  | undefined
  | single (value : JsString)
  | many (values : List JsString)
  deriving DecidableEq

end Shadownet.JavaScript
