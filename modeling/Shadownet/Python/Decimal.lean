import Shadownet.Foundation.Decimal
import Shadownet.Python.Crypto
import Shadownet.Python.Json

/-!
# `decimal`

`Decimal(s)` of a `str`, and the operations on it that round: the coefficient and the exponent
of the text are kept as they are, and only arithmetic uses the context.
-/

namespace Shadownet.Python

open Foundation

inductive PyDecimal where
  | finite (neg : Bool) (coeff : Nat) (exp : Int)
  | infinity (neg : Bool)
  | nan (neg signaling : Bool) (payload : Nat)
  deriving DecidableEq

namespace PyDecimal

/-- What a number denotes. -/
def value : PyDecimal → Option ℚ
  | finite neg coeff exp => some ((if neg then -1 else 1) * (coeff * 10 ^ exp))
  | _ => none

end PyDecimal

/-- The exceptions of the operations below. -/
inductive DecimalError where
  | invalidOperation
  | overflow
  | overflowError (msg : Text)
  | valueError (msg : Text)
  deriving DecidableEq

/-! ## `Decimal(s)` -/

/-- `numeric_as_ascii` after whitespace at the ends is gone: no underscores, and digits of every
script as ASCII ones. -/
def numericAsAscii (decimalDigit : CodePoint → Option Nat) : Text → Option Text
  | [] => some []
  | c :: s =>
    if c.val = 95 then numericAsAscii decimalDigit s
    else if c.IsAscii then (numericAsAscii decimalDigit s).map (c :: ·)
    else if isSpace c then (numericAsAscii decimalDigit s).map (32 :: ·)
    else
      match decimalDigit c with
      | none => none
      | some d => (numericAsAscii decimalDigit s).map (Fin.ofNat 0x110000 (48 + d) :: ·)

/-- A sign, when there is one. -/
def decimalSign (s : Text) : Bool × Text :=
  match s with
  | 45 :: rest => (true, rest)
  | 43 :: rest => (false, rest)
  | _ => (false, s)

/-- The exponent part and nothing behind it. -/
def decimalExponent (s : Text) : Option Int :=
  match s with
  | [] => some 0
  | c :: rest =>
    let (neg, ds) := decimalSign rest
    if (c.val = 101 ∨ c.val = 69) ∧ ds ≠ [] ∧ ds.all isDigit = true then
      some (if neg then -(digitsValue ds : Int) else digitsValue ds)
    else none

/-- The digits behind a point, when there is one. -/
def decimalFraction (s : Text) : Text × Text :=
  match s with
  | 46 :: rest => spanDigits rest
  | _ => ([], s)

def decimalNumber (neg : Bool) (s : Text) : Option PyDecimal :=
  let (int, rest) := spanDigits s
  let (frac, rest) := decimalFraction rest
  if int = [] ∧ frac = [] then none
  else (decimalExponent rest).map fun e =>
    .finite neg (digitsValue (int ++ frac)) (e - frac.length)

def decimalNan (neg signaling : Bool) (payload : Text) : Option PyDecimal :=
  if payload.all isDigit = true then some (.nan neg signaling (digitsValue payload)) else none

/-- The grammar of numeric strings. -/
def readDecimal (s : Text) : Option PyDecimal :=
  let (neg, body) := decimalSign s
  let word := body.map lowerAscii
  if word = text "inf" ∨ word = text "infinity" then some (.infinity neg)
  else if (text "nan").isPrefixOf word then decimalNan neg false (word.drop 3)
  else if (text "snan").isPrefixOf word then decimalNan neg true (word.drop 4)
  else decimalNumber neg body

/-- `MAX_PREC` and `MAX_EMAX`. -/
def decimalMax : Nat := 999999999999999999

/-- Whether a number is exact in the largest context. -/
def exactDecimal : PyDecimal → Bool
  | .finite _ coeff exp => decide (Decimal.numDigits coeff ≤ decimalMax ∧
      Decimal.numDigits coeff + exp - 1 ≤ (decimalMax : Int) ∧ -2 * (decimalMax : Int) + 1 ≤ exp)
  | .infinity _ => true
  | .nan _ _ payload => decide (Decimal.numDigits payload ≤ decimalMax)

/-- `Decimal(s)`; `none` is `InvalidOperation`. -/
def decimalOf (decimalDigit : CodePoint → Option Nat) (s : Text) : Option PyDecimal :=
  ((numericAsAscii decimalDigit (strip s)).bind readDecimal).filter exactDecimal

/-! ## Operations -/

/-- `DefaultContext`; it traps `InvalidOperation` and `Overflow`. -/
def defaultContext : Decimal.Context where
  prec := 28
  emin := -999999
  emax := 999999
  prec_pos := by decide
  emin_nonpos := by decide
  emax_nonneg := by decide

namespace PyDecimal

/-- `d <= 0`. -/
def leZero : PyDecimal → Except DecimalError Bool
  | finite neg coeff _ => pure (neg || coeff == 0)
  | infinity neg => pure neg
  | nan _ _ _ => throw .invalidOperation

/-- `d * n`. -/
def mulNat (d : PyDecimal) (n : Nat) : Except DecimalError PyDecimal :=
  match d with
  | finite neg coeff exp =>
    match Decimal.fix defaultContext (coeff * n) exp with
    | none => throw .overflow
    | some (coeff, exp) => pure (finite neg coeff exp)
  | infinity neg => if n = 0 then throw .invalidOperation else pure (infinity neg)
  | nan neg signaling payload =>
    if signaling then throw .invalidOperation else pure (nan neg false payload)

/-- `int(d)`. -/
def toInt : PyDecimal → Except DecimalError Int
  | finite neg coeff exp =>
    pure (if neg then -(Decimal.trunc (coeff, exp) : Int) else Decimal.trunc (coeff, exp))
  | infinity _ => throw (.overflowError (text "cannot convert Infinity to integer"))
  | nan _ _ _ => throw (.valueError (text "cannot convert NaN to integer"))

end PyDecimal

end Shadownet.Python
