import Shadownet.Python.Decimal
import Shadownet.Python.Dumps

/-!
# USDC amounts of the Hermes plugin

`to_atomic` of `_avm.py`, and the amount that `settle_usdc` puts into the payment requirements.
The product with a million is rounded to the context and then cut to an integer, and neither
step says so.

* `toAtomic_exact_iff`: the texts for which the amount is the one that was agreed.
-/

namespace Shadownet.Hermes

open Foundation Python

/-! ## `to_atomic` -/

inductive AvmError where
  | settlementError (msg : Text)
  | arithmetic (e : DecimalError)
  | other (e : Exc)
  deriving DecidableEq

def usdcDecimals : Nat := 6

/-- What the plugin takes from the interpreter: `repr(s)`, and `unicodedata.decimal` of a
character that is not ASCII. -/
structure AvmRuntime where
  reprStr : Text → Text
  decimalDigit : CodePoint → Option Nat

/-- `to_atomic`. -/
def toAtomic (R : AvmRuntime) (amountUsdc : Text) : Except AvmError Int :=
  match decimalOf R.decimalDigit amountUsdc with
  | none => throw (.settlementError (text "invalid USDC amount: " ++ R.reprStr amountUsdc))
  | some value => do
    let nonpositive ← value.leZero.mapError .arithmetic
    if nonpositive then
      throw (.settlementError (text "USDC amount must be positive: " ++ R.reprStr amountUsdc))
    else do
      let product ← (value.mulNat (10 ^ usdcDecimals)).mapError .arithmetic
      product.toInt.mapError .arithmetic

/-- The amount in the requirements that `settle_usdc` builds: `str(amount)`. -/
def requirementsAmount (R : AvmRuntime) (amountUsdc : Text) : Except AvmError Text := do
  let amount ← toAtomic R amountUsdc
  (intRepr amount).mapError .other

/-! ## Exact amounts -/

/-- The amount a text denotes. -/
def Denotes (R : AvmRuntime) (amountUsdc : Text) (v : ℚ) : Prop :=
  ∃ d, decimalOf R.decimalDigit amountUsdc = some d ∧ d.value = some v

/-- Either `SettlementError` or the amount itself. -/
structure SettledExactly (R : AvmRuntime) (amountUsdc : Text) : Prop where
  atomic : Yields (fun n : Int => 0 < n ∧ ∃ v, Denotes R amountUsdc v ∧ (n : ℚ) = v * 10 ^ 6)
    (fun e => ∃ msg, e = .settlementError msg) (toAtomic R amountUsdc)
  refused : (∀ n : Nat, 0 < n → ∀ v, Denotes R amountUsdc v → (n : ℚ) ≠ v * 10 ^ 6) →
    ∃ msg, toAtomic R amountUsdc = .error (.settlementError msg)
  settled : ∀ t, requirementsAmount R amountUsdc = .ok t →
    ∃ (n : Int) (v : ℚ), t = decimal n ∧ 0 < n ∧ Denotes R amountUsdc v ∧ (n : ℚ) = v * 10 ^ 6

/-- The digits a number of the context may have, its zeros included. -/
def maxDigits : Nat := 1000000

/-- A positive amount is a number of atomic units below `10 ^ 1000000` with at most 28 digits
before its last zeros. -/
def Atomic (coeff : Nat) (exp : Int) : Prop :=
  ∃ m : Nat, (m : ℚ) = coeff * 10 ^ exp * 10 ^ 6 ∧ m < 10 ^ maxDigits ∧
    ∃ a k, m = a * 10 ^ k ∧ a < 10 ^ 28

/-- The texts that are converted exactly or refused. -/
def Convertible (R : AvmRuntime) (amountUsdc : Text) : Prop :=
  match decimalOf R.decimalDigit amountUsdc with
  | none => True
  | some (.finite neg coeff exp) => neg = true ∨ coeff = 0 ∨ Atomic coeff exp
  | some (.infinity neg) => neg = true
  | some (.nan _ _ _) => False

theorem settledExactly_iff_atomic {R : AvmRuntime} {amountUsdc : Text} :
    SettledExactly R amountUsdc ↔
      Yields (fun n : Int => 0 < n ∧ ∃ v, Denotes R amountUsdc v ∧ (n : ℚ) = v * 10 ^ 6)
        (fun e => ∃ msg, e = .settlementError msg) (toAtomic R amountUsdc) := by
  refine ⟨fun h => h.atomic, fun h => ⟨h, fun hnone => ?_, fun t ht => ?_⟩⟩
  · cases hr : toAtomic R amountUsdc with
    | error e =>
      rw [hr] at h
      obtain ⟨msg, rfl⟩ := h
      exact ⟨msg, rfl⟩
    | ok n =>
      rw [hr] at h
      obtain ⟨hpos, v, hv, hn⟩ := h
      have hcast : ((n.toNat : Nat) : ℚ) = n := by
        rw [← Int.cast_natCast, Int.toNat_of_nonneg hpos.le]
      exact absurd (hcast.trans hn) (hnone n.toNat (by omega) v hv)
  · obtain ⟨n, hn, hrepr⟩ := bind_eq_ok.mp ht
    rw [hn] at h
    obtain ⟨hpos, v, hv, hval⟩ := h
    rw [mapError_eq_ok, intRepr, guard_eq_ok, pure_eq_ok] at hrepr
    exact ⟨n, v, hrepr.2.symm, hpos, hv, hval⟩

theorem toAtomic_positive {R : AvmRuntime} {amountUsdc : Text} {coeff : Nat} {exp : Int}
    (hd : decimalOf R.decimalDigit amountUsdc = some (.finite false coeff exp)) (hc : coeff ≠ 0) :
    toAtomic R amountUsdc = match Decimal.fix defaultContext (coeff * 10 ^ 6) exp with
      | none => .error (.arithmetic .overflow)
      | some r => .ok (Decimal.trunc r) := by
  have hle : (PyDecimal.finite false coeff exp).leZero = .ok false := by
    rw [PyDecimal.leZero, beq_eq_false_iff_ne.mpr hc]
    rfl
  have hmul : (PyDecimal.finite false coeff exp).mulNat (10 ^ usdcDecimals) =
      match Decimal.fix defaultContext (coeff * 10 ^ 6) exp with
      | none => .error .overflow
      | some r => .ok (.finite false r.1 r.2) := by
    rw [PyDecimal.mulNat, usdcDecimals]
    generalize Decimal.fix defaultContext (coeff * 10 ^ 6) exp = fixed
    cases fixed <;> rfl
  rw [toAtomic, hd]
  dsimp only
  rw [hle, hmul]
  generalize Decimal.fix defaultContext (coeff * 10 ^ 6) exp = fixed
  cases fixed <;> rfl

/-- The texts for which the amount is the one that was agreed. -/
theorem toAtomic_exact_iff (R : AvmRuntime) (amountUsdc : Text) :
    SettledExactly R amountUsdc ↔ Convertible R amountUsdc := by
  rw [settledExactly_iff_atomic, Convertible]
  cases hd : decimalOf R.decimalDigit amountUsdc with
  | none =>
    refine iff_of_true ?_ trivial
    rw [toAtomic, hd]
    exact ⟨_, rfl⟩
  | some d =>
    cases d with
    | nan neg signaling payload =>
      refine iff_of_false (fun h => ?_) id
      rw [toAtomic, hd] at h
      obtain ⟨msg, hmsg⟩ := h
      cases hmsg
    | infinity neg =>
      rw [toAtomic, hd]
      cases neg with
      | true => exact iff_of_true ⟨_, rfl⟩ rfl
      | false =>
        refine iff_of_false ?_ Bool.false_ne_true
        rintro ⟨msg, hmsg⟩
        cases hmsg
    | finite neg coeff exp =>
      by_cases hneg : neg = true ∨ coeff = 0
      · refine iff_of_true ?_ (hneg.imp_right .inl)
        have hle : (neg || coeff == 0) = true := by simpa using hneg
        rw [toAtomic, hd]
        simp only [PyDecimal.leZero, hle]
        exact ⟨_, rfl⟩
      · obtain ⟨hpos, hc⟩ := not_or.mp hneg
        obtain rfl := Bool.eq_false_of_not_eq_true hpos
        have hc' : coeff * 10 ^ 6 ≠ 0 := Nat.mul_ne_zero hc (by norm_num)
        have hdenotes : ∀ v, Denotes R amountUsdc v ↔ v = coeff * 10 ^ exp := by
          intro v
          simp only [Denotes, hd, Option.some.injEq, exists_eq_left', PyDecimal.value,
            Bool.false_eq_true, if_false, one_mul]
          exact eq_comm
        have hvalue : ∀ m : Nat, Decimal.IsNat (coeff * 10 ^ 6) exp m ↔
            (m : ℚ) = coeff * 10 ^ exp * 10 ^ 6 := by
          intro m
          rw [Decimal.isNat_iff]
          rw [Nat.cast_mul, Nat.cast_pow, Nat.cast_ofNat, mul_right_comm]
        rw [toAtomic_positive hd hc]
        have hexact := @Decimal.trunc_fix_exact_iff defaultContext _ exp hc'
        have hbound : (defaultContext.emax + 1).toNat = maxDigits := by decide
        simp only [hvalue, hbound] at hexact
        have hcond : (false = true ∨ coeff = 0 ∨ Atomic coeff exp) ↔ Atomic coeff exp := by
          simp [hc]
        refine Iff.trans ?_ hcond.symm
        refine Iff.trans ?_ hexact
        cases hfix : Decimal.fix defaultContext (coeff * 10 ^ 6) exp with
        | none =>
          refine iff_of_false ?_ ?_
          · rintro ⟨msg, hmsg⟩
            cases hmsg
          · rintro ⟨r, hr, -⟩
            cases hr
        | some r =>
          constructor
          · rintro ⟨-, v, hv, hn⟩
            rw [(hdenotes v).mp hv] at hn
            exact ⟨r, rfl, (Int.cast_natCast _).symm.trans hn⟩
          · rintro ⟨_, ⟨⟩, hn⟩
            have htrunc : Decimal.trunc r ≠ 0 := ((hvalue _).mpr hn).ne_zero hc'
            refine ⟨by omega, _, (hdenotes _).mpr rfl, ?_⟩
            exact (Int.cast_natCast _).trans hn

/-- The interpreter on plain ASCII texts. -/
def plainAvm : AvmRuntime := ⟨fun s => 39 :: (s ++ [39]), fun _ => none⟩

/-- A tenth of an atomic unit is settled as zero, `NaN` and `Infinity` raise other exceptions,
and the 29th digit is rounded. -/
theorem toAtomic_not_exact :
    toAtomic plainAvm (text "0.0000001") = .ok 0 ∧
    toAtomic plainAvm (text "NaN") = .error (.arithmetic .invalidOperation) ∧
    toAtomic plainAvm (text "Infinity") =
      .error (.arithmetic (.overflowError (text "cannot convert Infinity to integer"))) ∧
    toAtomic plainAvm (text "12345678901234567890123.456789") =
      .ok 12345678901234567890123456790 ∧
    ¬ SettledExactly plainAvm (text "0.0000001") := by
  have hzero : toAtomic plainAvm (text "0.0000001") = .ok 0 := by decide
  refine ⟨hzero, by decide, by decide, by decide, fun h => ?_⟩
  have hatomic := h.atomic
  rw [hzero] at hatomic
  exact absurd hatomic.1 (by decide)

end Shadownet.Hermes
