import Mathlib.Algebra.Order.Field.Basic
import Mathlib.Algebra.Order.Field.Rat
import Mathlib.Algebra.Order.GroupWithZero.Basic
import Mathlib.Data.Nat.Log
import Mathlib.Tactic.FieldSimp
import Mathlib.Tactic.Linarith
import Mathlib.Tactic.Positivity

/-!
# Decimal floating point

A number is a coefficient times a power of ten. A context holds the number of digits a result
may have and the exponents it may have; `fix` rounds an exact result to it, half to even, and
signals an overflow.

* `trunc_fix_exact_iff`: the numbers that survive rounding and the cut to an integer.
-/

namespace Shadownet.Foundation.Decimal

/-! ## Digits -/

/-- The number of digits of a coefficient; zero has one. -/
def numDigits (n : Nat) : Nat := Nat.log 10 n + 1

theorem lt_pow_numDigits (n : Nat) : n < 10 ^ numDigits n :=
  Nat.lt_pow_succ_log_self (by norm_num) n

theorem lt_pow_of_numDigits_le {n k : Nat} (h : numDigits n ≤ k) : n < 10 ^ k :=
  lt_of_lt_of_le (lt_pow_numDigits n) (Nat.pow_le_pow_right (by norm_num) h)

theorem numDigits_le_of_lt {n k : Nat} (hk : 0 < k) (h : n < 10 ^ k) : numDigits n ≤ k :=
  Nat.log_lt_of_lt_pow' (by omega) h

/-! ## Rounding -/

structure Context where
  prec : Nat
  emin : Int
  emax : Int
  prec_pos : 0 < prec
  emin_nonpos : emin ≤ 0
  emax_nonneg : 0 ≤ emax

namespace Context

/-- The exponent of the smallest number. -/
def etiny (ctx : Context) : Int := ctx.emin - ctx.prec + 1

/-- The exponent of the largest numbers. -/
def etop (ctx : Context) : Int := ctx.emax - ctx.prec + 1

end Context

/-- A coefficient without its last digits, rounded half to even. -/
def halfEven (c drop : Nat) : Nat :=
  if numDigits c < drop then 0
  else if 10 ^ drop < 2 * (c % 10 ^ drop) ∨ 2 * (c % 10 ^ drop) = 10 ^ drop ∧ c / 10 ^ drop % 2 = 1
  then c / 10 ^ drop + 1
  else c / 10 ^ drop

/-- A result in a context; `none` is an overflow. -/
def fix (ctx : Context) (c : Nat) (e : Int) : Option (Nat × Int) :=
  if c = 0 then some (0, min (max e ctx.etiny) ctx.emax)
  else if ctx.etop < numDigits c + e - ctx.prec then none
  else
    let expMin := max (numDigits c + e - ctx.prec) ctx.etiny
    if e < expMin then
      let q := halfEven c (expMin - e).toNat
      if numDigits q ≤ ctx.prec then some (q, expMin)
      else if ctx.etop < expMin + 1 then none
      else some (q / 10, expMin + 1)
    else some (c, e)

/-- A number without its fraction. -/
def trunc (r : Nat × Int) : Nat := r.1 * 10 ^ r.2.toNat / 10 ^ (-r.2).toNat

theorem halfEven_of_dvd {c drop : Nat} (h : 10 ^ drop ∣ c) : halfEven c drop = c / 10 ^ drop := by
  have hmod : c % 10 ^ drop = 0 := Nat.mod_eq_zero_of_dvd h
  have hpos : 0 < 10 ^ drop := by positivity
  rw [halfEven, hmod]
  split_ifs with hshort hup
  · have hlt : c < 10 ^ drop := lt_pow_of_numDigits_le hshort.le
    exact (Nat.div_eq_of_lt hlt).symm
  · omega
  · rfl

theorem halfEven_le (c drop : Nat) : halfEven c drop ≤ c / 10 ^ drop + 1 := by
  rw [halfEven]
  generalize c / 10 ^ drop = q
  split_ifs <;> omega

/-! ## Exact values -/

/-- A number is the integer `m`. -/
def IsNat (c : Nat) (e : Int) (m : Nat) : Prop := m * 10 ^ (-e).toNat = c * 10 ^ e.toNat

theorem isNat_iff {c m : Nat} {e : Int} : IsNat c e m ↔ (m : ℚ) = c * 10 ^ e := by
  have hpow : (10 : ℚ) ^ e * 10 ^ (-e).toNat = 10 ^ e.toNat := by
    rw [← zpow_natCast, ← zpow_natCast, ← zpow_add₀ (by norm_num)]
    congr 1
    omega
  have hne : (10 : ℚ) ^ (-e).toNat ≠ 0 := by positivity
  rw [IsNat, ← Nat.cast_inj (R := ℚ)]
  push_cast
  rw [← hpow, ← mul_assoc]
  exact mul_left_inj' hne

theorem numDigits_mul_pow {n : Nat} (h : n ≠ 0) (k : Nat) :
    numDigits (n * 10 ^ k) = numDigits n + k := by
  induction k with
  | zero => simp
  | succ k ih =>
    have hne : n * 10 ^ k ≠ 0 := Nat.mul_ne_zero h (by positivity)
    rw [pow_succ, ← mul_assoc, numDigits, Nat.log_mul_base (by norm_num) hne]
    rw [numDigits] at ih
    omega

theorem IsNat.ne_zero {c m : Nat} {e : Int} (h : IsNat c e m) (hc : c ≠ 0) : m ≠ 0 := by
  rintro rfl
  rw [IsNat, zero_mul] at h
  have hpos : 0 < c * 10 ^ e.toNat := by positivity
  omega

theorem IsNat.numDigits_eq {c m : Nat} {e : Int} (h : IsNat c e m) (hc : c ≠ 0) :
    (numDigits m : Int) = numDigits c + e := by
  have hlen := congrArg numDigits h
  rw [numDigits_mul_pow (h.ne_zero hc), numDigits_mul_pow hc] at hlen
  omega

/-- Digits that end an integer end its coefficient. -/
theorem IsNat.pow_dvd {c m : Nat} {e x : Int} (h : IsNat c e m) (hx : 10 ^ x.toNat ∣ m)
    (hlt : e < x) : 10 ^ (x - e).toNat ∣ c := by
  have hdvd : 10 ^ (x.toNat + (-e).toNat) ∣ c * 10 ^ e.toNat := by
    rw [← h, pow_add]
    exact Nat.mul_dvd_mul_right hx _
  have hpow : (x - e).toNat + e.toNat ≤ x.toNat + (-e).toNat := by omega
  refine Nat.dvd_of_mul_dvd_mul_right (k := 10 ^ e.toNat) (by positivity) ?_
  rw [← pow_add]
  exact (pow_dvd_pow 10 hpow).trans hdvd

theorem IsNat.shift {c m : Nat} {e x : Int} (h : IsNat c e m) (hlt : e < x)
    (hdvd : 10 ^ (x - e).toNat ∣ c) : IsNat (c / 10 ^ (x - e).toNat) x m := by
  obtain ⟨q, rfl⟩ := hdvd
  rw [Nat.mul_div_cancel_left _ (by positivity)]
  rw [isNat_iff] at h ⊢
  have hcast : (((x - e).toNat : Nat) : Int) = x - e := by omega
  rw [h]
  push_cast
  rw [← zpow_natCast, hcast, mul_comm ((10 : ℚ) ^ (x - e)), mul_assoc,
    ← zpow_add₀ (by norm_num : (10 : ℚ) ≠ 0), sub_add_cancel]

theorem trunc_of_isNat {c m : Nat} {e : Int} (h : IsNat c e m) : trunc (c, e) = m := by
  rw [trunc]
  exact Nat.div_eq_of_eq_mul_left (by positivity) h.symm

theorem trunc_shape {r : Nat × Int} {bound : Nat} (h : r.1 < bound) :
    ∃ a k, trunc r = a * 10 ^ k ∧ a < bound := by
  rcases le_or_gt 0 r.2 with hr | hr
  · refine ⟨r.1, r.2.toNat, ?_, h⟩
    have hzero : (-r.2).toNat = 0 := by omega
    rw [trunc, hzero, pow_zero, Nat.div_one]
  · refine ⟨trunc r, 0, by rw [pow_zero, mul_one], ?_⟩
    have hzero : r.2.toNat = 0 := by omega
    rw [trunc, hzero, pow_zero, mul_one]
    exact (Nat.div_le_self _ _).trans_lt h

/-! ## Rounded results -/

/-- A rounded coefficient keeps to the precision, or is the power of ten after it. -/
theorem halfEven_le_pow {c drop prec : Nat} (h : numDigits c ≤ prec + drop) :
    halfEven c drop ≤ 10 ^ prec := by
  have hlt : c / 10 ^ drop < 10 ^ prec := by
    rw [Nat.div_lt_iff_lt_mul (by positivity), ← pow_add]
    exact lt_pow_of_numDigits_le h
  exact (halfEven_le c drop).trans hlt

theorem fix_some {ctx : Context} {c : Nat} {e : Int} {r : Nat × Int} (hc : c ≠ 0)
    (h : fix ctx c e = some r) : numDigits c + e ≤ ctx.emax + 1 ∧ r.1 < 10 ^ ctx.prec := by
  rw [fix, if_neg hc] at h
  split_ifs at h with hover
  have hbound : numDigits c + e ≤ ctx.emax + 1 := by
    rw [Context.etop] at hover
    omega
  refine ⟨hbound, ?_⟩
  dsimp only at h
  split_ifs at h with hround hfit hcarry
  · rw [← Option.some.inj h]
    exact lt_pow_of_numDigits_le hfit
  · rw [← Option.some.inj h]
    have hle := @halfEven_le_pow c (max (numDigits c + e - ctx.prec) ctx.etiny - e).toNat
      ctx.prec (by omega)
    have hpos : 0 < 10 ^ ctx.prec := by positivity
    dsimp only
    omega
  · rw [← Option.some.inj h]
    have hshort : numDigits c ≤ ctx.prec := by omega
    exact lt_pow_of_numDigits_le hshort

/-- The numbers that survive rounding and the cut to an integer: integers below the bound with
no more digits than the precision before their last zeros. -/
theorem trunc_fix_exact_iff {ctx : Context} {c : Nat} {e : Int} (hc : c ≠ 0) :
    (∃ r, fix ctx c e = some r ∧ IsNat c e (trunc r)) ↔
      ∃ m, IsNat c e m ∧ m < 10 ^ (ctx.emax + 1).toNat ∧
        ∃ a k, m = a * 10 ^ k ∧ a < 10 ^ ctx.prec := by
  have hemax := ctx.emax_nonneg
  have hemin := ctx.emin_nonpos
  have hprec := ctx.prec_pos
  constructor
  · rintro ⟨r, hr, hexact⟩
    obtain ⟨hbound, hcoeff⟩ := fix_some hc hr
    have hlen := hexact.numDigits_eq hc
    exact ⟨trunc r, hexact, lt_pow_of_numDigits_le (by omega), trunc_shape hcoeff⟩
  · rintro ⟨m, hexact, hlt, a, k, rfl, ha⟩
    have hlen := hexact.numDigits_eq hc
    have hm := hexact.ne_zero hc
    have hane : a ≠ 0 := fun h => hm (by rw [h, zero_mul])
    have hfits := numDigits_le_of_lt (by omega) hlt
    have hsig := numDigits_le_of_lt hprec ha
    rw [numDigits_mul_pow hane] at hlen hfits
    have hno : ¬ ctx.etop < numDigits c + e - ctx.prec := by
      rw [Context.etop]
      omega
    rw [fix, if_neg hc, if_neg hno]
    dsimp only
    generalize hx : max (numDigits c + e - ctx.prec) ctx.etiny = x
    by_cases hround : e < x
    · -- What is rounded off is zero.
      have hxk : x.toNat ≤ k := by
        have htiny : ctx.etiny ≤ 0 := by
          rw [Context.etiny]
          omega
        omega
      have hdvd := hexact.pow_dvd ((pow_dvd_pow 10 hxk).mul_left a) hround
      have hq := hexact.shift hround hdvd
      have hqne : c / 10 ^ (x - e).toNat ≠ 0 := by
        intro hzero
        have hcancel := Nat.div_mul_cancel hdvd
        rw [hzero, zero_mul] at hcancel
        exact hc hcancel.symm
      have hqlen := hq.numDigits_eq hqne
      rw [numDigits_mul_pow hane] at hqlen
      rw [if_pos hround, halfEven_of_dvd hdvd, if_pos (by omega)]
      refine ⟨_, rfl, ?_⟩
      rw [trunc_of_isNat hq]
      exact hexact
    · rw [if_neg hround]
      refine ⟨_, rfl, ?_⟩
      rw [trunc_of_isNat hexact]
      exact hexact

end Shadownet.Foundation.Decimal
