import Mathlib.Algebra.Group.Nat.Defs
import Mathlib.Data.Int.Order.Basic
import Mathlib.Data.Prod.Lex
import Shadownet.Foundation.Unicode

/-!
# Pieces of the Go standard library the servers use

* `Time` is `time.Time`: Unix seconds and a nanosecond offset. The zero value is the
  first of January of the year 1, which is what `IsZero` asks for.
* `parseUint` is `strconv.ParseUint(s, 10, 64)`.
-/

namespace Shadownet.Go

open Foundation

/-- `time.Time`, as the instant it denotes. -/
structure Time where
  sec : Int
  nsec : Nat
  nsec_lt : nsec < 1000000000
  deriving DecidableEq

namespace Time

/-- `time.Unix(sec, 0)`. -/
def ofUnix (sec : Int) : Time := ⟨sec, 0, by decide⟩

/-- The zero value `time.Time{}`. -/
def zero : Time := ofUnix (-62135596800)

/-- `t.IsZero()`. -/
def isZero (t : Time) : Bool := t.sec == -62135596800 && t.nsec == 0

/-- `t.Unix()`, the whole seconds since the Unix epoch. -/
def unix (t : Time) : Int := t.sec

/-- `t.After(u)`. -/
def after (t u : Time) : Bool := u.sec < t.sec || (t.sec == u.sec && u.nsec < t.nsec)

/-- `t.Add(d)` for a whole number of seconds `d`. -/
def addSeconds (t : Time) (d : Int) : Time := ⟨t.sec + d, t.nsec, t.nsec_lt⟩

/-- `t.Add(d)` for a `time.Duration`, in nanoseconds. -/
def add (t : Time) (d : Int) : Time :=
  ⟨t.sec + (t.nsec + d) / 1000000000, ((t.nsec + d) % 1000000000).toNat, by omega⟩

/-- The nanoseconds since the Unix epoch. -/
def nanos (t : Time) : Int := t.sec * 1000000000 + t.nsec

/-- The idiom `if t.IsZero() { t = time.Now() }`. -/
def orNow (t now : Time) : Time := if t.isZero then now else t

@[simp] theorem unix_ofUnix (sec : Int) : (ofUnix sec).unix = sec := rfl

theorem isZero_iff (t : Time) : t.isZero = true ↔ t = zero := by
  obtain ⟨sec, nsec, h⟩ := t
  simp [isZero, zero, ofUnix]

theorem nanos_add (t : Time) (d : Int) : (t.add d).nanos = t.nanos + d := by
  simp only [nanos, add]
  omega

theorem after_iff {t u : Time} : t.after u = true ↔ u.nanos < t.nanos := by
  simp only [after, Bool.or_eq_true, decide_eq_true_eq, Bool.and_eq_true, beq_iff_eq, nanos]
  have := t.nsec_lt
  have := u.nsec_lt
  omega

/-- The later of two instants has the larger second count: `After` decides which one. -/
theorem unix_le_of_after {t u : Time} (h : t.after u = true) : u.unix ≤ t.unix := by
  simp only [after, Bool.or_eq_true, decide_eq_true_eq, Bool.and_eq_true, beq_iff_eq] at h
  unfold unix
  omega

theorem unix_le_of_not_after {t u : Time} (h : t.after u = false) : t.unix ≤ u.unix := by
  simp only [after, Bool.or_eq_false_iff, decide_eq_false_iff_not] at h
  unfold unix
  omega

theorem unix_le_of_nanos_le {t u : Time} (h : t.nanos ≤ u.nanos) : t.unix ≤ u.unix := by
  refine unix_le_of_not_after (Bool.eq_false_iff.mpr fun ha => ?_)
  exact absurd (after_iff.mp ha) (not_lt.mpr h)

/-- The zero value is before every instant of the Unix era. -/
theorem after_zero {t : Time} (h : 0 ≤ t.unix) : t.after zero = true := by
  have : (-62135596800 : Int) < t.sec := by
    unfold unix at h
    omega
  simp [after, zero, ofUnix, this]

end Time

/-- The digits of `strconv.ParseUint(s, 10, 64)`, most significant first. -/
def parseDigits : Nat → Bytes → Option Nat
  | acc, [] => some acc
  | acc, b :: bs =>
    if 0x30 ≤ b.toNat ∧ b.toNat ≤ 0x39 then parseDigits (acc * 10 + (b.toNat - 0x30)) bs
    else none

/-- `strconv.ParseUint(s, 10, 64)`: a non-empty run of decimal digits below `2^64`. -/
def parseUint (s : Bytes) : Option Nat :=
  match s with
  | [] => none
  | _ => (parseDigits 0 s).filter (· < 2 ^ 64)

end Shadownet.Go
