import Shadownet.Foundation.Unicode

/-!
# Bitstrings in bytes, most significant bit first

Bit `i` of a byte string is bit `7 - i % 8` of its byte `i / 8`. `setBit` writes a bit and
`bitAt` reads one; `bitAt_setBit` and `bitAt_setBits` say what is read after one write and
after any number of them.
-/

namespace Shadownet.Foundation

/-- The bit with index `i`; a bit past the end is zero. -/
def bitAt (bs : Bytes) (i : Nat) : Bool :=
  match bs[i / 8]? with
  | some b => b.toNat.testBit (7 - i % 8)
  | none => false

/-- `bits[i/8] |= 1 << (7 - i%8)`. -/
def setBit (bs : Bytes) (i : Nat) : Bytes :=
  bs.modify (i / 8) fun b => b ||| UInt8.ofNat (1 <<< (7 - i % 8))

@[simp] theorem length_setBit (bs : Bytes) (i : Nat) : (setBit bs i).length = bs.length := by
  simp [setBit]

theorem bitAt_replicate_zero (n i : Nat) : bitAt (List.replicate n 0) i = false := by
  unfold bitAt
  split
  · rename_i b hb
    rw [List.getElem?_replicate] at hb
    split at hb
    · rw [← Option.some.inj hb]
      simp
    · cases hb
  · rfl

theorem testBit_mask (i j : Nat) (h : i / 8 = j / 8) :
    (UInt8.ofNat (1 <<< (7 - j % 8))).toNat.testBit (7 - i % 8) = decide (i = j) := by
  have hlt : 1 <<< (7 - j % 8) < 256 := by
    rw [Nat.one_shiftLeft]
    calc 2 ^ (7 - j % 8) ≤ 2 ^ 7 := Nat.pow_le_pow_right (by decide) (by omega)
      _ < 256 := by decide
  rw [toNat_ofNat_of_lt hlt, Nat.one_shiftLeft, Nat.testBit_two_pow, decide_eq_decide]
  omega

theorem bitAt_setBit {bs : Bytes} {j : Nat} (hj : j < bs.length * 8) (i : Nat) :
    bitAt (setBit bs j) i = (bitAt bs i || decide (i = j)) := by
  unfold bitAt setBit
  rw [List.getElem?_modify]
  by_cases hij : j / 8 = i / 8
  · have hlt : i / 8 < bs.length := by omega
    rw [List.getElem?_eq_getElem hlt]
    simp only [Option.map_eq_map, Option.map_some, hij, if_true, UInt8.toNat_or, Nat.testBit_or,
      testBit_mask i j hij.symm]
  · have hne : i ≠ j := by
      rintro rfl
      exact hij rfl
    simp [hij, hne]

/-- Writing the bits of a list of indices. -/
theorem bitAt_setBits {bs : Bytes} {js : List Nat} (hj : ∀ j ∈ js, j < bs.length * 8) (i : Nat) :
    bitAt (js.foldl setBit bs) i = (bitAt bs i || decide (i ∈ js)) := by
  induction js generalizing bs with
  | nil => simp
  | cons j js ih =>
    rw [List.foldl_cons, ih (fun k hk => by simpa using hj k (by simp [hk])),
      bitAt_setBit (hj j (by simp))]
    by_cases hij : i = j <;> simp [hij]

theorem length_setBits (bs : Bytes) (js : List Nat) :
    (js.foldl setBit bs).length = bs.length := by
  induction js generalizing bs with
  | nil => rfl
  | cons j js ih => rw [List.foldl_cons, ih, length_setBit]

/-- Two bits can be written in either order. -/
theorem setBit_comm (bs : Bytes) (i j : Nat) :
    setBit (setBit bs i) j = setBit (setBit bs j) i := by
  refine List.ext_getElem? fun k => ?_
  simp only [setBit, List.getElem?_modify]
  cases bs[k]? with
  | none => rfl
  | some b =>
    by_cases hi : i / 8 = k <;> by_cases hj : j / 8 = k <;>
      simp [hi, hj, UInt8.or_assoc, UInt8.or_comm (UInt8.ofNat (1 <<< (7 - i % 8)))]

/-- A byte string is its length and its bits. -/
theorem ext_bitAt {a b : Bytes} (hlen : a.length = b.length) (h : ∀ i, bitAt a i = bitAt b i) :
    a = b := by
  refine List.ext_getElem hlen fun k hka hkb => UInt8.toNat_inj.mp ?_
  refine Nat.eq_of_testBit_eq fun j => ?_
  by_cases hj : j < 8
  · have hbit := h (k * 8 + (7 - j))
    have hdiv : (k * 8 + (7 - j)) / 8 = k := by omega
    have hmod : 7 - (k * 8 + (7 - j)) % 8 = j := by omega
    simpa only [bitAt, hdiv, hmod, List.getElem?_eq_getElem hka, List.getElem?_eq_getElem hkb]
      using hbit
  · have hsmall : ∀ u : UInt8, u.toNat.testBit j = false := fun u =>
      Nat.testBit_lt_two_pow (u.toNat_lt.trans_le (Nat.pow_le_pow_right (by decide) (by omega)))
    rw [hsmall, hsmall]

/-- A set of indices below `n` as a bitstring. -/
structure IsBitstring (n : Nat) (P : Nat → Prop) (bits : Bytes) : Prop where
  length : bits.length = (n + 7) / 8
  bit : ∀ i, bitAt bits i = true ↔ P i ∧ i < n

theorem IsBitstring.unique {n : Nat} {P : Nat → Prop} {a b : Bytes} (ha : IsBitstring n P a)
    (hb : IsBitstring n P b) : a = b :=
  ext_bitAt (ha.length.trans hb.length.symm) fun i => Bool.eq_iff_iff.mpr
    ((ha.bit i).trans (hb.bit i).symm)

end Shadownet.Foundation
