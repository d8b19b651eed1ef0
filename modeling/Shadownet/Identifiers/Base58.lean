import Shadownet.Identifiers.Codec

/-!
# Base58 in both languages

Go divides and multiplies byte buffers, Python integers. A byte string is a count of zeros and
the bytes of a number, a base58 text a count of ones and the digits of a number; encoding and
decoding keep the count and the number.

* `base58_inverse`: the two codecs agree and are inverse to each other.
-/

namespace Shadownet.Identifiers

open Foundation Interop

/-! ## Encoding -/

theorem fromBytesBig_eq (data : Bytes) : Python.fromBytesBig data = beNumber data := by
  have hfold : ∀ n : Nat, data.foldl (fun n b => n * 256 + b.toNat) n =
      n * 256 ^ data.length + beNumber data := by
    induction data with
    | nil =>
      intro n
      simp [beNumber]
    | cons b data ih =>
      intro n
      rw [List.foldl_cons, ih, beNumber_cons, List.length_cons]
      ring
  rw [Python.fromBytesBig, hfold, Nat.zero_mul, Nat.zero_add]

theorem b58EncodeLoop_digits (n : Nat) (encoded : Text) :
    Python.b58EncodeLoop n encoded = ((Nat.digits 58 n).map b58Char).reverse ++ encoded := by
  induction n using Nat.strong_induction_on generalizing encoded with
  | _ n ih =>
    rw [Python.b58EncodeLoop]
    by_cases h0 : n = 0
    · rw [if_pos h0, h0]
      rfl
    · have hpos : 0 < n := Nat.pos_of_ne_zero h0
      have hchar : Python.base58Alphabet.getD (n % 58) 0 = b58Char (n % 58) := by
        have hlt : n % 58 < Go.b58Alphabet.length := by
          rw [show Go.b58Alphabet.length = 58 by decide]
          exact Nat.mod_lt _ (by decide)
        rw [base58Alphabet_eq, b58Char, List.getD_eq_getElem?_getD, List.getElem?_map,
          List.getD_eq_getElem?_getD, List.getElem?_eq_getElem hlt]
        rfl
      rw [if_neg h0, ih (n / 58) (by omega), Nat.digits_def' (by decide) hpos, List.map_cons,
        List.reverse_cons, hchar, List.append_assoc, List.singleton_append]

/-- The zeros at the start of a byte string. -/
def zeros (data : Bytes) : Nat := (data.takeWhile (· == 0)).length

theorem zeros_split (data : Bytes) :
    data = List.replicate (zeros data) 0 ++ (leBytes (beNumber data)).reverse := by
  have hzeros : data.takeWhile (· == 0) = List.replicate (zeros data) 0 :=
    List.eq_replicate_of_mem fun b hb => by
      simpa using List.all_eq_true.mp List.all_takeWhile b hb
  rw [← dropWhile_zero, ← hzeros, List.takeWhile_append_dropWhile]

theorem drop_zeros (data : Bytes) : data.drop (zeros data) = (leBytes (beNumber data)).reverse := by
  have hsplit : data.drop (zeros data) =
      (data.takeWhile (· == 0) ++ data.dropWhile (· == 0)).drop (zeros data) := by
    rw [List.takeWhile_append_dropWhile]
  rw [hsplit, zeros, List.drop_left, dropWhile_zero]

theorem goEncode_eq (data : Bytes) :
    Go.b58encode data = List.replicate (zeros data) 0x31 ++
      ((Nat.digits 58 (beNumber data)).map fun d => Go.b58Alphabet.getD d 0).reverse := by
  have hfuel : beNumber data < 58 ^ (2 * data.length) := by
    rw [pow_mul]
    exact (beNumber_lt _).trans_le (Nat.pow_le_pow_left (by decide) _)
  have hloop := b58EncodeLoop_eq hfuel
  rw [← drop_zeros] at hloop
  rw [Go.b58encode, ← zeros, hloop]

theorem pythonEncode_eq (data : Bytes) :
    Python.b58encode data = List.replicate (zeros data) 49 ++
      ((Nat.digits 58 (beNumber data)).map b58Char).reverse := by
  rw [Python.b58encode, ← zeros, b58EncodeLoop_digits, List.append_nil, fromBytesBig_eq]

/-- Both encoders write the same characters. -/
theorem b58encode_agree (data : Bytes) :
    Python.b58encode data = (Go.b58encode data).map latin := by
  rw [pythonEncode_eq, goEncode_eq, List.map_append, List.map_replicate, List.map_reverse,
    List.map_map]
  rfl

/-! ## Decoding -/

/-- The bytes of a number do not start with a zero. -/
theorem zeros_append (k n : Nat) : zeros (List.replicate k 0 ++ (leBytes n).reverse) = k := by
  have hnone : (leBytes n).reverse.takeWhile (· == 0) = [] := by
    have hfix : (leBytes n).reverse.dropWhile (· == 0) = (leBytes n).reverse := by
      rw [dropWhile_zero, beNumber_leBytes]
    have hlen := congrArg List.length (List.takeWhile_append_dropWhile (p := (· == 0))
      (l := (leBytes n).reverse))
    rw [hfix, List.length_append] at hlen
    exact List.length_eq_zero_iff.mp (by omega)
  rw [zeros, List.takeWhile_append_of_pos (by simp), hnone, List.append_nil, List.length_replicate]

theorem beNumber_append (k n : Nat) :
    beNumber (List.replicate k 0 ++ (leBytes n).reverse) = n := by
  induction k with
  | zero => exact beNumber_leBytes n
  | succ k ih =>
    rw [List.replicate_succ, List.cons_append, beNumber_cons, ih]
    simp

/-- A text of ones and digits that do not start with a zero. -/
theorem ones_append {k n : Nat} {s : Bytes}
    (hs : s = ((Nat.digits 58 n).map fun d => Go.b58Alphabet.getD d 0).reverse) :
    ((List.replicate k 0x31 ++ s).takeWhile (· == 0x31)).length = k := by
  have hnone : s.takeWhile (· == 0x31) = [] := by
    by_cases h0 : n = 0
    · rw [hs, h0]
      rfl
    · have hne : Nat.digits 58 n ≠ [] := Nat.digits_ne_nil_iff_ne_zero.mpr h0
      have hlast : (Nat.digits 58 n).getLast hne ≠ 0 := Nat.getLast_digit_ne_zero 58 h0
      have hlt : (Nat.digits 58 n).getLast hne < 58 :=
        Nat.digits_lt_base (by decide) (List.getLast_mem hne)
      have hall : ∀ i : Fin 58, i.val ≠ 0 → Go.b58Alphabet.getD i.val 0 ≠ 0x31 := by
        decide
      rw [hs, ← List.map_reverse, ← List.dropLast_append_getLast hne, List.reverse_append,
        List.reverse_singleton, List.singleton_append, List.map_cons,
        List.takeWhile_cons_of_neg]
      simpa using hall ⟨_, hlt⟩ hlast
  rw [List.takeWhile_append_of_pos (by simp), hnone, List.append_nil, List.length_replicate]

/-- What both decoders make of ones and digits. -/
theorem decode_ones_digits (G : Go.Runtime) (G' : Python.Runtime) {k n : Nat} {s : Bytes}
    (hs : s = ((Nat.digits 58 n).map fun d => Go.b58Alphabet.getD d 0).reverse) :
    Go.b58decode G (List.replicate k 0x31 ++ s) =
        .ok (List.replicate k 0 ++ (leBytes n).reverse) ∧
      Python.b58decode G' ((List.replicate k 0x31 ++ s).map latin) =
        .ok (List.replicate k 0 ++ (leBytes n).reverse) := by
  have hnumber : Python.b58Number G' 0 (s.map latin) = .ok n := by
    rw [hs, List.map_reverse, List.map_map]
    exact b58Number_digits G' n
  have hgo : Go.b58decode G (List.replicate k 0x31 ++ s) =
      .ok (List.replicate k 0 ++ (leBytes n).reverse) := by
    have hdrop : (List.replicate k 0x31 ++ s).drop k = s := List.drop_left' List.length_replicate
    rw [Go.b58decode, ones_append hs, hdrop]
    have hloop : Go.b58DecodeLoop G k [] s = .ok (leBytes n) := b58DecodeLoop_of_number G hnumber
    rw [hloop]
    rfl
  exact ⟨hgo, b58decode_eq_ok G' hgo⟩

theorem base58Index_of_mem {c : CodePoint} (h : c ∈ Python.base58Alphabet) :
    ∃ d, Python.base58Index c = some d := by
  have hlen : Python.base58Alphabet.length = 58 := by decide
  have hlt := List.idxOf_lt_length_iff.mpr h
  exact ⟨_, if_pos (by omega)⟩

/-- A text in the alphabet is a number. -/
theorem b58Number_of_alphabet (G : Python.Runtime) {t : Text} (n : Nat)
    (h : ∀ c ∈ t, c ∈ Python.base58Alphabet) : ∃ m, Python.b58Number G n t = .ok m := by
  induction t generalizing n with
  | nil => exact ⟨n, rfl⟩
  | cons c t ih =>
    obtain ⟨d, hd⟩ := base58Index_of_mem (h c List.mem_cons_self)
    rw [Python.b58Number, hd]
    exact ih _ fun c hc => h c (List.mem_cons_of_mem _ hc)

/-- Every text in the alphabet is ones and the digits of a number. -/
theorem exists_ones_digits {t : Text} (h : ∀ c ∈ t, c ∈ Python.base58Alphabet) :
    ∃ k n, ∃ s : Bytes, s = ((Nat.digits 58 n).map fun d => Go.b58Alphabet.getD d 0).reverse ∧
      t = (List.replicate k 0x31 ++ s).map latin := by
  induction t with
  | nil => exact ⟨0, 0, [], rfl, rfl⟩
  | cons c t ih =>
    obtain ⟨d, hd⟩ := base58Index_of_mem (h c List.mem_cons_self)
    obtain ⟨hlt, rfl⟩ := b58Char_of_index hd
    by_cases h0 : d = 0
    · subst h0
      obtain ⟨k, n, s, hs, rfl⟩ := ih fun c hc => h c (List.mem_cons_of_mem _ hc)
      exact ⟨k + 1, n, s, hs, rfl⟩
    · obtain ⟨m, hm⟩ := b58Number_of_alphabet Python.bareRuntime 0 h
      have hdigits := digits_of_b58Number h0 hlt hm
      refine ⟨0, m, _, rfl, ?_⟩
      rw [hdigits, List.replicate_zero, List.nil_append, List.map_reverse, List.map_map]
      rfl

theorem raises_b58Number {G : Python.Runtime} (n : Nat) (t : Text) :
    Python.Raises .valueError (Python.b58Number G n t) := by
  induction t generalizing n with
  | nil => exact .pure _
  | cons c t ih =>
    rw [Python.b58Number]
    cases Python.base58Index c with
    | none => exact .throw _
    | some d => exact ih _

/-- A text with another character is refused by both. -/
theorem decode_fails (G : Go.Runtime) (G' : Python.Runtime) {t : Text} {c : CodePoint} (hc : c ∈ t)
    (hnot : c ∉ Python.base58Alphabet) :
    (∃ e, Go.b58decode G (utf8 t) = .error e) ∧
      ∃ e, Python.b58decode G' t = .error e ∧ e.cls = .valueError := by
  constructor
  · cases hgo : Go.b58decode G (utf8 t) with
    | error e => exact ⟨e, rfl⟩
    | ok raw =>
      obtain ⟨b, hb⟩ := List.exists_mem_of_ne_nil _ (utf8Char_ne_nil c)
      have halphabet : b ∈ Go.b58Alphabet :=
        Go.alphabet_of_b58decode hgo b (List.mem_flatMap.mpr ⟨c, hc, hb⟩)
      have hval := Go.ascii_of_mem_utf8Char (Go.alphabet_ascii halphabet) hb
      have hlatin : c = latin b := Fin.ext (hval.trans (latin_val b).symm)
      refine absurd ?_ hnot
      rw [base58Alphabet_eq, hlatin]
      exact List.mem_map_of_mem halphabet
  · cases hnumber : Python.b58Number G' 0 t with
    | error e =>
      refine ⟨e, ?_, raises_b58Number 0 t e hnumber⟩
      rw [Python.b58decode, hnumber]
      rfl
    | ok m =>
      obtain ⟨ds, rfl, hlt, -⟩ := b58Number_eq_ok hnumber
      obtain ⟨d, hd, rfl⟩ := List.mem_map.mp hc
      have hall : ∀ i : Fin 58, b58Char i.val ∈ Python.base58Alphabet := by decide +kernel
      exact absurd (hall ⟨d, hlt d hd⟩) hnot

/-! ## Machine arithmetic -/

/-- The values of `acc` in the division loop of `b58encode`. -/
def divAccs : Nat → Bytes → List Nat
  | _, [] => []
  | rem, b :: bs => (rem * 256 + b.toNat) :: divAccs ((rem * 256 + b.toNat) % 58) bs

/-- The values of `acc` in all rounds of `b58encode`. -/
def encodeAccs : Nat → Bytes → List Nat
  | 0, _ => []
  | _, [] => []
  | fuel + 1, b :: bs =>
    divAccs 0 (b :: bs) ++ encodeAccs fuel ((Go.b58DivMod 0 (b :: bs)).1.dropWhile (· == 0))

/-- The values of `carry` in the loops over the buffer of `b58decode`. -/
def mulAccs : Nat → Bytes → List Nat
  | carry, [] => [carry]
  | carry, b :: bs => (carry + b.toNat * 58) :: mulAccs ((carry + b.toNat * 58) / 256) bs

/-- The values of `carry` in all rounds of `b58decode`. -/
def decodeAccs : Bytes → Bytes → List Nat
  | _, [] => []
  | out, b :: bs =>
    match Go.b58Index b with
    | none => []
    | some v => mulAccs v out ++ decodeAccs (Go.b58MulAdd v out) bs

theorem divAccs_lt {rem : Nat} (hrem : rem < 58) {bs : Bytes} :
    ∀ acc ∈ divAccs rem bs, acc < 58 * 256 := by
  induction bs generalizing rem with
  | nil => exact nofun
  | cons b bs ih =>
    have hb := b.toNat_lt
    exact List.forall_mem_cons.mpr ⟨by omega, ih (Nat.mod_lt _ (by decide))⟩

theorem encodeAccs_lt {fuel : Nat} {bs : Bytes} : ∀ acc ∈ encodeAccs fuel bs, acc < 58 * 256 := by
  induction fuel generalizing bs with
  | zero => exact nofun
  | succ fuel ih =>
    cases bs with
    | nil => exact nofun
    | cons b bs => exact List.forall_mem_append.mpr ⟨divAccs_lt (by decide), ih⟩

theorem mulAccs_lt {carry : Nat} (hcarry : carry < 58) {bs : Bytes} :
    ∀ acc ∈ mulAccs carry bs, acc < 58 * 256 := by
  induction bs generalizing carry with
  | nil =>
    intro acc hacc
    rw [List.mem_singleton.mp hacc]
    omega
  | cons b bs ih =>
    have hb := b.toNat_lt
    exact List.forall_mem_cons.mpr ⟨by omega, ih (by omega)⟩

theorem decodeAccs_lt {out bs : Bytes} : ∀ acc ∈ decodeAccs out bs, acc < 58 * 256 := by
  induction bs generalizing out with
  | nil => exact nofun
  | cons b bs ih =>
    rw [decodeAccs]
    cases hv : Go.b58Index b with
    | none => exact nofun
    | some v =>
      have hlt : v < 58 := by
        simp only [Go.b58Index] at hv
        split_ifs at hv with hi
        rw [← Option.some.inj hv]
        exact hi
      exact List.forall_mem_append.mpr ⟨mulAccs_lt hlt, ih⟩

/-- **Base58 in two languages.** Both encoders write the same text and both decoders invert them;
both decoders refuse a text with a character outside the alphabet, and otherwise return the same
bytes, whose text is the one they decoded. No value in the loops of the Go code is as large as an
`int` allows, and each quotient is a byte. -/
theorem base58_inverse (G : Go.Runtime) (G' : Python.Runtime) :
    (∀ d : Bytes, Python.b58encode d = (Go.b58encode d).map latin ∧
      Go.b58decode G (Go.b58encode d) = .ok d ∧
      Python.b58decode G' (Python.b58encode d) = .ok d) ∧
    (∀ t : Text,
      ((∃ c ∈ t, c ∉ Python.base58Alphabet) ∧ (∃ e, Go.b58decode G (utf8 t) = .error e) ∧
        ∃ e, Python.b58decode G' t = .error e ∧ e.cls = .valueError) ∨
      ∃ d, Go.b58decode G (utf8 t) = .ok d ∧ Python.b58decode G' t = .ok d ∧
        Go.b58encode d = utf8 t ∧ Python.b58encode d = t) ∧
    (∀ fuel d, ∀ acc ∈ encodeAccs fuel d, acc < 2 ^ 63 ∧ acc / 58 < 2 ^ 8) ∧
    ∀ s : Bytes, ∀ acc ∈ decodeAccs [] s, acc < 2 ^ 63 := by
  refine ⟨fun d => ?_, fun t => ?_, fun fuel d acc hacc => ?_, fun s acc hacc => ?_⟩
  · have hdecode := decode_ones_digits G G' (k := zeros d) (n := beNumber d) rfl
    rw [← goEncode_eq, ← zeros_split] at hdecode
    exact ⟨b58encode_agree d, hdecode.1, by rw [b58encode_agree]; exact hdecode.2⟩
  · by_cases halphabet : ∀ c ∈ t, c ∈ Python.base58Alphabet
    · right
      obtain ⟨k, n, s, hs, rfl⟩ := exists_ones_digits halphabet
      have hencode : Go.b58encode (List.replicate k 0 ++ (leBytes n).reverse) =
          List.replicate k 0x31 ++ s := by
        rw [goEncode_eq, zeros_append, beNumber_append, ← hs]
      obtain ⟨hgo, hpython⟩ := decode_ones_digits G G' (k := k) hs
      have hascii : utf8 ((List.replicate k 0x31 ++ s).map latin) = List.replicate k 0x31 ++ s :=
        utf8_latin fun b hb => Go.alphabet_ascii (Go.alphabet_of_b58decode hgo b hb)
      rw [hascii]
      exact ⟨_, hgo, hpython, hencode, by rw [b58encode_agree, hencode]⟩
    · left
      push Not at halphabet
      obtain ⟨c, hc, hnot⟩ := halphabet
      exact ⟨⟨c, hc, hnot⟩, decode_fails G G' hc hnot⟩
  · have hlt := encodeAccs_lt acc hacc
    omega
  · have hlt := decodeAccs_lt acc hacc
    omega

end Shadownet.Identifiers
