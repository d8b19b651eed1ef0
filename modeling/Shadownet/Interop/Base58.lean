import Mathlib.Data.Nat.Digits.Lemmas
import Shadownet.Go.Ascii
import Shadownet.Python.Identifiers

/-!
# Public keys in both languages

The Go code works on byte buffers, the Python SDK on integers. Both keep the digits of one
number, so a key that Go decodes, or that Go has encoded, parses in Python to the same bytes.

* `parsePublicKey_of_decodePubKey`: what `DecodePubKey` accepts, `parse_public_key` accepts.
* `parsePublicKey_of_encodePubKey`: `parse_public_key` inverts `EncodePubKey`.
-/

namespace Shadownet.Interop

open Foundation

/-! ## Digits as bytes -/

/-- A byte as a character. -/
def latin (b : UInt8) : CodePoint := Fin.ofNat 0x110000 b.toNat

theorem latin_val (b : UInt8) : (latin b).val = b.toNat := by
  have := b.toNat_lt
  exact Nat.mod_eq_of_lt (by omega)

theorem latin_injective : Function.Injective latin := by
  intro a b h
  have hval := congrArg Fin.val h
  rw [latin_val, latin_val] at hval
  exact UInt8.toNat_inj.mp hval

theorem utf8_latin {s : Bytes} (h : ∀ b ∈ s, b.toNat < 0x80) : utf8 (s.map latin) = s := by
  have hascii : ∀ c ∈ s.map latin, c.IsAscii := by
    intro c hc
    obtain ⟨b, hb, rfl⟩ := List.mem_map.mp hc
    show (latin b).val < 0x80
    rw [latin_val]
    exact h b hb
  rw [utf8_ascii hascii, List.map_map]
  conv_rhs => rw [← List.map_id s]
  refine List.map_congr_left fun b _ => ?_
  rw [Function.comp_apply, latin_val, UInt8.ofNat_toNat, id]

/-- The bytes of a number, least significant first. -/
def leBytes (n : Nat) : Bytes := (Nat.digits 256 n).map UInt8.ofNat

theorem leBytes_pos {n : Nat} (h : 0 < n) :
    leBytes n = UInt8.ofNat (n % 256) :: leBytes (n / 256) := by
  rw [leBytes, Nat.digits_def' (by decide) h, List.map_cons, leBytes]

theorem toBytesBig_eq (n : Nat) : Python.toBytesBig n = (leBytes n).reverse := by
  rw [Python.toBytesBig, leBytes, List.map_reverse]

/-! ## Decoding -/

theorem idxOf_map_injective {α β : Type} [DecidableEq α] [DecidableEq β] {f : α → β}
    (hf : Function.Injective f) (a : α) (l : List α) : (l.map f).idxOf (f a) = l.idxOf a := by
  induction l with
  | nil => rfl
  | cons b l ih =>
    rw [List.map_cons, List.idxOf_cons, List.idxOf_cons, ih]
    by_cases h : b = a
    · rw [h, beq_self_eq_true, beq_self_eq_true]
    · rw [beq_false_of_ne h, beq_false_of_ne (hf.ne h)]

theorem base58Alphabet_eq : Python.base58Alphabet = Go.b58Alphabet.map latin := by
  decide

theorem base58Index_latin (b : UInt8) : Python.base58Index (latin b) = Go.b58Index b := by
  rw [Python.base58Index, Go.b58Index, base58Alphabet_eq, idxOf_map_injective latin_injective]

/-- Multiplying the buffer and adding a digit. -/
theorem b58MulAdd_leBytes (carry n : Nat) :
    Go.b58MulAdd carry (leBytes n) = leBytes (carry + 58 * n) := by
  induction n using Nat.strong_induction_on generalizing carry with
  | _ n ih =>
    by_cases h0 : n = 0
    · subst h0
      rfl
    · have hpos : 0 < n := Nat.pos_of_ne_zero h0
      have hdigit : (UInt8.ofNat (n % 256)).toNat = n % 256 :=
        toNat_ofNat_of_lt (Nat.mod_lt _ (by decide))
      have hlow : (carry + n % 256 * 58) % 256 = (carry + 58 * n) % 256 := by omega
      have hhigh : (carry + n % 256 * 58) / 256 + 58 * (n / 256) = (carry + 58 * n) / 256 := by
        omega
      rw [leBytes_pos hpos, Go.b58MulAdd, hdigit, ih (n / 256) (by omega), hlow, hhigh,
        leBytes_pos (show 0 < carry + 58 * n by omega)]

theorem b58DecodeLoop_eq_ok {G : Go.Runtime} (G' : Python.Runtime) {s out : Bytes} {i n : Nat}
    (h : Go.b58DecodeLoop G i (leBytes n) s = .ok out) :
    ∃ m, out = leBytes m ∧ Python.b58Number G' n (s.map latin) = .ok m := by
  induction s generalizing i n with
  | nil => exact ⟨n, (pure_eq_ok.mp h).symm, rfl⟩
  | cons b s ih =>
    rw [Go.b58DecodeLoop] at h
    rw [List.map_cons, Python.b58Number, base58Index_latin]
    cases hi : Go.b58Index b with
    | none =>
      rw [hi] at h
      cases h
    | some v =>
      rw [hi] at h
      simp only [b58MulAdd_leBytes] at h
      rw [Nat.add_comm v, Nat.mul_comm 58] at h
      exact ih h

theorem b58Number_ones (G : Python.Runtime) (k : Nat) (t : Text) :
    Python.b58Number G 0 (List.replicate k 49 ++ t) = Python.b58Number G 0 t := by
  have hone : Python.base58Index 49 = some 0 := by decide
  induction k with
  | zero => rfl
  | succ k ih => rw [List.replicate_succ, List.cons_append, Python.b58Number, hone]; exact ih

theorem b58decode_eq_ok {G : Go.Runtime} (G' : Python.Runtime) {s raw : Bytes}
    (h : Go.b58decode G s = .ok raw) :
    Python.b58decode G' (s.map latin) = .ok raw := by
  simp only [Go.b58decode, bind_eq_ok, pure_eq_ok] at h
  obtain ⟨out, hloop, rfl⟩ := h
  have hones : s.takeWhile (· == 0x31) = List.replicate (s.takeWhile (· == 0x31)).length 0x31 :=
    List.eq_replicate_of_mem fun b hb => by
      simpa using List.all_eq_true.mp List.all_takeWhile b hb
  have hsplit : s = List.replicate (s.takeWhile (· == 0x31)).length 0x31 ++
      s.drop (s.takeWhile (· == 0x31)).length := by
    rw [← hones]
    exact (List.prefix_iff_eq_append.mp (List.takeWhile_prefix _)).symm
  have hleading : ((s.map latin).takeWhile (· == 49)).length =
      (s.takeWhile (· == 0x31)).length := by
    have hcongr : (fun c => c == (49 : CodePoint)) ∘ latin = fun b => b == 0x31 := by
      funext b
      have : (49 : CodePoint) = latin 0x31 := by decide
      rw [Function.comp_apply, this, Bool.eq_iff_iff, beq_iff_eq, beq_iff_eq,
        latin_injective.eq_iff]
    rw [List.takeWhile_map, List.length_map, hcongr]
  obtain ⟨m, rfl, hnumber⟩ := b58DecodeLoop_eq_ok G' (n := 0) hloop
  have hall : Python.b58Number G' 0 (s.map latin) = .ok m := by
    conv_lhs => rw [hsplit]
    rw [List.map_append, List.map_replicate]
    exact (b58Number_ones G' _ _).trans hnumber
  rw [Python.b58decode, hall, ok_bind, hleading, toBytesBig_eq]
  rfl

/-! ## Keys -/

theorem parsePublicKey_of_b58decode {G : Python.Runtime} {t : Text} {raw : Bytes}
    (hp : (text "z6Mk").isPrefixOf t = true)
    (hd : Python.b58decode G (t.drop 1) = .ok (0xED :: 0x01 :: raw)) (hlen : raw.length = 32) :
    Python.parsePublicKey G t = .ok raw := by
  have hhead : t.head? = some 122 := by
    obtain ⟨r, rfl⟩ := List.isPrefixOf_iff_prefix.mp hp
    rfl
  have hdecode : Python.decodeMultibaseZ G t = .ok (0xED :: 0x01 :: raw) := by
    rw [Python.decodeMultibaseZ, if_neg (by simp [hhead]), hd]
    rfl
  have hstrip : Python.stripMulticodec (0xED :: 0x01 :: raw) = .ok raw := by
    rw [Python.stripMulticodec, if_neg (by simp)]
    rfl
  have hvalid : Python.validateMultibasePk G t = .ok t := by
    rw [Python.validateMultibasePk, if_neg (by simp [hp]), hdecode, ok_bind, hstrip,
      Python.reraise, ok_bind, if_neg (by simp [hlen])]
    rfl
  rw [Python.parsePublicKey, hvalid, ok_bind, hdecode, ok_bind, hstrip]

/-- The characters of a public key identifier. -/
theorem map_latin_z6Mk (r : Bytes) :
    (bytes "z6Mk" ++ r).map latin = text "z6Mk" ++ r.map latin := by
  rw [List.map_append]
  rfl

/-- What Go takes for a public key, Python parses to the same bytes. -/
theorem parsePublicKey_of_decodePubKey {G : Go.Runtime} (G' : Python.Runtime) {s raw : Bytes}
    (h : Go.decodePubKey G s = .ok raw) :
    Python.parsePublicKey G' (s.map latin) = .ok raw ∧ ∀ b ∈ s, b.toNat < 0x80 := by
  refine ⟨?_, fun b hb => Go.alphabet_ascii (Go.alphabet_of_decodePubKey h b hb)⟩
  simp only [Go.decodePubKey, guard_eq_ok, bind_eq_ok, mapError_eq_ok, pure_eq_ok, not_not] at h
  obtain ⟨hp, dec, hdec, -, htake, hlen, rfl⟩ := h
  obtain ⟨r, rfl⟩ := List.isPrefixOf_iff_prefix.mp hp
  have hpy := b58decode_eq_ok G' hdec
  have hsplit : dec = 0xED :: 0x01 :: dec.drop 2 := by
    conv_lhs => rw [← List.take_append_drop 2 dec, htake]
    rfl
  refine parsePublicKey_of_b58decode ?_ ?_ hlen
  · rw [map_latin_z6Mk]
    exact List.isPrefixOf_iff_prefix.mpr (List.prefix_append _ _)
  · rw [← List.map_drop, hpy, ← hsplit]

/-! ## Encoding -/

/-- The number that bytes stand for, most significant first. -/
def beNumber (bs : Bytes) : Nat := Nat.ofDigits 256 (bs.reverse.map UInt8.toNat)

theorem beNumber_cons (b : UInt8) (bs : Bytes) :
    beNumber (b :: bs) = b.toNat * 256 ^ bs.length + beNumber bs := by
  rw [beNumber, List.reverse_cons, List.map_append, Nat.ofDigits_append, List.length_map,
    List.length_reverse, List.map_singleton, Nat.ofDigits_singleton, beNumber, Nat.add_comm,
    Nat.mul_comm]

theorem beNumber_lt (bs : Bytes) : beNumber bs < 256 ^ bs.length := by
  have hlt := Nat.ofDigits_lt_base_pow_length (b := 256) (l := bs.reverse.map UInt8.toNat)
    (by decide) fun x hx => by
      obtain ⟨b, -, rfl⟩ := List.mem_map.mp hx
      exact b.toNat_lt
  rwa [List.length_map, List.length_reverse] at hlt

theorem beNumber_leBytes (n : Nat) : beNumber (leBytes n).reverse = n := by
  have hbytes : (leBytes n).map UInt8.toNat = Nat.digits 256 n := by
    rw [leBytes, List.map_map]
    conv_rhs => rw [← List.map_id (Nat.digits 256 n)]
    exact List.map_congr_left fun d hd =>
      toNat_ofNat_of_lt (Nat.digits_lt_base (by decide) hd)
  rw [beNumber, List.reverse_reverse, hbytes, Nat.ofDigits_digits]

/-- Bytes without leading zeros are the bytes of their number. -/
theorem dropWhile_zero (bs : Bytes) :
    bs.dropWhile (· == 0) = (leBytes (beNumber bs)).reverse := by
  induction bs with
  | nil => rfl
  | cons b bs ih =>
    by_cases hb : b = 0
    · subst hb
      rw [List.dropWhile_cons_of_pos (by simp), ih, beNumber_cons]
      simp
    · have hdigits : Nat.digits 256 (beNumber (b :: bs)) =
          (b :: bs).reverse.map UInt8.toNat := by
        refine Nat.digits_ofDigits 256 (by decide) _ (fun x hx => ?_) fun hne => ?_
        · obtain ⟨b, -, rfl⟩ := List.mem_map.mp hx
          exact b.toNat_lt
        · rw [List.getLast_map, List.getLast_reverse]
          exact fun h => hb (UInt8.toNat_inj.mp h)
      rw [List.dropWhile_cons_of_neg (by simpa using hb), leBytes, hdigits, List.map_map]
      have hid : (UInt8.ofNat ∘ UInt8.toNat) = id := by
        funext b
        exact UInt8.ofNat_toNat
      rw [hid, List.map_id, List.reverse_reverse]

/-- One long division of the buffer. -/
theorem b58DivMod_eq {rem : Nat} (hrem : rem < 58) (bs : Bytes) :
    58 * beNumber (Go.b58DivMod rem bs).1 + (Go.b58DivMod rem bs).2 =
        rem * 256 ^ bs.length + beNumber bs ∧
      (Go.b58DivMod rem bs).2 < 58 ∧ (Go.b58DivMod rem bs).1.length = bs.length := by
  induction bs generalizing rem with
  | nil => simpa [Go.b58DivMod, beNumber] using hrem
  | cons b bs ih =>
    have hb := b.toNat_lt
    obtain ⟨hvalue, hlt, hlen⟩ := ih (Nat.mod_lt (rem * 256 + b.toNat) (by decide : 0 < 58))
    have hq : (UInt8.ofNat ((rem * 256 + b.toNat) / 58)).toNat = (rem * 256 + b.toNat) / 58 :=
      toNat_ofNat_of_lt (by omega)
    rw [Go.b58DivMod]
    refine ⟨?_, hlt, by rw [List.length_cons, hlen, List.length_cons]⟩
    rw [beNumber_cons, hq, hlen, beNumber_cons, List.length_cons]
    calc 58 * ((rem * 256 + b.toNat) / 58 * 256 ^ bs.length +
          beNumber (Go.b58DivMod ((rem * 256 + b.toNat) % 58) bs).1) +
          (Go.b58DivMod ((rem * 256 + b.toNat) % 58) bs).2
        = 58 * ((rem * 256 + b.toNat) / 58) * 256 ^ bs.length +
          (58 * beNumber (Go.b58DivMod ((rem * 256 + b.toNat) % 58) bs).1 +
            (Go.b58DivMod ((rem * 256 + b.toNat) % 58) bs).2) := by ring
      _ = (58 * ((rem * 256 + b.toNat) / 58) + (rem * 256 + b.toNat) % 58) * 256 ^ bs.length +
          beNumber bs := by rw [hvalue]; ring
      _ = rem * 256 ^ (bs.length + 1) + (b.toNat * 256 ^ bs.length + beNumber bs) := by
        rw [Nat.div_add_mod]; ring

/-- The encoding loop writes the digits of the number, least significant first. -/
theorem b58EncodeLoop_eq {fuel n : Nat} (h : n < 58 ^ fuel) :
    Go.b58EncodeLoop fuel (leBytes n).reverse =
      (Nat.digits 58 n).map fun d => Go.b58Alphabet.getD d 0 := by
  induction fuel generalizing n with
  | zero =>
    obtain rfl : n = 0 := by simpa using h
    rfl
  | succ fuel ih =>
    by_cases h0 : n = 0
    · subst h0
      rfl
    · have hpos : 0 < n := Nat.pos_of_ne_zero h0
      have hne : (leBytes n).reverse ≠ [] := by rw [leBytes_pos hpos]; simp
      obtain ⟨b, bs, hbs⟩ := List.exists_cons_of_ne_nil hne
      obtain ⟨hvalue, hlt, -⟩ := b58DivMod_eq (by decide : 0 < 58) (b :: bs)
      rw [← hbs, beNumber_leBytes, Nat.zero_mul, Nat.zero_add] at hvalue
      have hdiv : beNumber (Go.b58DivMod 0 (leBytes n).reverse).1 = n / 58 := by
        rw [hbs] at hvalue ⊢
        omega
      have hmod : (Go.b58DivMod 0 (leBytes n).reverse).2 = n % 58 := by
        rw [hbs] at hvalue ⊢
        omega
      have hrest : n / 58 < 58 ^ fuel := by
        rw [pow_succ] at h
        exact Nat.div_lt_of_lt_mul (by omega)
      rw [Nat.digits_def' (by decide) hpos, List.map_cons, ← ih hrest, ← hdiv, ← hmod, hbs,
        Go.b58EncodeLoop, ← dropWhile_zero]

theorem b58encode_eq {b : UInt8} {bs : Bytes} (hb : b ≠ 0) :
    Go.b58encode (b :: bs) = ((Nat.digits 58 (beNumber (b :: bs))).map
      fun d => Go.b58Alphabet.getD d 0).reverse := by
  have hdata : b :: bs = (leBytes (beNumber (b :: bs))).reverse := by
    rw [← dropWhile_zero, List.dropWhile_cons_of_neg (by simpa using hb)]
  have hfuel : beNumber (b :: bs) < 58 ^ (2 * (b :: bs).length) := by
    rw [pow_mul]
    exact (beNumber_lt _).trans_le (Nat.pow_le_pow_left (by decide) _)
  have hloop := b58EncodeLoop_eq hfuel
  rw [← hdata] at hloop
  rw [Go.b58encode, List.takeWhile_cons_of_neg (by simpa using hb)]
  simp only [List.length_nil, List.replicate_zero, List.nil_append, List.drop_zero, hloop]

theorem b58Number_append (G : Python.Runtime) (n : Nat) (s t : Text) :
    Python.b58Number G n (s ++ t) = Python.b58Number G n s >>= fun m => Python.b58Number G m t := by
  induction s generalizing n with
  | nil => rfl
  | cons c s ih =>
    rw [List.cons_append, Python.b58Number, Python.b58Number]
    cases Python.base58Index c with
    | none => rfl
    | some i => exact ih _

/-- The character of a digit. -/
def b58Char (d : Nat) : CodePoint := latin (Go.b58Alphabet.getD d 0)

theorem base58Index_b58Char {d : Nat} (h : d < 58) : Python.base58Index (b58Char d) = some d := by
  have hall : ∀ i : Fin 58, Go.b58Index (Go.b58Alphabet.getD i.val 0) = some i.val := by
    decide
  rw [b58Char, base58Index_latin]
  exact hall ⟨d, h⟩

example : b58Char 9 = 65 := by decide

/-- Reading the digits of a number gives the number. -/
theorem b58Number_digits (G : Python.Runtime) (n : Nat) :
    Python.b58Number G 0 ((Nat.digits 58 n).map b58Char).reverse = .ok n := by
  induction n using Nat.strong_induction_on with
  | _ n ih =>
    by_cases h0 : n = 0
    · subst h0
      rfl
    · have hpos : 0 < n := Nat.pos_of_ne_zero h0
      rw [Nat.digits_def' (by decide) hpos, List.map_cons, List.reverse_cons, b58Number_append,
        ih (n / 58) (by omega), ok_bind, Python.b58Number,
        base58Index_b58Char (Nat.mod_lt _ (by decide))]
      show Except.ok (n / 58 * 58 + n % 58) = _
      rw [Nat.div_add_mod']

/-- The digits above position `k` are those of the quotient. -/
theorem digits_split {k n : Nat} (h : 0 < n / 58 ^ k) :
    ∃ l, Nat.digits 58 n = l ++ Nat.digits 58 (n / 58 ^ k) := by
  induction k generalizing n with
  | zero => exact ⟨[], by rw [pow_zero, Nat.div_one, List.nil_append]⟩
  | succ k ih =>
    have hquot : n / 58 / 58 ^ k = n / 58 ^ (k + 1) := by rw [Nat.div_div_eq_div_mul, pow_succ']
    have hpos : 0 < n := Nat.pos_of_ne_zero fun h0 => by simp [h0] at h
    obtain ⟨l, hl⟩ := ih (n := n / 58) (by rwa [hquot])
    exact ⟨n % 58 :: l, by
      rw [Nat.digits_def' (by decide) hpos, hl, hquot, List.cons_append]⟩

/-- The number of a key with its multicodec mark starts with the digits of `6Mk`. -/
theorem digits_marked {pub : Bytes} (hlen : pub.length = 32) :
    ∃ l, Nat.digits 58 (beNumber (0xED :: 0x01 :: pub)) = l ++ [43, 20, 5] := by
  have hlt := beNumber_lt pub
  have hvalue : beNumber (0xED :: 0x01 :: pub) = 0xED01 * 256 ^ 32 + beNumber pub := by
    rw [beNumber_cons, beNumber_cons, List.length_cons, hlen]
    have hed : (0xED : UInt8).toNat = 0xED := rfl
    have h01 : (0x01 : UInt8).toNat = 0x01 := rfl
    rw [hed, h01]
    ring
  rw [hlen] at hlt
  have hquot : beNumber (0xED :: 0x01 :: pub) / 58 ^ 44 = 18023 := by
    rw [hvalue]
    generalize beNumber pub = x at hlt
    norm_num at hlt ⊢
    omega
  obtain ⟨l, hl⟩ := digits_split (k := 44) (n := beNumber (0xED :: 0x01 :: pub)) (by
    rw [hquot]
    decide)
  have htop : Nat.digits 58 18023 = [43, 20, 5] := by norm_num
  exact ⟨l, by rw [hl, hquot, htop]⟩

/-- A key that Go has encoded parses to the key. -/
theorem parsePublicKey_of_encodePubKey (G : Python.Runtime) {pub enc : Bytes}
    (h : Go.encodePubKey pub = .ok enc) :
    Python.parsePublicKey G (enc.map latin) = .ok pub ∧ (∀ b ∈ enc, b.toNat < 0x80) ∧
      pub.length = 32 := by
  simp only [Go.encodePubKey, guard_eq_ok, pure_eq_ok, not_not] at h
  obtain ⟨hlen, rfl⟩ := h
  have hencode := @b58encode_eq _ (0x01 :: pub) (by decide : (0xED : UInt8) ≠ 0)
  have htext : (Go.b58encode (0xED :: 0x01 :: pub)).map latin =
      ((Nat.digits 58 (beNumber (0xED :: 0x01 :: pub))).map b58Char).reverse := by
    rw [hencode, List.map_reverse, List.map_map]
    rfl
  obtain ⟨l, hl⟩ := digits_marked hlen
  have hmark : (Go.b58encode (0xED :: 0x01 :: pub)).map latin =
      [b58Char 5, b58Char 20, b58Char 43] ++ (l.map b58Char).reverse := by
    rw [htext, hl, List.map_append, List.reverse_append]
    rfl
  have hbytes : Python.toBytesBig (beNumber (0xED :: 0x01 :: pub)) = 0xED :: 0x01 :: pub := by
    rw [toBytesBig_eq, ← dropWhile_zero, List.dropWhile_cons_of_neg (by decide)]
  have hleading : ((Go.b58encode (0xED :: 0x01 :: pub)).map latin).takeWhile (· == 49) = [] := by
    rw [hmark, List.cons_append, List.takeWhile_cons_of_neg (by decide)]
  refine ⟨parsePublicKey_of_b58decode ?_ ?_ hlen, ?_, hlen⟩
  · have hmk : text "z6Mk" = [latin 0x7A, b58Char 5, b58Char 20, b58Char 43] := by
      decide
    rw [List.map_cons, hmark, hmk]
    exact List.isPrefixOf_iff_prefix.mpr (List.prefix_append _ _)
  · have hnumber := b58Number_digits G (beNumber (0xED :: 0x01 :: pub))
    rw [← htext] at hnumber
    rw [List.map_cons, List.drop_one, List.tail_cons, Python.b58decode, hnumber, ok_bind,
      hleading, hbytes]
    rfl
  · have hall : ∀ i : Fin 58, (Go.b58Alphabet.getD i.val 0).toNat < 0x80 := by decide
    intro b hb
    rcases List.mem_cons.mp hb with rfl | hb
    · decide
    · rw [hencode, List.mem_reverse] at hb
      obtain ⟨d, hd, rfl⟩ := List.mem_map.mp hb
      exact hall ⟨d, Nat.digits_lt_base (by decide) hd⟩

end Shadownet.Interop
