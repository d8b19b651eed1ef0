import Shadownet.Identifiers.Domains
import Shadownet.Interop.Base58
import Shadownet.Python.Binding

/-!
# The codec of public keys

`EncodePubKey` and `DecodePubKey` invert each other. A base58 text whose first digit is not
zero is the text of one number only, and the number of 34 bytes that start with the multicodec
mark is the number of one key only.

* `decodePubKey_encodePubKey`: every key decodes from its identifier.
* `encodePubKey_decodePubKey`: every accepted identifier is the one its key has.
-/

namespace Shadownet.Identifiers

open Foundation Interop

/-! ## Base58 texts and their digits -/

theorem b58Char_of_index {c : CodePoint} {d : Nat} (h : Python.base58Index c = some d) :
    d < 58 ∧ c = b58Char d := by
  simp only [Python.base58Index] at h
  split_ifs at h with hlt
  obtain rfl := Option.some.inj h
  have hlen : Python.base58Alphabet.length = 58 := by decide
  have hget : Python.base58Alphabet[Python.base58Alphabet.idxOf c]? = some c :=
    List.getElem?_idxOf (List.idxOf_lt_length_iff.mp (by omega))
  rw [base58Alphabet_eq, List.getElem?_map] at hget
  obtain ⟨b, hb, rfl⟩ := Option.map_eq_some_iff.mp hget
  rw [← base58Alphabet_eq] at hb
  refine ⟨hlt, ?_⟩
  rw [b58Char, List.getD_eq_getElem?_getD, hb, Option.getD_some]

/-- A text that is read as a number is written in its digits. -/
theorem b58Number_eq_ok {G : Python.Runtime} {t : Text} {n m : Nat}
    (h : Python.b58Number G n t = .ok m) :
    ∃ ds : List Nat, t = ds.map b58Char ∧ (∀ d ∈ ds, d < 58) ∧
      m = Nat.ofDigits 58 ds.reverse + n * 58 ^ ds.length := by
  induction t generalizing n with
  | nil =>
    obtain rfl := pure_eq_ok.mp h
    exact ⟨[], rfl, by simp, by simp⟩
  | cons c t ih =>
    rw [Python.b58Number] at h
    cases hi : Python.base58Index c with
    | none =>
      rw [hi] at h
      cases h
    | some d =>
      rw [hi] at h
      obtain ⟨ds, rfl, hlt, rfl⟩ := ih h
      obtain ⟨hd, rfl⟩ := b58Char_of_index hi
      refine ⟨d :: ds, rfl, List.forall_mem_cons.mpr ⟨hd, hlt⟩, ?_⟩
      rw [List.reverse_cons, Nat.ofDigits_append, Nat.ofDigits_singleton, List.length_reverse,
        List.length_cons]
      ring

/-- A text that does not start with the digit zero is the text of its number. -/
theorem digits_of_b58Number {G : Python.Runtime} {t : Text} {m d : Nat} (hd : d ≠ 0) (hlt : d < 58)
    (h : Python.b58Number G 0 (b58Char d :: t) = .ok m) :
    b58Char d :: t = ((Nat.digits 58 m).map b58Char).reverse := by
  rw [Python.b58Number, base58Index_b58Char hlt] at h
  obtain ⟨ds, rfl, hds, rfl⟩ := b58Number_eq_ok h
  have hvalue : Nat.ofDigits 58 ds.reverse + (0 * 58 + d) * 58 ^ ds.length =
      Nat.ofDigits 58 (d :: ds).reverse := by
    rw [List.reverse_cons, Nat.ofDigits_append, Nat.ofDigits_singleton, List.length_reverse]
    ring
  have hdigits : Nat.digits 58 (Nat.ofDigits 58 (d :: ds).reverse) = (d :: ds).reverse := by
    refine Nat.digits_ofDigits 58 (by decide) _ (fun x hx => ?_) fun hne => ?_
    · rcases List.mem_cons.mp (List.mem_reverse.mp hx) with rfl | hx
      · exact hlt
      · exact hds x hx
    · rw [List.getLast_reverse]
      exact hd
  rw [hvalue, hdigits, ← List.map_reverse, List.reverse_reverse, List.map_cons]

/-! ## From Python to Go -/

theorem b58DecodeLoop_of_number (G : Go.Runtime) {G' : Python.Runtime} {s : Bytes} {i n m : Nat}
    (h : Python.b58Number G' n (s.map latin) = .ok m) :
    Go.b58DecodeLoop G i (leBytes n) s = .ok (leBytes m) := by
  induction s generalizing i n with
  | nil =>
    obtain rfl := pure_eq_ok.mp h
    rfl
  | cons b s ih =>
    rw [List.map_cons, Python.b58Number, base58Index_latin] at h
    rw [Go.b58DecodeLoop]
    cases hi : Go.b58Index b with
    | none =>
      rw [hi] at h
      cases h
    | some v =>
      rw [hi] at h
      simp only [b58MulAdd_leBytes]
      rw [Nat.add_comm v, Nat.mul_comm 58]
      exact ih h

/-- A text without leading ones decodes in Go to the bytes of its number. -/
theorem b58decode_of_number (G : Go.Runtime) {G' : Python.Runtime} {b : UInt8} {s : Bytes}
    {m : Nat} (hb : b ≠ 0x31) (h : Python.b58Number G' 0 ((b :: s).map latin) = .ok m) :
    Go.b58decode G (b :: s) = .ok (leBytes m).reverse := by
  have hnone : (b :: s).takeWhile (· == 0x31) = [] := List.takeWhile_cons_of_neg (by simpa using hb)
  have hloop : Go.b58DecodeLoop G 0 [] (b :: s) = .ok (leBytes m) := b58DecodeLoop_of_number G h
  rw [Go.b58decode, hnone, List.length_nil, List.drop_zero, hloop]
  rfl

theorem z6Mk_prefix_latin (s : Bytes) :
    (text "z6Mk").isPrefixOf (s.map latin) = (bytes "z6Mk").isPrefixOf s := by
  have hmk : text "z6Mk" = (bytes "z6Mk").map latin := by decide
  rw [Bool.eq_iff_iff, List.isPrefixOf_iff_prefix, List.isPrefixOf_iff_prefix, hmk,
    List.prefix_map_iff_of_injective latin_injective]

/-- An identifier whose number has the bytes of a marked key decodes to the key. -/
theorem decodePubKey_of_number (G : Go.Runtime) {G' : Python.Runtime} {s k : Bytes} {m : Nat}
    (hp : (bytes "z6Mk").isPrefixOf s = true)
    (hm : Python.b58Number G' 0 ((s.drop 1).map latin) = .ok m)
    (hk : (leBytes m).reverse = 0xED :: 0x01 :: k) (hlen : k.length = 32) :
    Go.decodePubKey G s = .ok k := by
  obtain ⟨r, rfl⟩ := List.isPrefixOf_iff_prefix.mp hp
  have hdec : Go.b58decode G ((bytes "z6Mk" ++ r).drop 1) = .ok (0xED :: 0x01 :: k) := by
    rw [← hk]
    exact b58decode_of_number G (by decide) hm
  rw [Go.decodePubKey, if_neg (by simp [hp]), hdec]
  simp [Except.mapError, ok_bind, hlen, pure, Except.pure]

/-- What Python accepts as a public key, Go decodes. -/
theorem decodePubKey_of_validate (G : Go.Runtime) {G' : Python.Runtime} {s : Bytes} {t : Text}
    (h : Python.validateMultibasePk G' (s.map latin) = .ok t) :
    ∃ k, Go.decodePubKey G s = .ok k := by
  simp only [Python.validateMultibasePk, guard_eq_ok, bind_eq_ok, pure_eq_ok, not_not] at h
  obtain ⟨hp, raw, hraw, hlen, -⟩ := h
  simp only [Python.reraise_eq_ok, bind_eq_ok, Python.decodeMultibaseZ, Python.stripMulticodec,
    Python.b58decode, guard_eq_ok, pure_eq_ok, not_not] at hraw
  obtain ⟨dec, ⟨-, m, hm, hdec⟩, htake, rfl⟩ := hraw
  rw [z6Mk_prefix_latin] at hp
  obtain ⟨r, rfl⟩ := List.isPrefixOf_iff_prefix.mp hp
  have hones : ((((bytes "z6Mk" ++ r).map latin).drop 1).takeWhile (· == 49)).length = 0 := by
    rw [map_latin_z6Mk]
    rfl
  rw [hones, toBytesBig_eq] at hdec
  refine ⟨dec.drop 2, decodePubKey_of_number G hp (by rw [List.map_drop]; exact hm) ?_ hlen⟩
  have hsplit := List.take_append_drop 2 dec
  rw [htake] at hsplit
  exact hdec.trans hsplit.symm

/-! ## The two directions -/

/-- The identifier of a key, digit by digit. -/
theorem encodePubKey_digits {k s : Bytes} (h : Go.encodePubKey k = .ok s) :
    ∃ ds, Nat.digits 58 (beNumber (0xED :: 0x01 :: k)) = ds ++ [43, 20, 5] ∧
      s = bytes "z6Mk" ++ (ds.map fun d => Go.b58Alphabet.getD d 0).reverse ∧ k.length = 32 := by
  simp only [Go.encodePubKey, guard_eq_ok, pure_eq_ok, not_not] at h
  obtain ⟨hlen, rfl⟩ := h
  obtain ⟨ds, hds⟩ := digits_marked hlen
  refine ⟨ds, hds, ?_, hlen⟩
  rw [@b58encode_eq _ (0x01 :: k) (by decide : (0xED : UInt8) ≠ 0), hds, List.map_append,
    List.reverse_append]
  rfl

/-- Every key decodes from its identifier. -/
theorem decodePubKey_encodePubKey (G : Go.Runtime) {k s : Bytes} (h : Go.encodePubKey k = .ok s) :
    Go.decodePubKey G s = .ok k := by
  obtain ⟨ds, hds, rfl, hlen⟩ := encodePubKey_digits h
  have hp : (bytes "z6Mk").isPrefixOf
      (bytes "z6Mk" ++ (ds.map fun d => Go.b58Alphabet.getD d 0).reverse) = true :=
    List.isPrefixOf_iff_prefix.mpr (List.prefix_append _ _)
  have hnumber := b58Number_digits Python.bareRuntime (beNumber (0xED :: 0x01 :: k))
  refine @decodePubKey_of_number G Python.bareRuntime _ _ (beNumber (0xED :: 0x01 :: k)) hp ?_ ?_
    hlen
  · rw [← hnumber, hds, List.map_append, List.reverse_append, List.map_drop, List.map_append,
      List.map_reverse, List.map_map]
    rfl
  · rw [← dropWhile_zero, List.dropWhile_cons_of_neg (by decide)]

/-- Every accepted identifier is the one its key has. -/
theorem encodePubKey_decodePubKey {G : Go.Runtime} {s k : Bytes} (h : Go.decodePubKey G s = .ok k) :
    Go.encodePubKey k = .ok s := by
  simp only [Go.decodePubKey, guard_eq_ok, bind_eq_ok, mapError_eq_ok, pure_eq_ok, not_not,
    Go.b58decode] at h
  obtain ⟨hp, dec, ⟨out, hloop, hdec⟩, -, htake, hlen, rfl⟩ := h
  obtain ⟨r, rfl⟩ := List.isPrefixOf_iff_prefix.mp hp
  have hrest : (bytes "z6Mk" ++ r).drop 1 = bytes "6Mk" ++ r := rfl
  have hnone : ((bytes "6Mk" ++ r).takeWhile (· == 0x31)).length = 0 := rfl
  rw [hrest, hnone, List.drop_zero] at hloop
  rw [hrest, hnone] at hdec
  obtain ⟨m, rfl, hm⟩ := b58DecodeLoop_eq_ok Python.bareRuntime (n := 0) hloop
  have hmark : dec = 0xED :: 0x01 :: dec.drop 2 := by
    conv_lhs => rw [← List.take_append_drop 2 dec, htake]
    rfl
  have hvalue : beNumber (0xED :: 0x01 :: dec.drop 2) = m := by
    rw [← hmark, ← hdec]
    exact beNumber_leBytes m
  have hsix : (bytes "6Mk" ++ r).map latin = b58Char 5 :: (bytes "Mk" ++ r).map latin := by
    rfl
  rw [hsix] at hm
  have hdigits := digits_of_b58Number (by decide) (by decide) hm
  rw [Go.encodePubKey, if_neg (by simp [hlen]),
    @b58encode_eq _ (0x01 :: dec.drop 2) (by decide : (0xED : UInt8) ≠ 0), hvalue]
  have hinj : (bytes "6Mk" ++ r).map latin =
      (((Nat.digits 58 m).map fun d => Go.b58Alphabet.getD d 0).reverse).map latin := by
    rw [hsix, hdigits, List.map_reverse, List.map_map]
    rfl
  rw [← List.map_injective_iff.mpr latin_injective hinj]
  rfl

theorem classify_of_decodePubKey {G : Go.Runtime} {s k : Bytes} (h : Go.decodePubKey G s = .ok k) :
    Go.classify G s = .pubKey := by
  have hat : s.contains 0x40 = false := by
    rw [Bool.eq_false_iff, Ne, List.contains_iff_mem]
    exact fun hin => absurd (Go.alphabet_of_decodePubKey h _ hin) (by decide)
  have hp : (bytes "z6Mk").isPrefixOf s = true := by
    simp only [Go.decodePubKey, guard_eq_ok, not_not] at h
    exact h.1
  rw [Go.classify, hat, hp, h]
  rfl

/-- The codec is a bijection between the keys of 32 bytes and the identifiers it accepts, which
start with `z6Mk` and are neither domains nor Shadownames. -/
theorem pubKey_codec (G : Go.Runtime) :
    (∀ k : Bytes, k.length = 32 → ∃ s, Go.encodePubKey k = .ok s ∧ bytes "z6Mk" <+: s ∧
      Go.classify G s = .pubKey ∧ Go.decodePubKey G s = .ok k) ∧
    (∀ s k : Bytes, Go.decodePubKey G s = .ok k → Go.encodePubKey k = .ok s) ∧
    (∀ s s' k k' : Bytes, Go.decodePubKey G s = .ok k → Go.decodePubKey G s' = .ok k' →
      (k = k' ↔ s = s')) ∧
    (∀ s k : Bytes, Go.decodePubKey G s = .ok k → Go.classify G s ≠ .domain ∧
      Go.classify G s ≠ .shadowname ∧ ¬ (Go.splitShadowname G s).isOk) := by
  refine ⟨fun k hk => ?_, fun s k => encodePubKey_decodePubKey, fun s s' k k' hs hs' => ?_,
    fun s k hs => ?_⟩
  · obtain ⟨s, hs⟩ : ∃ s, Go.encodePubKey k = .ok s :=
      ⟨_, by rw [Go.encodePubKey, if_neg (by omega)]; rfl⟩
    obtain ⟨ds, -, hprefix, -⟩ := encodePubKey_digits hs
    have hdec := decodePubKey_encodePubKey G hs
    exact ⟨s, hs, hprefix ▸ List.prefix_append _ _, classify_of_decodePubKey hdec, hdec⟩
  · constructor
    · rintro rfl
      have henc := (encodePubKey_decodePubKey hs).symm.trans (encodePubKey_decodePubKey hs')
      exact Except.ok.inj henc
    · rintro rfl
      exact Except.ok.inj (hs.symm.trans hs')
  · have hclass := classify_of_decodePubKey hs
    refine ⟨by simp [hclass], by simp [hclass], fun hok => ?_⟩
    obtain ⟨parts, hparts⟩ := isOk_iff.mp hok
    rw [Go.splitShadowname, Go.splitAt] at hparts
    split_ifs at hparts with hat
    · exact absurd (Go.alphabet_of_decodePubKey hs _ (List.contains_iff_mem.mp hat))
        (by decide)

/-- The key of zero bytes and its identifier. -/
theorem pubKey_codec_zeros :
    (∃ s, Go.encodePubKey (List.replicate 32 0) = .ok s ∧ bytes "z6Mk" <+: s ∧
      Go.classify letterRuntime s = .pubKey ∧
      Go.decodePubKey letterRuntime s = .ok (List.replicate 32 0)) ∧
    Go.encodePubKey (List.replicate 32 0) =
      .ok (bytes "z6MkeTG3bFFSLYVU7VqhgZxqr6YzpaGrQtFMh1uvqGy1vDnP") :=
  ⟨(pubKey_codec letterRuntime).1 _ rfl,
    (pubKey_codec letterRuntime).2.1 _ _ (by decide)⟩

end Shadownet.Identifiers
