import Shadownet.Foundation.Outcome
import Shadownet.Foundation.Unicode

/-!
# Base64url without padding

`base64Url` is the encoder. There are two decoders, since programs differ on what they
tolerate:

* `rawUrlDecode` reads exactly the URL alphabet, without padding, and skips line ends;
* `lenientDecode` is the state machine of CPython's `a2b_base64` over the union of the two
  alphabets: it skips every other character, and stops at a pad sequence.

Both invert the encoder (`rawUrlDecode_base64Url`, `lenientDecode_base64Url`); the second
one needs the text padded to a multiple of four.
-/

namespace Shadownet.Foundation

/-! ## Sextets -/

/-- The six-bit groups of a byte string, the last one filled up with zeros. -/
def sextets : Bytes → List Nat
  | a :: b :: c :: rest =>
    a.toNat / 4 :: (a.toNat % 4 * 16 + b.toNat / 16) ::
      (b.toNat % 16 * 4 + c.toNat / 64) :: c.toNat % 64 :: sextets rest
  | [a, b] => [a.toNat / 4, a.toNat % 4 * 16 + b.toNat / 16, b.toNat % 16 * 4]
  | [a] => [a.toNat / 4, a.toNat % 4 * 16]
  | [] => []

/-- The bytes of a list of sextets; a single sextet at the end is refused. -/
def unsextets : List Nat → Option Bytes
  | a :: b :: c :: d :: rest =>
    (unsextets rest).map fun bs =>
      UInt8.ofNat (a * 4 + b / 16) :: UInt8.ofNat (b % 16 * 16 + c / 4) ::
        UInt8.ofNat (c % 4 * 64 + d) :: bs
  | [a, b, c] => some [UInt8.ofNat (a * 4 + b / 16), UInt8.ofNat (b % 16 * 16 + c / 4)]
  | [a, b] => some [UInt8.ofNat (a * 4 + b / 16)]
  | [_] => none
  | [] => some []

theorem ofNat_of_eq {n : Nat} {a : UInt8} (h : n = a.toNat) : UInt8.ofNat n = a := by
  rw [h, UInt8.ofNat_toNat]

theorem sextets_lt (bs : Bytes) : ∀ x ∈ sextets bs, x < 64 := by
  induction bs using sextets.induct with
  | case1 a b c rest ih =>
    have := a.toNat_lt
    have := b.toNat_lt
    have := c.toNat_lt
    simp only [sextets, List.mem_cons]
    rintro x (rfl | rfl | rfl | rfl | hx)
    · omega
    · omega
    · omega
    · omega
    · exact ih x hx
  | case2 a b =>
    have := a.toNat_lt
    have := b.toNat_lt
    simp only [sextets, List.mem_cons, List.not_mem_nil, or_false]
    omega
  | case3 a =>
    have := a.toNat_lt
    simp only [sextets, List.mem_cons, List.not_mem_nil, or_false]
    omega
  | case4 => simp [sextets]

theorem unsextets_sextets (bs : Bytes) : unsextets (sextets bs) = some bs := by
  induction bs using sextets.induct with
  | case1 a b c rest ih =>
    have := b.toNat_lt
    have := c.toNat_lt
    rw [sextets, unsextets, ih, Option.map_some, Option.some.injEq]
    congr
    · exact ofNat_of_eq (by omega)
    · exact ofNat_of_eq (by omega)
    · exact ofNat_of_eq (by omega)
  | case2 a b =>
    have := b.toNat_lt
    rw [sextets, unsextets, Option.some.injEq]
    congr
    · exact ofNat_of_eq (by omega)
    · exact ofNat_of_eq (by omega)
  | case3 a =>
    rw [sextets, unsextets, Option.some.injEq]
    congr
    exact ofNat_of_eq (by omega)
  | case4 => rfl

theorem length_of_unsextets {xs : List Nat} {bs : Bytes} (h : unsextets xs = some bs) :
    bs.length = xs.length * 3 / 4 := by
  induction xs using unsextets.induct generalizing bs with
  | case1 a b c d rest ih =>
    obtain ⟨bs, hbs, rfl⟩ := Option.map_eq_some_iff.mp h
    have := ih hbs
    simp only [List.length_cons]
    omega
  | case2 a b c =>
    rw [← Option.some.inj h]
    simp
  | case3 a b =>
    rw [← Option.some.inj h]
    simp
  | case4 => cases h
  | case5 =>
    rw [← Option.some.inj h]
    simp

/-- The bits of the last sextet that no byte uses are zero. -/
def ClearTail : List Nat → Prop
  | _ :: _ :: _ :: _ :: rest => ClearTail rest
  | [_, _, c] => c % 4 = 0
  | [_, b] => b % 16 = 0
  | _ => True

/-- Sextets are those of the bytes they stand for when they end in clear bits. -/
theorem sextets_unsextets {xs : List Nat} (hx : ∀ x ∈ xs, x < 64) {bs : Bytes}
    (h : unsextets xs = some bs) : sextets bs = xs ↔ ClearTail xs := by
  have hnat : ∀ {n : Nat}, n < 256 → (UInt8.ofNat n).toNat = n := fun hn => by
    rw [UInt8.toNat_ofNat', Nat.mod_eq_of_lt hn]
  induction xs using unsextets.induct generalizing bs with
  | case1 a b c d rest ih =>
    simp only [List.forall_mem_cons] at hx
    obtain ⟨ha, hb, hc, hd, hrest⟩ := hx
    obtain ⟨bs, hbs, rfl⟩ := Option.map_eq_some_iff.mp h
    have hgroup : sextets (UInt8.ofNat (a * 4 + b / 16) :: UInt8.ofNat (b % 16 * 16 + c / 4) ::
        UInt8.ofNat (c % 4 * 64 + d) :: bs) = a :: b :: c :: d :: sextets bs := by
      rw [sextets, hnat (by omega), hnat (by omega), hnat (by omega)]
      simp only [List.cons.injEq, and_true]
      omega
    rw [hgroup, ClearTail]
    simp only [List.cons.injEq, true_and]
    exact ih hrest hbs
  | case2 a b c =>
    simp only [List.forall_mem_cons] at hx
    obtain ⟨ha, hb, hc, -⟩ := hx
    rw [← Option.some.inj h, sextets, hnat (by omega), hnat (by omega), ClearTail]
    simp only [List.cons.injEq, and_true]
    omega
  | case3 a b =>
    simp only [List.forall_mem_cons] at hx
    obtain ⟨ha, hb, -⟩ := hx
    rw [← Option.some.inj h, sextets, hnat (by omega), ClearTail]
    simp only [List.cons.injEq, and_true]
    omega
  | case4 => cases h
  | case5 =>
    rw [← Option.some.inj h]
    exact iff_of_true rfl trivial

theorem clearTail_of_mod {xs : List Nat} (h : xs.length % 4 = 3) :
    ClearTail xs ↔ (xs.getLastD 0) % 4 = 0 := by
  induction xs using unsextets.induct with
  | case1 a b c d rest ih =>
    simp only [List.length_cons] at h
    have hne : rest ≠ [] := by
      rintro rfl
      simp at h
    have hlast : (a :: b :: c :: d :: rest).getLastD 0 = rest.getLastD 0 := by
      obtain ⟨e, rest, rfl⟩ := List.exists_cons_of_ne_nil hne
      rfl
    rw [ClearTail, hlast]
    exact ih (by omega)
  | case2 a b c => rfl
  | case3 a b => simp at h
  | case4 => simp at h
  | case5 => simp at h

/-! ## The alphabets -/

/-- The character of a sextet in the URL alphabet. -/
def sextetCode (n : Nat) : Nat :=
  if n < 26 then 65 + n
  else if n < 52 then 71 + n
  else if n < 62 then n - 4
  else if n = 62 then 45
  else 95

/-- The sextet of a letter or a digit. -/
def alphanumSextet (c : Nat) : Option Nat :=
  if 65 ≤ c ∧ c ≤ 90 then some (c - 65)
  else if 97 ≤ c ∧ c ≤ 122 then some (c - 71)
  else if 48 ≤ c ∧ c ≤ 57 then some (c + 4)
  else none

/-- The sextet of a character of the URL alphabet. -/
def urlSextet (c : Nat) : Option Nat :=
  if c = 45 then some 62 else if c = 95 then some 63 else alphanumSextet c

/-- The sextet of a character of the URL alphabet or the standard one. -/
def anySextet (c : Nat) : Option Nat :=
  if c = 43 then some 62 else if c = 47 then some 63 else urlSextet c

theorem urlSextet_sextetCode {n : Nat} (h : n < 64) : urlSextet (sextetCode n) = some n := by
  have : ∀ n < 64, urlSextet (sextetCode n) = some n := by decide
  exact this n h

theorem anySextet_sextetCode {n : Nat} (h : n < 64) : anySextet (sextetCode n) = some n := by
  have : ∀ n < 64, anySextet (sextetCode n) = some n := by decide
  exact this n h

theorem sextetCode_urlSextet {c x : Nat} (h : urlSextet c = some x) :
    x < 64 ∧ sextetCode x = c := by
  unfold urlSextet alphanumSextet at h
  split_ifs at h with h1 h2 h3 h4 h5
  all_goals
    rw [← Option.some.inj h, sextetCode]
    refine ⟨by omega, ?_⟩
    split_ifs <;> omega

theorem sextetCode_alphabet {n : Nat} (h : n < 64) :
    45 ≤ sextetCode n ∧ sextetCode n ≤ 122 ∧ sextetCode n ≠ 61 := by
  have : ∀ n < 64, 45 ≤ sextetCode n ∧ sextetCode n ≤ 122 ∧ sextetCode n ≠ 61 := by decide
  exact this n h

/-! ## The encoder -/

/-- Base64url without padding, as character codes. -/
def base64UrlCodes (bs : Bytes) : List Nat := (sextets bs).map sextetCode

/-- Base64url without padding. -/
def base64Url (bs : Bytes) : Text := (base64UrlCodes bs).map (Fin.ofNat 0x110000)

theorem base64Url_codes (bs : Bytes) : (base64Url bs).map Fin.val = base64UrlCodes bs := by
  rw [base64Url, base64UrlCodes, List.map_map, List.map_map]
  refine List.map_congr_left fun x hx => ?_
  have := sextetCode_alphabet (sextets_lt bs x hx)
  simp only [Function.comp_apply, Fin.ofNat]
  omega

/-- The encoder writes printable ASCII without `=`. -/
theorem base64Url_mem {bs : Bytes} {c : CodePoint} (hc : c ∈ base64Url bs) :
    45 ≤ c.val ∧ c.val ≤ 122 ∧ c.val ≠ 61 := by
  have hm : c.val ∈ base64UrlCodes bs := by
    rw [← base64Url_codes]
    exact List.mem_map_of_mem hc
  obtain ⟨x, hx, he⟩ := List.mem_map.mp hm
  rw [← he]
  exact sextetCode_alphabet (sextets_lt bs x hx)

theorem dot_not_mem_base64Url (bs : Bytes) : (46 : CodePoint) ∉ base64Url bs := by
  intro h
  have hcode : 46 ∈ base64UrlCodes bs := by
    rw [← base64Url_codes]
    exact List.mem_map_of_mem h
  obtain ⟨x, hx, hdot⟩ := List.mem_map.mp hcode
  have hne : ∀ n < 64, sextetCode n ≠ 46 := by decide
  exact hne x (sextets_lt bs x hx) hdot

theorem length_sextets (bs : Bytes) : (sextets bs).length = (bs.length * 4 + 2) / 3 := by
  induction bs using sextets.induct with
  | case1 a b c rest ih =>
    simp only [sextets, List.length_cons, ih]
    omega
  | case2 a b => simp [sextets]
  | case3 a => simp [sextets]
  | case4 => simp [sextets]

theorem length_base64Url (bs : Bytes) : (base64Url bs).length = (bs.length * 4 + 2) / 3 := by
  rw [base64Url, base64UrlCodes, List.length_map, List.length_map, length_sextets]

theorem base64Url_ne_nil {bs : Bytes} (h : bs ≠ []) : base64Url bs ≠ [] := by
  intro h0
  have h1 : sextets bs = [] := by
    simpa [base64Url, base64UrlCodes] using h0
  have h2 := unsextets_sextets bs
  rw [h1] at h2
  exact h (Option.some.inj h2).symm

/-! ## The strict decoder -/

/-- Go's `base64.RawURLEncoding.DecodeString`: line ends are skipped, everything else must
belong to the URL alphabet. -/
def rawUrlDecode (cs : List Nat) : Option Bytes :=
  ((cs.filter fun c => c ≠ 10 ∧ c ≠ 13).mapM urlSextet).bind unsextets

theorem mapM_map_some {α β γ : Type*} {f : α → β} {g : β → Option γ} {h : α → γ}
    {xs : List α} (hx : ∀ x ∈ xs, g (f x) = some (h x)) :
    (xs.map f).mapM g = some (xs.map h) := by
  induction xs with
  | nil => rfl
  | cons x xs ih =>
    rw [List.map_cons, List.mapM_cons, hx x (by simp), ih fun y hy => hx y (by simp [hy])]
    rfl

theorem rawUrlDecode_base64Url (bs : Bytes) : rawUrlDecode (base64UrlCodes bs) = some bs := by
  have hf : (base64UrlCodes bs).filter (fun c => c ≠ 10 ∧ c ≠ 13) = base64UrlCodes bs := by
    refine List.filter_eq_self.mpr fun c hc => ?_
    obtain ⟨x, hx, rfl⟩ := List.mem_map.mp hc
    have := sextetCode_alphabet (sextets_lt bs x hx)
    simp only [ne_eq, decide_eq_true_eq]
    omega
  have hm : (base64UrlCodes bs).mapM urlSextet = some (sextets bs) := by
    have hmap : ((sextets bs).map sextetCode).mapM urlSextet = some ((sextets bs).map id) :=
      mapM_map_some fun x hx => urlSextet_sextetCode (sextets_lt bs x hx)
    rwa [List.map_id] at hmap
  rw [rawUrlDecode, hf, hm, Option.bind_some, unsextets_sextets]

theorem base64Url_injective {bs cs : Bytes} (h : base64Url bs = base64Url cs) : bs = cs := by
  have hcodes : base64UrlCodes bs = base64UrlCodes cs := by
    rw [← base64Url_codes, h, base64Url_codes]
  have hdec := rawUrlDecode_base64Url bs
  rw [hcodes, rawUrlDecode_base64Url] at hdec
  exact (Option.some.inj hdec).symm

/-! ## The lenient decoder -/

/-- Why `lenientDecode` refuses a text: one character too many after `n` whole groups, or a
group that the padding does not complete. -/
inductive Base64Error where
  | dataChars (n : Nat)
  | padding
  deriving DecidableEq, Repr

/-- Where the decoder stands in a group of four: the position, the bits left over from the
last character, the pad characters seen since, and the number of bytes written. -/
structure Quad where
  pos : Nat
  left : Nat
  pads : Nat
  written : Nat
  deriving DecidableEq, Repr

/-- One data character: the byte it completes, if any, and the next position. -/
def Quad.push (q : Quad) (x : Nat) : Bytes × Quad :=
  match q.pos with
  | 0 => ([], ⟨1, x, 0, q.written⟩)
  | 1 => ([UInt8.ofNat (q.left * 4 + x / 16)], ⟨2, x % 16, 0, q.written + 1⟩)
  | 2 => ([UInt8.ofNat (q.left * 16 + x / 4)], ⟨3, x % 4, 0, q.written + 1⟩)
  | _ => ([UInt8.ofNat (q.left * 64 + x)], ⟨0, 0, 0, q.written + 1⟩)

/-- CPython's `a2b_base64` from the state `q`. -/
def lenientFrom (q : Quad) : List Nat → Except Base64Error Bytes
  | [] =>
    if q.pos = 0 then pure []
    else if q.pos = 1 then throw (.dataChars (q.written / 3 * 4 + 1))
    else throw .padding
  | c :: cs =>
    if c = 61 then
      if 2 ≤ q.pos then
        if 4 ≤ q.pos + (q.pads + 1) then pure []
        else lenientFrom { q with pads := q.pads + 1 } cs
      else lenientFrom q cs
    else
      match anySextet c with
      | none => lenientFrom q cs
      | some x => (lenientFrom (q.push x).2 cs).map ((q.push x).1 ++ ·)

def lenientDecode (cs : List Nat) : Except Base64Error Bytes := lenientFrom ⟨0, 0, 0, 0⟩ cs

/-- The characters that pad a text of length `n` to a multiple of four. -/
def base64Padding (n : Nat) : List Nat := List.replicate ((4 - n % 4) % 4) 61

theorem lenientFrom_sextet (q : Quad) {x : Nat} (hx : x < 64) (cs : List Nat) :
    lenientFrom q (sextetCode x :: cs) =
      (lenientFrom (q.push x).2 cs).map ((q.push x).1 ++ ·) := by
  rw [lenientFrom, if_neg (sextetCode_alphabet hx).2.2, anySextet_sextetCode hx]

/-- A whole group of four. -/
theorem lenientFrom_group {a b c d : Nat} (ha : a < 64) (hb : b < 64) (hc : c < 64)
    (hd : d < 64) (n : Nat) (cs : List Nat) :
    lenientFrom ⟨0, 0, 0, n⟩
        (sextetCode a :: sextetCode b :: sextetCode c :: sextetCode d :: cs) =
      (lenientFrom ⟨0, 0, 0, n + 3⟩ cs).map fun bs =>
        UInt8.ofNat (a * 4 + b / 16) :: UInt8.ofNat (b % 16 * 16 + c / 4) ::
          UInt8.ofNat (c % 4 * 64 + d) :: bs := by
  rw [lenientFrom_sextet _ ha, lenientFrom_sextet _ hb, lenientFrom_sextet _ hc,
    lenientFrom_sextet _ hd]
  simp only [Quad.push]
  cases lenientFrom ⟨0, 0, 0, n + 3⟩ cs <;> rfl

theorem base64Padding_add_four (n : Nat) : base64Padding (n + 1 + 1 + 1 + 1) = base64Padding n := by
  rw [base64Padding, base64Padding]
  congr 1
  omega

/-- On a padded text over the URL alphabet the lenient decoder gives the bytes of the
sextets. -/
theorem lenientFrom_sextets {xs : List Nat} (hx : ∀ x ∈ xs, x < 64) (n : Nat) (bs : Bytes) :
    lenientFrom ⟨0, 0, 0, n⟩ (xs.map sextetCode ++ base64Padding xs.length) = .ok bs ↔
      unsextets xs = some bs := by
  induction xs using unsextets.induct generalizing n bs with
  | case1 a b c d rest ih =>
    simp only [List.forall_mem_cons] at hx
    obtain ⟨ha, hb, hc, hd, hrest⟩ := hx
    simp only [List.map_cons, List.length_cons, List.cons_append, base64Padding_add_four]
    rw [lenientFrom_group ha hb hc hd, map_eq_ok, unsextets, Option.map_eq_some_iff]
    simp only [ih hrest]
  | case2 a b c =>
    simp only [List.forall_mem_cons] at hx
    obtain ⟨ha, hb, hc, -⟩ := hx
    simp only [List.map_cons, List.map_nil, List.cons_append, List.nil_append]
    rw [lenientFrom_sextet _ ha, lenientFrom_sextet _ hb, lenientFrom_sextet _ hc]
    simp [Quad.push, base64Padding, lenientFrom, Except.map, pure, Except.pure, unsextets]
  | case3 a b =>
    simp only [List.forall_mem_cons] at hx
    obtain ⟨ha, hb, -⟩ := hx
    simp only [List.map_cons, List.map_nil, List.cons_append, List.nil_append]
    rw [lenientFrom_sextet _ ha, lenientFrom_sextet _ hb]
    simp [Quad.push, base64Padding, lenientFrom, Except.map, pure, Except.pure, unsextets]
  | case4 a =>
    simp only [List.forall_mem_cons] at hx
    simp only [List.map_cons, List.map_nil, List.cons_append, List.nil_append]
    rw [lenientFrom_sextet _ hx.1]
    simp [Quad.push, base64Padding, List.replicate, lenientFrom, Except.map, unsextets, throw,
      throwThe, MonadExceptOf.throw]
  | case5 => simp [base64Padding, lenientFrom, unsextets]

/-- The lenient decoder inverts the encoder on a padded text. -/
theorem lenientDecode_base64Url (bs : Bytes) :
    lenientDecode (base64UrlCodes bs ++ base64Padding (base64UrlCodes bs).length) = .ok bs := by
  have hlen : (base64UrlCodes bs).length = (sextets bs).length := List.length_map _
  rw [hlen]
  exact (lenientFrom_sextets (sextets_lt bs) 0 bs).mpr (unsextets_sextets bs)

/-- A line end after the text counts for the padding: only whole groups are decoded. -/
theorem lenientFrom_lineEnd {xs : List Nat} (hx : ∀ x ∈ xs, x < 64) {n : Nat} {bs : Bytes}
    (h : lenientFrom ⟨0, 0, 0, n⟩ (xs.map sextetCode ++ 10 :: base64Padding (xs.length + 1)) =
      .ok bs) : bs.length % 3 = 0 := by
  have hskip : ∀ q cs, lenientFrom q (10 :: cs) = lenientFrom q cs := fun q cs => by
    rw [lenientFrom, if_neg (by decide)]
    rfl
  induction xs using unsextets.induct generalizing n bs with
  | case1 a b c d rest ih =>
    simp only [List.forall_mem_cons] at hx
    obtain ⟨ha, hb, hc, hd, hrest⟩ := hx
    have hpad : base64Padding (rest.length + 1 + 1 + 1 + 1 + 1) = base64Padding (rest.length + 1) :=
      base64Padding_add_four (rest.length + 1)
    simp only [List.map_cons, List.length_cons, List.cons_append, hpad] at h
    rw [lenientFrom_group ha hb hc hd, map_eq_ok] at h
    obtain ⟨cs, hcs, rfl⟩ := h
    have := ih hrest hcs
    simp only [List.length_cons]
    omega
  | case2 a b c =>
    simp only [List.forall_mem_cons] at hx
    obtain ⟨ha, hb, hc, -⟩ := hx
    simp only [List.map_cons, List.map_nil, List.cons_append, List.nil_append] at h
    rw [lenientFrom_sextet _ ha, lenientFrom_sextet _ hb, lenientFrom_sextet _ hc, hskip] at h
    simp [Quad.push, base64Padding, lenientFrom, Except.map, throw, throwThe,
      MonadExceptOf.throw] at h
  | case3 a b =>
    simp only [List.forall_mem_cons] at hx
    obtain ⟨ha, hb, -⟩ := hx
    simp only [List.map_cons, List.map_nil, List.cons_append, List.nil_append] at h
    rw [lenientFrom_sextet _ ha, lenientFrom_sextet _ hb, hskip] at h
    simp [Quad.push, base64Padding, lenientFrom, Except.map, throw, throwThe,
      MonadExceptOf.throw] at h
  | case4 a =>
    simp only [List.forall_mem_cons] at hx
    simp only [List.map_cons, List.map_nil, List.cons_append, List.nil_append] at h
    rw [lenientFrom_sextet _ hx.1, hskip] at h
    simp [Quad.push, base64Padding, List.replicate, lenientFrom, Except.map, throw, throwThe,
      MonadExceptOf.throw] at h
  | case5 =>
    simp only [List.map_nil, List.nil_append] at h
    rw [hskip] at h
    simp only [base64Padding, List.length_nil, Nat.zero_add, Nat.reduceMod, Nat.reduceSub,
      List.replicate, lenientFrom, Nat.reduceLeDiff, if_true, if_false] at h
    rw [← pure_eq_ok.mp h]
    rfl

end Shadownet.Foundation
