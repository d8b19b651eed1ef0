import Shadownet.Identifiers.Codec

/-!
# Canonical identifiers of the Python SDK

What `canonicalize_identifier` and `canonicalize_issuer_or_org_identifier` return, against the
grammar of canonical identifiers. Two characters get past the checks: `$` in a pattern also
stands before a newline at the end, and `str.lower` takes the Kelvin sign to the letter `k`.

* `canonicalizers_conform`: the returned text conforms exactly when neither is in the way.
-/

namespace Shadownet.Identifiers

open Foundation Interop

/-! ## The grammar -/

/-- `a-z0-9`. -/
def LowerAlnum (c : CodePoint) : Prop := 48 ≤ c.val ∧ c.val ≤ 57 ∨ 97 ≤ c.val ∧ c.val ≤ 122

structure LowerLabel (l : Text) : Prop where
  pos : 1 ≤ l.length
  short : l.length ≤ 63
  chars : ∀ c ∈ l, LowerAlnum c ∨ c = 45
  head : l.head? ≠ some 45
  last : l.getLast? ≠ some 45

structure LowerDomain (d : Text) : Prop where
  pos : 1 ≤ d.length
  short : d.length ≤ 253
  labels : ∀ l ∈ d.splitOn 46, LowerLabel l

structure LowerLocal (l : Text) : Prop where
  pos : 1 ≤ l.length
  short : l.length ≤ 63
  chars : ∀ c ∈ l, LowerAlnum c ∨ c = 95 ∨ c = 46 ∨ c = 45

/-- `local@provider`, both in lower case. -/
def CanonicalName (c : Text) : Prop := ∃ l d, c = l ++ 64 :: d ∧ LowerLocal l ∧ LowerDomain d

/-- The base58 text of `0xed01` and 32 bytes, after a `z`. -/
def KeyText (c : Text) : Prop :=
  text "z6Mk" <+: c ∧ ∃ k : Bytes, k.length = 32 ∧
    c = 122 :: ((Nat.digits 58 (beNumber (0xED :: 0x01 :: k))).map b58Char).reverse

/-! ## What `str.lower` does beyond ASCII -/

/-- The lower case of one character of a text: the Kelvin sign is the only one beyond ASCII whose
lower case is ASCII. -/
def LowerImage (c : CodePoint) (img : Text) : Prop :=
  if c.IsAscii then img = [Python.lowerAscii c]
  else if c = 0x212A then img = [107]
  else ∃ d ∈ img, ¬ d.IsAscii

/-- `str.lower` of a text that is not ASCII works character by character. -/
def LowersUnicode (G : Python.Runtime) : Prop :=
  ∀ s, ∃ imgs, List.Forall₂ LowerImage s imgs ∧ G.lowerUnicode s = imgs.flatten

variable {G : Python.Runtime}

theorem lower_images (hG : LowersUnicode G) (s : Text) :
    ∃ imgs, List.Forall₂ LowerImage s imgs ∧ G.lower s = imgs.flatten := by
  rw [Python.Runtime.lower]
  split_ifs with hascii
  · refine ⟨s.map fun c => [Python.lowerAscii c], ?_, ?_⟩
    · rw [List.forall₂_map_right_iff, List.forall₂_same]
      intro c hc
      rw [LowerImage, if_pos (of_decide_eq_true (List.all_eq_true.mp hascii c hc))]
    · rw [← List.flatMap_def, ← List.map_eq_flatMap]
  · exact hG s

/-- A text whose lower case is ASCII has ASCII characters and Kelvin signs. -/
theorem ascii_or_kelvin (hG : LowersUnicode G) {s : Text} (h : ∀ c ∈ G.lower s, c.IsAscii) :
    ∀ c ∈ s, c.IsAscii ∨ c = 0x212A := by
  obtain ⟨imgs, himgs, heq⟩ := lower_images hG s
  rw [heq] at h
  intro c hc
  clear heq
  induction himgs with
  | nil => cases hc
  | cons himg _ ih =>
    rename_i d img s imgs
    rw [List.flatten_cons] at h
    rcases List.mem_cons.mp hc with rfl | hc
    · by_contra hneither
      obtain ⟨hna, hnk⟩ := not_or.mp hneither
      rw [LowerImage, if_neg hna, if_neg hnk] at himg
      obtain ⟨e, he, hne⟩ := himg
      exact hne (h e (List.mem_append_left _ he))
    · exact ih (fun e he => h e (List.mem_append_right _ he)) hc

/-! ## Domains -/

/-- What `_validate_domain` keeps of its argument. -/
def domainCore (s : Text) : Text := Python.rstripDot (Python.strip s)

theorem validateDomain_ok_iff {s c : Text} :
    Python.validateDomain G s = .ok c ↔ G.lower (domainCore s) = c ∧ c ≠ [] ∧ c.length ≤ 253 ∧
      ∀ l ∈ c.splitOn 46, Python.labelRe l = true := by
  simp only [domainCore, Python.validateDomain, guard_eq_ok, not_or, Nat.not_lt]
  constructor
  · rintro ⟨hrange, h⟩
    split at h
    · exact (throw_eq_ok.mp h).elim
    next hfind =>
    obtain rfl := pure_eq_ok.mp h
    exact ⟨rfl, hrange.1, hrange.2, fun l hl => by simpa using List.find?_eq_none.mp hfind l hl⟩
  · rintro ⟨rfl, hne, hlen, hlabels⟩
    refine ⟨⟨hne, hlen⟩, ?_⟩
    rw [List.find?_eq_none.mpr fun l hl => by simp [hlabels l hl]]
    rfl

theorem LowerAlnum.isAlnum {c : CodePoint} (h : LowerAlnum c) : Python.isAlnum c = true := by
  simp only [LowerAlnum] at h
  simp only [Python.isAlnum, Bool.or_eq_true, Bool.and_eq_true, decide_eq_true_eq]
  omega

theorem LowerAlnum.ne_newline {c : CodePoint} (h : LowerAlnum c) : c ≠ 10 := by
  rintro rfl
  rw [LowerAlnum] at h
  exact absurd h (by decide)

theorem LowerAlnum.lowerAscii {c : CodePoint} (h : LowerAlnum c) : Python.lowerAscii c = c := by
  simp only [LowerAlnum] at h
  rw [Python.lowerAscii, if_neg (by omega)]

theorem lowerAlnum_lowerAscii {c : CodePoint} (h : Python.isAlnum c = true) :
    LowerAlnum (Python.lowerAscii c) := by
  simp only [Python.isAlnum, Bool.or_eq_true, Bool.and_eq_true, decide_eq_true_eq] at h
  rw [Python.lowerAscii]
  split_ifs with hup
  · have hval : (Fin.ofNat 0x110000 (c.val + 32)).val = c.val + 32 := Nat.mod_eq_of_lt (by omega)
    rw [LowerAlnum, hval]
    omega
  · rw [LowerAlnum]
    omega

theorem LowerLabel.labelBody {l : Text} (h : LowerLabel l) : LabelBody l where
  pos := h.pos
  short := h.short
  chars c hc := (h.chars c hc).imp LowerAlnum.isAlnum id
  head c hc := by
    rcases h.chars c (List.mem_of_mem_head? hc) with halnum | rfl
    · exact halnum.isAlnum
    · exact absurd hc h.head
  last c hc := by
    rcases h.chars c (List.mem_of_mem_getLast? hc) with halnum | rfl
    · exact halnum.isAlnum
    · exact absurd hc h.last

/-- A label that matches, in lower case and without a newline. -/
theorem lowerLabel_of_labelRe {l : Text} (h : Python.labelRe l = true) (hn : (10 : CodePoint) ∉ l)
    (hlower : ∀ c ∈ l, Python.lowerAscii c = c) : LowerLabel l := by
  rcases labelRe_iff.mp h with hb | ⟨t, rfl, -⟩
  · refine ⟨hb.pos, hb.short, fun c hc => ?_, fun hhead => ?_, fun hlast => ?_⟩
    · refine (hb.chars c hc).imp (fun halnum => ?_) id
      rw [← hlower c hc]
      exact lowerAlnum_lowerAscii halnum
    · exact absurd (hb.head 45 hhead) (by decide)
    · exact absurd (hb.last 45 hlast) (by decide)
  · exact absurd (List.mem_append_right t (List.mem_singleton.mpr rfl)) hn

theorem LowerDomain.mem {d : Text} (h : LowerDomain d) {c : CodePoint} (hc : c ∈ d) :
    LowerAlnum c ∨ c = 45 ∨ c = 46 := by
  rcases mem_splitOn_of_mem hc with rfl | ⟨l, hl, hcl⟩
  · exact .inr (.inr rfl)
  · exact ((h.labels l hl).chars c hcl).imp id .inl

theorem LowerDomain.newline_not_mem {d : Text} (h : LowerDomain d) : (10 : CodePoint) ∉ d := by
  intro hin
  rcases h.mem hin with h | h | h
  · exact h.ne_newline rfl
  all_goals exact absurd h (by decide)

theorem LowerDomain.ascii {d : Text} (h : LowerDomain d) : ∀ c ∈ d, c.IsAscii := by
  intro c hc
  rcases h.mem hc with h | rfl | rfl
  · exact isAlnum_ascii h.isAlnum
  all_goals decide

/-- A domain in lower case is its own canonical form. -/
theorem LowerDomain.validateDomain {d : Text} (h : LowerDomain d) (G : Python.Runtime) :
    Python.validateDomain G d = .ok d := by
  have hstrip : Python.strip d = d := Python.strip_eq_self fun c hc =>
    not_space ((h.mem hc).imp LowerAlnum.isAlnum id)
  have hdot : Python.rstripDot d = d := by
    have hlast : d.getLast? ≠ some 46 := getLast?_ne_of_splitOn fun l hl => by
      have := (h.labels l hl).pos
      exact List.length_pos_iff.mp this
    rcases List.eq_nil_or_concat' d with rfl | ⟨u, c, rfl⟩
    · rfl
    · have hc : ¬ (c == 46) = true := by
        rw [beq_iff_eq]
        rintro rfl
        exact hlast List.getLast?_concat
      rw [Python.rstripDot, List.reverse_concat, List.dropWhile_cons_of_neg (p := (· == 46)) hc,
        List.reverse_cons, List.reverse_reverse]
  have hlower : G.lower d = d := by
    rw [Python.Runtime.lower,
      if_pos (List.all_eq_true.mpr fun c hc => decide_eq_true (h.ascii c hc))]
    conv_rhs => rw [← List.map_id d]
    refine List.map_congr_left fun c hc => ?_
    rcases h.mem hc with h | rfl | rfl
    · exact h.lowerAscii
    all_goals rfl
  refine validateDomain_ok_iff.mpr ⟨by rw [domainCore, hstrip, hdot, hlower], ?_, h.short,
    fun l hl => ?_⟩
  · exact List.length_pos_iff.mp h.pos
  · exact labelRe_iff.mpr (.inl (h.labels l hl).labelBody)

/-- Without newlines and Kelvin signs. -/
def Plain (s : Text) : Prop := ∀ c ∈ s, c ≠ 10 ∧ c ≠ 0x212A

theorem plain_of_all {s : Text} (h : (s.all fun c => c.val != 10 && c.val != 0x212A) = true) :
    Plain s := by
  intro c hc
  have hval := List.all_eq_true.mp h c hc
  simp only [Bool.and_eq_true, bne_iff_ne] at hval
  exact ⟨fun h => hval.1 (by rw [h]; rfl), fun h => hval.2 (by rw [h]; rfl)⟩

/-- A result in the grammar, made by ASCII lower-casing, comes from a plain domain. -/
theorem plain_of_lowerDomain {s c : Text} (hc : LowerDomain c)
    (heq : c = (domainCore s).map Python.lowerAscii) : Plain (domainCore s) := by
  intro x hx
  have hmem : Python.lowerAscii x ∈ c := by
    rw [heq]
    exact List.mem_map.mpr ⟨x, hx, rfl⟩
  constructor
  · rintro rfl
    exact hc.newline_not_mem hmem
  · rintro rfl
    exact absurd (hc.ascii _ hmem) (by decide)

/-- An ASCII domain without newlines is lower-cased to the grammar. -/
theorem lowerDomain_of_ascii {s c : Text} (h : Python.validateDomain G s = .ok c)
    (hascii : ∀ x ∈ domainCore s, x.IsAscii) (hn : (10 : CodePoint) ∉ domainCore s) :
    LowerDomain c ∧ c = (domainCore s).map Python.lowerAscii := by
  obtain ⟨hlower, hne, hlen, hlabels⟩ := validateDomain_ok_iff.mp h
  have heq : c = (domainCore s).map Python.lowerAscii := by
    rw [← hlower, Python.Runtime.lower,
      if_pos (List.all_eq_true.mpr fun x hx => decide_eq_true (hascii x hx))]
  refine ⟨⟨List.length_pos_iff.mpr hne, hlen, fun l hl => ?_⟩, heq⟩
  have himage : ∀ x ∈ l, ∃ y ∈ domainCore s, Python.lowerAscii y = x := by
    intro x hx
    have hmem := mem_of_mem_splitOn hl hx
    rw [heq] at hmem
    exact List.mem_map.mp hmem
  refine lowerLabel_of_labelRe (hlabels l hl) (fun hin => ?_) fun x hx => ?_
  · obtain ⟨y, hy, hy10⟩ := himage 10 hin
    rw [Python.lowerAscii] at hy10
    split_ifs at hy10 with hup
    · have hval := congrArg Fin.val hy10
      have hbig : (Fin.ofNat 0x110000 (y.val + 32)).val = y.val + 32 :=
        Nat.mod_eq_of_lt (by omega)
      rw [hbig] at hval
      exact absurd hval (by show y.val + 32 ≠ 10; omega)
    · exact hn (hy10 ▸ hy)
  · obtain ⟨y, -, rfl⟩ := himage x hx
    exact lowerAscii_idem y

/-- A plain domain is lower-cased to the grammar. -/
theorem lowerDomain_of_plain (hG : LowersUnicode G) {s c : Text}
    (h : Python.validateDomain G s = .ok c) (hplain : Plain (domainCore s)) :
    LowerDomain c ∧ c = (domainCore s).map Python.lowerAscii := by
  have hout : ∀ x ∈ G.lower (domainCore s), x.IsAscii := by
    intro x hx
    rw [(validateDomain_ok_iff.mp h).1] at hx
    rcases validateDomain_chars h x hx with h | rfl | rfl | rfl
    · exact isAlnum_ascii h
    all_goals decide
  exact lowerDomain_of_ascii h
    (fun x hx => (ascii_or_kelvin hG hout x hx).resolve_right (hplain x hx).2)
    fun hin => (hplain 10 hin).1 rfl

/-! ## Local parts -/

/-- A local part up to a newline at its end. -/
structure LocalBody (s : Text) : Prop where
  pos : 1 ≤ s.length
  short : s.length ≤ 63
  chars : ∀ c ∈ s, Python.isAlnum c = true ∨ c = 95 ∨ c = 46 ∨ c = 45

theorem localBody_iff {s : Text} :
    (1 ≤ s.length && s.length ≤ 63 &&
      s.all fun c => Python.isAlnum c || c == 95 || c == 46 || c == 45) = true ↔ LocalBody s := by
  simp only [Bool.and_eq_true, decide_eq_true_eq, List.all_eq_true, Bool.or_eq_true, beq_iff_eq,
    or_assoc]
  exact ⟨fun h => ⟨h.1.1, h.1.2, h.2⟩, fun h => ⟨⟨h.pos, h.short⟩, h.chars⟩⟩

theorem localRe_iff {s : Text} :
    Python.localRe s = true ↔ LocalBody s ∨ ∃ t, s = t ++ [10] ∧ LocalBody t := by
  rw [Python.localRe, Python.matchesBeforeEnd, Bool.or_eq_true, localBody_iff, Bool.and_eq_true,
    beq_iff_eq, localBody_iff]
  refine or_congr_right ⟨?_, ?_⟩
  · rintro ⟨hlast, h⟩
    obtain ⟨t, rfl⟩ := List.getLast?_eq_some_iff.mp hlast
    rw [List.dropLast_concat] at h
    exact ⟨t, rfl, h⟩
  · rintro ⟨t, rfl, h⟩
    rw [List.dropLast_concat]
    exact ⟨List.getLast?_concat, h⟩

theorem LowerLocal.localBody {l : Text} (h : LowerLocal l) : LocalBody l :=
  ⟨h.pos, h.short, fun c hc => (h.chars c hc).imp LowerAlnum.isAlnum id⟩

theorem LowerLocal.lower {l : Text} (h : LowerLocal l) : l.map Python.lowerAscii = l := by
  conv_rhs => rw [← List.map_id l]
  refine List.map_congr_left fun c hc => ?_
  rcases h.chars c hc with h | rfl | rfl | rfl
  · exact h.lowerAscii
  all_goals rfl

theorem lowerLocal_of_localRe {l : Text} (h : Python.localRe l = true) (hn : (10 : CodePoint) ∉ l) :
    LowerLocal (l.map Python.lowerAscii) := by
  rcases localRe_iff.mp h with hb | ⟨t, rfl, -⟩
  · refine ⟨by rw [List.length_map]; exact hb.pos, by rw [List.length_map]; exact hb.short, ?_⟩
    rw [List.forall_mem_map]
    intro c hc
    rcases hb.chars c hc with h | rfl | rfl | rfl
    · exact .inl (lowerAlnum_lowerAscii h)
    · exact .inr (.inl rfl)
    · exact .inr (.inr (.inl rfl))
    · exact .inr (.inr (.inr rfl))
  · exact absurd (List.mem_append_right t (List.mem_singleton.mpr rfl)) hn

theorem LowerLocal.newline_not_mem {l : Text} (h : LowerLocal l) : (10 : CodePoint) ∉ l := by
  intro hin
  rcases h.chars 10 hin with h | h | h | h
  · exact h.ne_newline rfl
  all_goals exact absurd h (by decide)

/-! ## Shadownames -/

theorem validateShadowname_ok_iff {s c : Text} :
    Python.validateShadowname G s = .ok c ↔ Python.isShadowname s = true ∧
      Python.localRe (Python.partitionAt s).1 = true ∧ ∃ d,
      Python.validateDomain G (Python.partitionAt s).2 = .ok d ∧
      c = (Python.partitionAt s).1.map Python.lowerAscii ++ 64 :: d := by
  simp only [Python.validateShadowname, guard_eq_ok, bind_eq_ok, pure_eq_ok, not_not]
  refine and_congr_right fun _ => and_congr_right fun hre => exists_congr fun d => ?_
  rw [lower_of_localRe G hre, eq_comm (a := c)]

/-- The local part has no newline, and what is kept of the provider is plain. -/
def PlainName (s : Text) : Prop :=
  (10 : CodePoint) ∉ (Python.partitionAt s).1 ∧ Plain (domainCore (Python.partitionAt s).2)

/-- A text made from a Shadowname by ASCII lower-casing, and by removing whitespace around the
provider and dots at its end. -/
def FromName (s c : Text) : Prop :=
  c = (Python.partitionAt s).1.map Python.lowerAscii ++
    64 :: (domainCore (Python.partitionAt s).2).map Python.lowerAscii

theorem LowerLocal.at_not_mem {l : Text} (h : LowerLocal l) : (64 : CodePoint) ∉ l :=
  at_not_mem_local (localRe_iff.mpr (.inl h.localBody))

/-- A Shadowname in the grammar is its own canonical form. -/
theorem validateShadowname_canonical {c : Text} (h : CanonicalName c) (G : Python.Runtime) :
    Python.validateShadowname G c = .ok c := by
  obtain ⟨l, d, rfl, hl, hd⟩ := h
  have hparts := partitionAt_of_not_mem (D := d) hl.at_not_mem
  refine validateShadowname_ok_iff.mpr ⟨by simp [Python.isShadowname], ?_, d, ?_, ?_⟩
  · rw [hparts]
    exact localRe_iff.mpr (.inl hl.localBody)
  · rw [hparts]
    exact hd.validateDomain G
  · rw [hparts, hl.lower]

theorem shadowname_conforms (hG : LowersUnicode G) {s c : Text}
    (h : Python.validateShadowname G s = .ok c) :
    CanonicalName c ∧ FromName s c ↔ PlainName s := by
  obtain ⟨-, hre, d, hd, rfl⟩ := validateShadowname_ok_iff.mp h
  have hat := not_mem_lowerAscii (localRe_ascii hre) (at_not_mem_local hre)
  constructor
  · rintro ⟨⟨l, e, heq, hl, he⟩, hfrom⟩
    have hparts := congrArg Python.partitionAt heq
    rw [partitionAt_of_not_mem hat, partitionAt_of_not_mem hl.at_not_mem] at hparts
    obtain ⟨rfl, rfl⟩ := Prod.mk.inj hparts
    refine ⟨fun hin => hl.newline_not_mem (List.mem_map.mpr ⟨10, hin, rfl⟩),
      plain_of_lowerDomain he ?_⟩
    exact (List.cons.inj (List.append_cancel_left hfrom)).2
  · rintro ⟨hn, hplain⟩
    obtain ⟨hdom, heq⟩ := lowerDomain_of_plain hG hd hplain
    refine ⟨⟨_, d, rfl, lowerLocal_of_localRe hre hn, hdom⟩, ?_⟩
    rw [FromName, ← heq]

/-! ## Keys -/

theorem z6Mk_digits : text "z6Mk" = [122, b58Char 5, b58Char 20, b58Char 43] := by decide

/-- An accepted public key is the text of its bytes, and stays as it is. -/
theorem keyText_of_validate {s c : Text} (h : Python.validateMultibasePk G s = .ok c) :
    c = s ∧ KeyText s := by
  simp only [Python.validateMultibasePk, guard_eq_ok, bind_eq_ok, pure_eq_ok, not_not,
    Python.reraise_eq_ok, Python.decodeMultibaseZ, Python.stripMulticodec, Python.b58decode] at h
  obtain ⟨hp, raw, ⟨dec, ⟨-, m, hm, hdec⟩, htake, rfl⟩, hlen, rfl⟩ := h
  have hprefix := List.isPrefixOf_iff_prefix.mp hp
  obtain ⟨r, rfl⟩ := hprefix
  have hrest : (text "z6Mk" ++ r).drop 1 = b58Char 5 :: ([b58Char 20, b58Char 43] ++ r) := by
    rw [z6Mk_digits]
    rfl
  have hones : ((text "z6Mk" ++ r).drop 1).takeWhile (· == 49) = [] := by
    rw [hrest]
    exact List.takeWhile_cons_of_neg (by decide)
  rw [hones, toBytesBig_eq, List.length_nil, List.replicate_zero, List.nil_append] at hdec
  have hmark : dec = 0xED :: 0x01 :: dec.drop 2 := by
    conv_lhs => rw [← List.take_append_drop 2 dec, htake]
    rfl
  have hvalue : beNumber (0xED :: 0x01 :: dec.drop 2) = m := by
    rw [← hmark, ← hdec]
    exact beNumber_leBytes m
  rw [hrest] at hm
  refine ⟨rfl, List.prefix_append _ _, dec.drop 2, hlen, ?_⟩
  rw [hvalue, ← digits_of_b58Number (by decide) (by decide) hm, z6Mk_digits]
  rfl

/-! ## The two functions -/

/-- A canonical identifier: of the grammar, made from the argument, and its own canonical form. -/
def IdentifierConforms (G : Python.Runtime) (s c : Text) : Prop :=
  (if Python.isShadowname s = true then CanonicalName c ∧ FromName s c else KeyText c ∧ c = s) ∧
    Python.canonicalizeIdentifier G c = .ok c

/-- The same for issuers and organisations. -/
def IssuerConforms (G : Python.Runtime) (s c : Text) : Prop :=
  (if Python.isPublicKeyIdentifier s = true then KeyText c ∧ c = s
    else LowerDomain c ∧ c = (domainCore s).map Python.lowerAscii) ∧
    Python.canonicalizeIssuerOrOrgIdentifier G c = .ok c

theorem identifierConforms_iff (hG : LowersUnicode G) {s c : Text}
    (h : Python.canonicalizeIdentifier G s = .ok c) :
    IdentifierConforms G s c ↔ (Python.isShadowname s = true → PlainName s) := by
  have hagain := h
  rw [Python.canonicalizeIdentifier] at h
  rw [IdentifierConforms]
  split_ifs at h with hname hkey
  · rw [if_pos hname, shadowname_conforms hG h]
    constructor
    · exact fun hc _ => hc.1
    · intro hplain
      have hc := ((shadowname_conforms hG h).mpr (hplain hname)).1
      refine ⟨hplain hname, ?_⟩
      rw [Python.canonicalizeIdentifier, if_pos]
      · exact validateShadowname_canonical hc G
      · obtain ⟨l, d, rfl, -⟩ := hc
        simp [Python.isShadowname]
  · obtain ⟨rfl, hkeyText⟩ := keyText_of_validate h
    rw [if_neg hname]
    exact ⟨fun _ h => absurd h hname, fun _ => ⟨⟨hkeyText, rfl⟩, hagain⟩⟩

/-- A domain in lower case is no key. -/
theorem LowerDomain.not_publicKey {d : Text} (h : LowerDomain d) :
    ¬ Python.isPublicKeyIdentifier d = true := by
  intro hkey
  rw [Python.isPublicKeyIdentifier, Bool.and_eq_true] at hkey
  obtain ⟨r, rfl⟩ := List.isPrefixOf_iff_prefix.mp hkey.1
  -- the capital `M` of the mark
  have hM : (77 : CodePoint) ∈ text "z6Mk" ++ r :=
    List.mem_append_left _ (by decide)
  rcases h.mem hM with h | h | h
  · rw [LowerAlnum] at h
    exact absurd h (by decide)
  all_goals exact absurd h (by decide)

theorem issuerConforms_iff (hG : LowersUnicode G) {s c : Text}
    (h : Python.canonicalizeIssuerOrOrgIdentifier G s = .ok c) :
    IssuerConforms G s c ↔ (Python.isPublicKeyIdentifier s = false → Plain (domainCore s)) := by
  have hagain := h
  rw [Python.canonicalizeIssuerOrOrgIdentifier] at h
  rw [IssuerConforms]
  split_ifs at h with hkey
  · obtain ⟨rfl, hkeyText⟩ := keyText_of_validate h
    rw [if_pos hkey]
    exact ⟨fun _ h => absurd hkey (by simp [h]), fun _ => ⟨⟨hkeyText, rfl⟩, hagain⟩⟩
  · rw [if_neg hkey]
    constructor
    · exact fun hc _ => plain_of_lowerDomain hc.1.1 hc.1.2
    · intro hplain
      have hc := lowerDomain_of_plain hG h (hplain (by simpa using hkey))
      refine ⟨hc, ?_⟩
      rw [Python.canonicalizeIssuerOrOrgIdentifier, if_neg hc.1.not_publicKey]
      exact hc.1.validateDomain G

/-- What the canonicalisers return, and when it conforms: the local part has no newline, and what
is kept of the domain has neither a newline nor a Kelvin sign. -/
theorem canonicalizers_conform (hG : LowersUnicode G) (s : Text) :
    (∀ e, Python.canonicalizeIdentifier G s = .error e → e.cls = .invalidIdentifierError) ∧
    (∀ e, Python.canonicalizeIssuerOrOrgIdentifier G s = .error e →
      e.cls = .invalidIdentifierError) ∧
    (∀ c, Python.canonicalizeIdentifier G s = .ok c →
      (IdentifierConforms G s c ↔ (Python.isShadowname s = true → PlainName s))) ∧
    (∀ c, Python.canonicalizeIssuerOrOrgIdentifier G s = .ok c →
      (IssuerConforms G s c ↔
        (Python.isPublicKeyIdentifier s = false → Plain (domainCore s)))) :=
  ⟨Python.raises_canonicalizeIdentifier s, Python.raises_canonicalizeIssuerOrOrgIdentifier s,
    fun _ => identifierConforms_iff hG, fun _ => issuerConforms_iff hG⟩

/-- A runtime that lower-cases ASCII letters and the Kelvin sign. -/
def kelvinRuntime : Python.Runtime := { Python.bareRuntime with
  lowerUnicode := fun s => s.map fun c => if c = 0x212A then 107 else Python.lowerAscii c }

theorem kelvinRuntime_lowers : LowersUnicode kelvinRuntime := by
  intro s
  refine ⟨s.map fun c => [if c = 0x212A then 107 else Python.lowerAscii c], ?_, ?_⟩
  · rw [List.forall₂_map_right_iff, List.forall₂_same]
    intro c _
    rw [LowerImage]
    split_ifs with hascii hk
    · rw [hk] at hascii
      exact absurd hascii (by decide)
    · rfl
    · rfl
    · refine ⟨_, List.mem_singleton.mpr rfl, ?_⟩
      have hval : ¬ c.val < 0x80 := hascii
      rw [Python.lowerAscii, if_neg (by omega)]
      exact hascii
  · rw [← List.flatMap_def, ← List.map_eq_flatMap]
    rfl

theorem canonicalizers_conform_host :
    IdentifierConforms kelvinRuntime (text "Alice@ Acme.co.. ") (text "alice@acme.co") ∧
      IssuerConforms kelvinRuntime (text " Acme.co.") (text "acme.co") :=
  ⟨((canonicalizers_conform kelvinRuntime_lowers _).2.2.1 _ (by decide)).mpr fun _ =>
      ⟨by decide, plain_of_all (by decide)⟩,
    ((canonicalizers_conform kelvinRuntime_lowers _).2.2.2 _ (by decide)).mpr fun _ =>
      plain_of_all (by decide)⟩

/-- A newline at the end of the local part, one at the end of a label, and a Kelvin sign. -/
theorem canonicalizers_fail :
    Python.canonicalizeIdentifier kelvinRuntime (text "alice\n@acme.co") =
        .ok (text "alice\n@acme.co") ∧
      ¬ IdentifierConforms kelvinRuntime (text "alice\n@acme.co") (text "alice\n@acme.co") ∧
    Python.canonicalizeIssuerOrOrgIdentifier kelvinRuntime (text "acme.co\n.") =
        .ok (text "acme.co\n") ∧
      ¬ IssuerConforms kelvinRuntime (text "acme.co\n.") (text "acme.co\n") ∧
    Python.canonicalizeIssuerOrOrgIdentifier kelvinRuntime (0x212A :: text ".co") =
        .ok (text "k.co") ∧
      ¬ IssuerConforms kelvinRuntime (0x212A :: text ".co") (text "k.co") := by
  refine ⟨by decide, ?_, by decide, ?_, by decide, ?_⟩
  · rw [IdentifierConforms, if_pos (by decide)]
    rintro ⟨⟨⟨l, d, heq, hl, hd⟩, -⟩, -⟩
    have hin : (10 : CodePoint) ∈ l ++ 64 :: d := by
      rw [← heq]
      decide
    rcases List.mem_append.mp hin with hin | hin
    · exact hl.newline_not_mem hin
    · rcases List.mem_cons.mp hin with h | hin
      · exact absurd h (by decide)
      · exact hd.newline_not_mem hin
  · rintro ⟨-, hagain⟩
    exact absurd hagain (by decide)
  · rw [IssuerConforms, if_neg (by decide)]
    rintro ⟨⟨-, hfrom⟩, -⟩
    exact absurd hfrom (by decide)

end Shadownet.Identifiers
