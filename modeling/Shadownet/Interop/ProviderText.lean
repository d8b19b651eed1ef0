import Shadownet.Go.AgentCard
import Shadownet.Identifiers.Grammar
import Shadownet.Interop.Marshal
import Shadownet.Receiver.Provider

/-!
# The TXT record of a provider, from Go to Python

`TXTRecord` joins `key=value` pairs with `"; "`, and `parse_provider_txt` takes them apart. The
two meet at the list of pairs.

* `parseKv_recordText`: the joined pairs are read back.
* `providerTxt_roundTrip`: the record is the one that was written.
-/

namespace Shadownet.Interop

open Foundation Receiver
open Python (Clean)

/-! ## Pairs -/

def pairText (f : Text × Text) : Text := f.1 ++ 61 :: f.2

/-- The pairs as `TXTRecord` joins them. -/
def recordText (fields : Fields) : Text := [59, 32].intercalate (fields.map pairText)

/-- A pair that the reader gives back. -/
structure PlainPair (f : Text × Text) : Prop where
  key_ne : f.1 ≠ []
  key : ∀ c ∈ f.1, c.IsAscii ∧ Python.isSpace c = false ∧ Python.lowerAscii c = c ∧ c ≠ 61 ∧ c ≠ 59
  value : Python.strip f.2 = f.2
  value_semicolon : (59 : CodePoint) ∉ f.2

theorem PlainPair.parsePart {f : Text × Text} (h : PlainPair f) (G : Python.Runtime) (pad : Text)
    (hpad : ∀ c ∈ pad, Python.isSpace c = true) :
    parsePart G (pad ++ pairText f) = .ok (some f) := by
  have hspace : ∀ c ∈ f.1, Python.isSpace c = false := fun c hc => (h.key c hc).2.1
  have hkey : Python.strip f.1 = f.1 := Python.strip_eq_self hspace
  have hlower : G.lower f.1 = f.1 := by
    rw [Python.Runtime.lower,
      if_pos (List.all_eq_true.mpr fun c hc => decide_eq_true (h.key c hc).1)]
    conv_rhs => rw [← List.map_id f.1]
    exact List.map_congr_left fun c hc => (h.key c hc).2.2.1
  have hself : Python.strip (pairText f) = pairText f := by
    refine Python.strip_eq_self_iff.mpr ⟨fun c hc => ?_, fun c hc => ?_⟩
    · obtain ⟨d, key, hd⟩ := List.exists_cons_of_ne_nil h.key_ne
      rw [pairText, hd, List.cons_append, List.head?_cons, Option.mem_some_iff] at hc
      rw [← hc]
      exact hspace d (by rw [hd]; exact List.mem_cons_self)
    · rw [pairText, List.getLast?_append, List.getLast?_cons, Option.some_or] at hc
      cases hlast : f.2.getLast? with
      | none =>
        rw [hlast, Option.getD_none, Option.mem_some_iff] at hc
        rw [← hc]
        rfl
      | some d =>
        rw [hlast, Option.getD_some, Option.mem_some_iff] at hc
        rw [← hc]
        exact (Python.strip_eq_self_iff.mp h.value).2 d hlast
  have hstrip : Python.strip (pad ++ pairText f) = pairText f := by
    rw [Python.strip, List.dropWhile_append_of_pos hpad]
    exact hself
  have hne : pairText f ≠ [] := by
    rw [pairText]
    simp
  have heq : (pairText f).contains 61 = true := by
    rw [pairText, List.contains_iff_mem]
    simp
  have hnot : (61 : CodePoint) ∉ f.1 := fun hc => (h.key 61 hc).2.2.2.1 rfl
  have hcut : partitionEq (pairText f) = f := by
    rw [partitionEq, pairText, takeWhile_ne_append hnot, dropWhile_ne_append hnot]
    rfl
  rw [Receiver.parsePart, hstrip, if_neg hne, if_neg (not_not.mpr heq), hcut]
  show (pure (some (G.lower (Python.strip f.1), Python.strip f.2)) : Python.Py _) = _
  rw [hkey, hlower, h.value]
  rfl

theorem PlainPair.semicolon_not_mem {f : Text × Text} (h : PlainPair f) :
    (59 : CodePoint) ∉ pairText f := by
  intro hc
  rcases List.mem_append.mp hc with hc | hc
  · exact (h.key 59 hc).2.2.2.2 rfl
  · rcases List.mem_cons.mp hc with hc | hc
    · cases hc
    · exact h.value_semicolon hc

/-- A separator of two characters is the first of them, with the second before each part. -/
theorem intercalate_pair {α : Type} {a b : α} (l : List α) (ls : List (List α)) :
    [a, b].intercalate (l :: ls) = [a].intercalate (l :: ls.map (b :: ·)) := by
  induction ls generalizing l with
  | nil => rfl
  | cons m ls ih =>
    rw [List.intercalate_cons_cons, ih m, List.map_cons, List.intercalate_cons_cons]
    cases ls with
    | nil => simp
    | cons n ls =>
      rw [List.map_cons, List.intercalate_cons_cons, List.intercalate_cons_cons]
      simp

/-- The joined pairs are read back. -/
theorem parseKv_recordText (G : Python.Runtime) {f : Text × Text} {fs : Fields}
    (h : ∀ g ∈ f :: fs, PlainPair g) : parseKv G (recordText (f :: fs)) = .ok (f :: fs) := by
  rw [List.forall_mem_cons] at h
  have hsplit : (recordText (f :: fs)).splitOn 59 =
      pairText f :: fs.map fun g => 32 :: pairText g := by
    rw [recordText, List.map_cons, intercalate_pair, List.map_map]
    refine List.splitOn_intercalate _ (fun l hl => ?_) (by simp)
    rcases List.mem_cons.mp hl with rfl | hl
    · exact h.1.semicolon_not_mem
    · obtain ⟨g, hg, rfl⟩ := List.mem_map.mp hl
      intro hc
      rcases List.mem_cons.mp hc with hc | hc
      · cases hc
      · exact (h.2 g hg).semicolon_not_mem hc
  have hfirst : parsePart G (pairText f) = .ok (some f) := h.1.parsePart G [] nofun
  have hrest : (fs.map fun g => 32 :: pairText g).mapM (parsePart G) = .ok (fs.map some) := by
    have hpart : ∀ gs : Fields, (∀ g ∈ gs, PlainPair g) →
        (gs.map fun g => 32 :: pairText g).mapM (parsePart G) = .ok (gs.map some) := by
      intro gs hgs
      induction gs with
      | nil => rfl
      | cons g gs ih =>
        rw [List.forall_mem_cons] at hgs
        have hg : parsePart G (32 :: pairText g) = .ok (some g) :=
          hgs.1.parsePart G [32] fun c hc => by rw [List.mem_singleton.mp hc]; rfl
        rw [List.map_cons, List.mapM_cons, hg, ok_bind, ih hgs.2, ok_bind]
        rfl
    exact hpart fs h.2
  rw [parseKv, hsplit, List.mapM_cons, hfirst, ok_bind, hrest, ok_bind]
  show Except.ok ((some f :: fs.map some).filterMap id) = _
  rw [← List.map_cons, List.filterMap_map]
  simp

/-! ## The record -/

/-- An additional pair of `TXTRecord`. -/
inductive Extra where
  | iss
  | delegate (domain : Text)
  deriving DecidableEq

def Extra.pair : Extra → Text × Text
  | .iss => (text "iss", text "true")
  | .delegate domain => (text "delegate", domain)

def Extra.delegate? : Extra → Option Text
  | .iss => none
  | .delegate domain => some domain

/-- The pairs of a record. -/
def recordFields (endpoint : Text) (pks : List Text) (extras : List Extra) : Fields :=
  (text "v", text "0.2") :: (text "ep", endpoint) ::
    (pks.map (Prod.mk (text "pk")) ++ extras.map Extra.pair)

section Fields
variable {endpoint : Text} {pks : List Text} {extras : List Extra}

theorem get_cons {k v key : Text} {fs : Fields} :
    Fields.get ((k, v) :: fs) key =
      if k = key then v :: Fields.get fs key else Fields.get fs key := by
  rw [Fields.get, List.filter_cons]
  split_ifs with h1 h2 h2
  · rfl
  · exact absurd (beq_iff_eq.mp h1) h2
  · exact absurd (beq_iff_eq.mpr h2) h1
  · rfl

theorem get_append {fs gs : Fields} {key : Text} :
    Fields.get (fs ++ gs) key = fs.get key ++ gs.get key := by
  rw [Fields.get, List.filter_append, List.map_append]
  rfl

theorem get_pks (key : Text) :
    Fields.get (pks.map (Prod.mk (text "pk"))) key = if text "pk" = key then pks else [] := by
  induction pks with
  | nil =>
    rw [ite_self]
    rfl
  | cons pk pks ih =>
    rw [List.map_cons, get_cons, ih]
    split_ifs <;> rfl

theorem get_extras (key : Text) : Fields.get (extras.map Extra.pair) key =
    extras.filterMap fun e => if e.pair.1 = key then some e.pair.2 else none := by
  induction extras with
  | nil => rfl
  | cons e extras ih =>
    have hcons : Fields.get (e.pair :: extras.map Extra.pair) key = if e.pair.1 = key then
        e.pair.2 :: Fields.get (extras.map Extra.pair) key else
          Fields.get (extras.map Extra.pair) key := get_cons
    rw [List.map_cons, hcons, ih, List.filterMap_cons]
    split_ifs <;> rfl

theorem get_extras_other {key : Text} (hiss : text "iss" ≠ key)
    (hdelegate : text "delegate" ≠ key) :
    Fields.get (extras.map Extra.pair) key = [] := by
  rw [get_extras]
  refine List.filterMap_eq_nil_iff.mpr fun e _ => if_neg ?_
  cases e with
  | iss => exact hiss
  | delegate d => exact hdelegate

theorem get_delegates :
    (recordFields endpoint pks extras).get (text "delegate") =
      extras.filterMap Extra.delegate? := by
  have hv : text "v" ≠ text "delegate" := text_injective.ne (by decide)
  have hep : text "ep" ≠ text "delegate" := text_injective.ne (by decide)
  have hpk : text "pk" ≠ text "delegate" := text_injective.ne (by decide)
  have hiss : text "iss" ≠ text "delegate" := text_injective.ne (by decide)
  rw [recordFields, get_cons, if_neg hv, get_cons, if_neg hep, get_append, get_pks, if_neg hpk,
    List.nil_append, get_extras]
  refine List.filterMap_congr fun e _ => ?_
  cases e with
  | iss => exact if_neg hiss
  | delegate d => exact if_pos rfl

theorem flag_recordFields (G : Python.Runtime) :
    flag G (recordFields endpoint pks extras) (text "iss") = true ↔ .iss ∈ extras := by
  have hv : text "v" ≠ text "iss" := text_injective.ne (by decide)
  have hep : text "ep" ≠ text "iss" := text_injective.ne (by decide)
  have hpk : text "pk" ≠ text "iss" := text_injective.ne (by decide)
  have hdelegate : text "delegate" ≠ text "iss" := text_injective.ne (by decide)
  have hlower : (G.lower (text "true") == text "true") = true := by
    have hascii : ((text "true").all fun c => decide c.IsAscii) = true := by decide
    rw [Python.Runtime.lower, if_pos hascii]
    decide
  rw [flag, recordFields, get_cons, if_neg hv, get_cons, if_neg hep, get_append, get_pks,
    if_neg hpk, List.nil_append]
  induction extras with
  | nil => exact iff_of_false (fun h => by cases h) (fun h => by cases h)
  | cons e extras ih =>
    cases e with
    | iss =>
      have hget : Fields.get ((Extra.iss :: extras).map Extra.pair) (text "iss") =
          text "true" :: Fields.get (extras.map Extra.pair) (text "iss") := by
        rw [List.map_cons]
        exact get_cons.trans (if_pos rfl)
      rw [hget]
      exact iff_of_true hlower List.mem_cons_self
    | delegate d =>
      have hget : Fields.get ((Extra.delegate d :: extras).map Extra.pair) (text "iss") =
          Fields.get (extras.map Extra.pair) (text "iss") := by
        rw [List.map_cons]
        exact get_cons.trans (if_neg hdelegate)
      rw [hget, List.mem_cons]
      exact ih.trans ⟨.inr, fun h => h.resolve_left fun heq => by cases heq⟩

/-- The pairs make up a provider record. -/
theorem record_recordFields {G : Python.Runtime} (hep : allowedEndpoint endpoint = true)
    (hne : pks ≠ []) (hkeys : ∀ pk ∈ pks, ∃ key, Python.parsePublicKey G pk = .ok key) :
    IsProviderRecord G (recordFields endpoint pks extras) ∧
      (recordFields endpoint pks extras).get (text "ep") = [endpoint] ∧
      (recordFields endpoint pks extras).get (text "pk") = pks := by
  have hget : ∀ key, text "iss" ≠ key → text "delegate" ≠ key →
      (recordFields endpoint pks extras).get key =
        (if text "v" = key then [text "0.2"] else []) ++
          (if text "ep" = key then [endpoint] else []) ++
          if text "pk" = key then pks else [] := by
    intro key hiss hdelegate
    rw [recordFields, get_cons, get_cons, get_append, get_pks, get_extras_other hiss hdelegate,
      List.append_nil]
    split_ifs <;> rfl
  have hv : (recordFields endpoint pks extras).get (text "v") = [text "0.2"] := by
    rw [hget _ (text_injective.ne (by decide)) (text_injective.ne (by decide)), if_pos rfl,
      if_neg (text_injective.ne (by decide)), if_neg (text_injective.ne (by decide))]
    rfl
  have hend : (recordFields endpoint pks extras).get (text "ep") = [endpoint] := by
    rw [hget _ (text_injective.ne (by decide)) (text_injective.ne (by decide)), if_pos rfl,
      if_neg (text_injective.ne (by decide)), if_neg (text_injective.ne (by decide))]
    rfl
  have hpk : (recordFields endpoint pks extras).get (text "pk") = pks := by
    rw [hget _ (text_injective.ne (by decide)) (text_injective.ne (by decide)), if_pos rfl,
      if_neg (text_injective.ne (by decide)), if_neg (text_injective.ne (by decide))]
    rfl
  refine ⟨⟨hv, ⟨endpoint, hend, hep⟩, by rw [hpk]; exact hne, ?_⟩, hend, hpk⟩
  rw [hpk]
  exact hkeys

end Fields

/-! ## The round trip -/

theorem encodePubKey_alnum {pub enc : Bytes} (h : Go.encodePubKey pub = .ok enc) :
    ∀ c ∈ enc.map latin, Python.isAlnum c = true := by
  obtain ⟨ds, hds, rfl, -⟩ := Identifiers.encodePubKey_digits h
  have hchar : ∀ d < 58, Python.isAlnum (latin (Go.b58Alphabet.getD d 0)) = true := by
    decide
  have hmark : ((bytes "z6Mk").map latin).all Python.isAlnum = true := by decide
  have hlt : ∀ d ∈ ds, d < 58 := fun d hd =>
    Nat.digits_lt_base (by decide) (by rw [hds]; exact List.mem_append_left _ hd)
  intro c hc
  rw [List.map_append] at hc
  rcases List.mem_append.mp hc with hc | hc
  · exact List.all_eq_true.mp hmark c hc
  · rw [List.map_reverse, List.mem_reverse, List.map_map] at hc
    obtain ⟨d, hd, rfl⟩ := List.mem_map.mp hc
    exact hchar d (hlt d hd)

/-- The keys of the pairs of a record. -/
theorem plain_key {k : Text}
    (h : k ∈ [text "v", text "ep", text "pk", text "iss", text "delegate"]) :
    k ≠ [] ∧ ∀ c ∈ k, c.IsAscii ∧ Python.isSpace c = false ∧ Python.lowerAscii c = c ∧ c ≠ 61 ∧
      c ≠ 59 := by
  have hall : ∀ k ∈ [text "v", text "ep", text "pk", text "iss", text "delegate"],
      (k != [] && k.all fun c => decide (c.IsAscii ∧ Python.isSpace c = false ∧
        Python.lowerAscii c = c ∧ c ≠ 61 ∧ c ≠ 59)) = true := by
    decide
  have hk := hall k h
  rw [Bool.and_eq_true, bne_iff_ne] at hk
  exact ⟨hk.1, fun c hc => of_decide_eq_true (List.all_eq_true.mp hk.2 c hc)⟩

/-- A pair with one of these keys and a value of letters, digits, dots and hyphens. -/
theorem plainPair_of_chars {k v : Text}
    (hk : k ∈ [text "v", text "ep", text "pk", text "iss", text "delegate"])
    (hv : ∀ c ∈ v, Python.isAlnum c = true ∨ c = 45 ∨ c = 46) : PlainPair (k, v) where
  key_ne := (plain_key hk).1
  key := (plain_key hk).2
  value := Python.strip_eq_self fun c hc => not_space (hv c hc)
  value_semicolon hc := by
    rcases hv 59 hc with h | h | h
    · revert h
      decide
    · cases h
    · cases h

theorem utf8_intercalate (sep : Text) (ls : List Text) :
    utf8 (sep.intercalate ls) = (utf8 sep).intercalate (ls.map utf8) := by
  induction ls with
  | nil => rfl
  | cons l ls ih =>
    cases ls with
    | nil =>
      rw [List.map_cons, List.map_nil, List.intercalate_singleton, List.intercalate_singleton]
    | cons m ls =>
      rw [List.map_cons] at ih
      rw [List.intercalate_cons_cons, utf8_append, utf8_append, ih, List.map_cons, List.map_cons,
        List.intercalate_cons_cons]

theorem clean_recordText {fields : Fields} (h : ∀ f ∈ fields, Clean (pairText f)) :
    Clean (recordText fields) := by
  have hsep : Clean [59, 32] := fun c hc => by
    rcases List.mem_cons.mp hc with rfl | hc
    · decide
    · rw [List.mem_singleton.mp hc]
      decide
  rw [recordText]
  induction fields with
  | nil => exact fun c hc => by cases hc
  | cons f fs ih =>
    rw [List.forall_mem_cons] at h
    cases fs with
    | nil =>
      rw [List.map_cons, List.map_nil, List.intercalate_singleton]
      exact h.1
    | cons g fs =>
      rw [List.map_cons, List.map_cons, List.intercalate_cons_cons]
      exact Python.clean_append (Python.clean_append h.1 hsep) (ih h.2)

/-- What `TXTRecord` writes. -/
theorem txtRecord_eq {endpoint : Text} {keys encs : List Bytes} {extras : List Extra}
    (hep : endpoint ≠ []) (hne : keys ≠ []) (hencs : keys.mapM Go.encodePubKey = .ok encs)
    (hascii : ∀ enc ∈ encs, utf8 (enc.map latin) = enc) :
    Go.txtRecord (utf8 endpoint) keys (extras.map fun e => utf8 (pairText e.pair)) =
      .ok (utf8 (recordText (recordFields endpoint (encs.map (List.map latin)) extras))) := by
  have hempty : utf8 endpoint ≠ [] := by
    have hlen := length_le_utf8 endpoint
    have hpos := List.length_pos_iff.mpr hep
    exact List.length_pos_iff.mp (by omega)
  have hpks : (keys.mapM fun pk => do
      let mb ← (Go.encodePubKey pk).mapError (bytes "provider: encode pubkey: " ++ ·)
      pure (bytes "pk=" ++ mb)) = .ok (encs.map (bytes "pk=" ++ ·)) := by
    clear hne hascii
    induction keys generalizing encs with
    | nil =>
      rw [List.mapM_nil, pure_eq_ok] at hencs
      rw [← hencs]
      rfl
    | cons k keys ih =>
      simp only [List.mapM_cons, bind_eq_ok, pure_eq_ok] at hencs
      obtain ⟨enc, henc, encs, hencs, rfl⟩ := hencs
      rw [List.mapM_cons, ih hencs, henc]
      rfl
  have hpair : ∀ k v : Text, utf8 (pairText (k, v)) = utf8 (k ++ [61]) ++ utf8 v := fun k v => by
    rw [pairText, ← utf8_append, List.append_assoc]
    rfl
  have hv : utf8 (pairText (text "v", text "0.2")) = bytes "v=0.2" := by decide
  have hkey : ∀ enc ∈ encs, utf8 (pairText (text "pk", enc.map latin)) = bytes "pk=" ++ enc := by
    intro enc henc
    have hpk : utf8 (text "pk" ++ [61]) = bytes "pk=" := by decide
    rw [hpair, hascii enc henc, hpk]
  have hend : utf8 (pairText (text "ep", endpoint)) = bytes "ep=" ++ utf8 endpoint := by
    have hk : utf8 (text "ep" ++ [61]) = bytes "ep=" := by decide
    rw [hpair, hk]
  have hsep : utf8 [59, 32] = bytes "; " := by decide
  rw [Go.txtRecord, if_neg hempty, if_neg hne, hpks, ok_bind, recordText, utf8_intercalate, hsep]
  simp only [recordFields, List.map_cons, List.map_append, List.map_map, hv, hend]
  have hmap : encs.map (utf8 ∘ pairText ∘ Prod.mk (text "pk") ∘ List.map latin) =
      encs.map (bytes "pk=" ++ ·) := List.map_congr_left hkey
  rw [hmap]
  rfl

/-- **The provider's TXT record survives the way from Go to Python.** -/
theorem providerTxt_roundTrip (G : Python.Runtime) (domain endpoint : Text) (keys : List Bytes)
    (extras : List Extra) (hclean : Clean endpoint) (hhttps : text "https://" <+: endpoint)
    (hsemi : (59 : CodePoint) ∉ endpoint) (hstrip : Python.strip endpoint = endpoint)
    (hne : keys ≠ []) (hlen : ∀ k ∈ keys, k.length = 32)
    (hextras : ∀ d, .delegate d ∈ extras → Identifiers.LowerDomain d) :
    ∃ out value record,
      Go.txtRecord (utf8 endpoint) keys (extras.map fun e => utf8 (pairText e.pair)) = .ok out ∧
      utf8Decode out = some value ∧ parseProviderTxt G domain value = .ok record ∧
      record.domain = domain ∧ record.version = text "0.2" ∧ record.endpoint = endpoint ∧
      keys.mapM Go.encodePubKey = .ok (record.providerKeys.map utf8) ∧
      (record.isIssuer = true ↔ .iss ∈ extras) ∧
      record.delegates = extras.filterMap Extra.delegate? := by
  -- The keys and their identifiers.
  let enc : Bytes → Bytes := fun k => 0x7A :: Go.b58encode (0xED :: 0x01 :: k)
  have henc : ∀ k ∈ keys, Go.encodePubKey k = .ok (enc k) := fun k hk => by
    rw [Go.encodePubKey, if_neg (not_not.mpr (hlen k hk))]
    rfl
  have hencs : keys.mapM Go.encodePubKey = .ok (keys.map enc) :=
    (mapM_eq_ok (C := fun _ => True) fun k hk b => by
      rw [henc k hk, Except.ok.injEq, true_and, eq_comm]).mpr ⟨fun _ _ => trivial, rfl⟩
  have hkey : ∀ k ∈ keys, utf8 ((enc k).map latin) = enc k := fun k hk =>
    utf8_latin (parsePublicKey_of_encodePubKey G (henc k hk)).2.1
  let pks := (keys.map enc).map (List.map latin)
  have hpks : ∀ pk ∈ pks, ∃ k ∈ keys, pk = (enc k).map latin := by
    intro pk hpk
    obtain ⟨e, he, rfl⟩ := List.mem_map.mp hpk
    obtain ⟨k, hk, rfl⟩ := List.mem_map.mp he
    exact ⟨k, hk, rfl⟩
  -- The pairs are plain.
  have hep : endpoint ≠ [] := by
    rintro rfl
    exact absurd (List.prefix_nil.mp hhttps) (by decide)
  have hplain : ∀ f ∈ recordFields endpoint pks extras, PlainPair f := by
    have hk : ∀ k ∈ ["v", "ep", "pk", "iss", "delegate"], text k ∈
        [text "v", text "ep", text "pk", text "iss", text "delegate"] := fun k hk =>
      List.mem_map_of_mem (f := text) hk
    intro f hf
    simp only [recordFields, List.mem_cons, List.mem_append, List.mem_map] at hf
    rcases hf with rfl | rfl | ⟨pk, hpk, rfl⟩ | ⟨e, he, rfl⟩
    · refine plainPair_of_chars (hk "v" (by simp)) ?_
      have hall : ((text "0.2").all fun c => Python.isAlnum c || c == 45 || c == 46) = true := by
        decide
      intro c hc
      simpa [or_assoc] using List.all_eq_true.mp hall c hc
    · exact ⟨(plain_key (hk "ep" (by simp))).1, (plain_key (hk "ep" (by simp))).2, hstrip, hsemi⟩
    · obtain ⟨k, hkmem, rfl⟩ := hpks pk hpk
      exact plainPair_of_chars (hk "pk" (by simp)) fun c hc =>
        .inl (encodePubKey_alnum (henc k hkmem) c hc)
    · cases e with
      | iss =>
        refine plainPair_of_chars (hk "iss" (by simp)) ?_
        have hall : ((text "true").all Python.isAlnum) = true := by decide
        exact fun c hc => .inl (List.all_eq_true.mp hall c hc)
      | delegate d =>
        exact plainPair_of_chars (hk "delegate" (by simp)) fun c hc =>
          ((hextras d he).mem hc).imp Identifiers.LowerAlnum.isAlnum id
  have hclean' : Clean (recordText (recordFields endpoint pks extras)) := by
    have hequals : Clean [61] := clean_of_ascii fun c hc => by
      rw [List.mem_singleton.mp hc]
      decide
    have hpair : ∀ k v, Clean k → Clean v → Clean (pairText (k, v)) := fun k v hk hv =>
      Python.clean_append hk (Python.clean_append hequals hv)
    refine clean_recordText fun f hf => ?_
    simp only [recordFields, List.mem_cons, List.mem_append, List.mem_map] at hf
    rcases hf with rfl | rfl | ⟨pk, hpk, rfl⟩ | ⟨e, he, rfl⟩
    · exact hpair _ _ (clean_text "v") (clean_text "0.2")
    · exact hpair _ _ (clean_text "ep") hclean
    · obtain ⟨k, hk, rfl⟩ := hpks pk hpk
      exact hpair _ _ (clean_text "pk") (clean_of_ascii fun c hc =>
        isAlnum_ascii (encodePubKey_alnum (henc k hk) c hc))
    · cases e with
      | iss => exact hpair _ _ (clean_text "iss") (clean_text "true")
      | delegate d => exact hpair _ _ (clean_text "delegate") (clean_of_ascii (hextras d he).ascii)
  have hallowed : allowedEndpoint endpoint = true :=
    List.any_eq_true.mpr ⟨_, List.mem_cons_self, List.isPrefixOf_iff_prefix.mpr hhttps⟩
  have hpkne : pks ≠ [] := by
    obtain ⟨k, ks, rfl⟩ := List.exists_cons_of_ne_nil hne
    nofun
  obtain ⟨hrecord, hgetep, hgetpk⟩ := @record_recordFields endpoint pks extras G hallowed hpkne
    fun pk hpk => by
      obtain ⟨k, hk, rfl⟩ := hpks pk hpk
      exact ⟨k, (parsePublicKey_of_encodePubKey G (henc k hk)).1⟩
  have hparse : parseProviderTxt G domain (recordText (recordFields endpoint pks extras)) =
      .ok ((recordFields endpoint pks extras).record G domain) :=
    parseProviderTxt_eq_ok.mpr ⟨_, parseKv_recordText G hplain, hrecord, rfl⟩
  refine ⟨_, _, _, txtRecord_eq hep hne hencs ?_, utf8Decode_utf8 hclean', hparse, rfl, rfl, ?_,
    ?_, flag_recordFields G, get_delegates⟩
  · intro e he
    obtain ⟨k, hk, rfl⟩ := List.mem_map.mp he
    exact hkey k hk
  · have hendpoint : ((recordFields endpoint pks extras).record G domain).endpoint =
        ((recordFields endpoint pks extras).get (text "ep")).headD [] := rfl
    rw [hendpoint, hgetep]
    rfl
  · have hkeys : ((recordFields endpoint pks extras).record G domain).providerKeys =
        (recordFields endpoint pks extras).get (text "pk") := rfl
    have hback : pks.map utf8 = keys.map enc := by
      rw [List.map_map, List.map_map]
      exact List.map_congr_left hkey
    rw [hkeys, hgetpk, hback, hencs]

def pairExtras : List Extra := [.iss, .delegate (text "b.co")]

theorem providerTxt_roundTrip_sample : ∃ out value record,
    Go.txtRecord (utf8 (text "https://a.co/?x=1")) [List.replicate 32 7]
      (pairExtras.map fun e => utf8 (pairText e.pair)) = .ok out ∧
    utf8Decode out = some value ∧
    parseProviderTxt Python.bareRuntime (text "a.co") value = .ok record ∧
    record.domain = text "a.co" ∧ record.version = text "0.2" ∧
    record.endpoint = text "https://a.co/?x=1" ∧
    [List.replicate 32 7].mapM Go.encodePubKey = .ok (record.providerKeys.map utf8) ∧
    (record.isIssuer = true ↔ Extra.iss ∈ pairExtras) ∧
    record.delegates = pairExtras.filterMap Extra.delegate? := by
  have hdomain : Identifiers.LowerDomain (text "b.co") := by
    have hvalid : Python.validateDomain Python.bareRuntime (text "b.co") = .ok (text "b.co") := by
      decide
    have hcore : ((Identifiers.domainCore (text "b.co")).all fun c =>
        decide (c.IsAscii ∧ c ≠ 10)) = true := by
      decide
    have hchars := fun c hc => of_decide_eq_true (List.all_eq_true.mp hcore c hc)
    exact (Identifiers.lowerDomain_of_ascii hvalid (fun c hc => (hchars c hc).1)
      fun hc => (hchars 10 hc).2 rfl).1
  refine providerTxt_roundTrip Python.bareRuntime (text "a.co") (text "https://a.co/?x=1")
    [List.replicate 32 7] pairExtras (clean_text _) (by decide)
    (by decide) (by decide) nofun ?_ ?_
  · intro k hk
    obtain rfl := List.mem_singleton.mp hk
    exact List.length_replicate
  · intro d hd
    have heq : d = text "b.co" := by simpa [pairExtras] using hd
    exact heq ▸ hdomain

end Shadownet.Interop
