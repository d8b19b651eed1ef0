import Shadownet.Interop.Jcs

/-!
# What is encoded can be read back

For values of clean strings and integers with distinct names, both encoders write a document of
RFC 8259 with the names of every object in strictly increasing order, the decoders of both
languages read the value back from it, and the encoding tells values apart up to the order of
members.
-/

namespace Shadownet.Interop

open Foundation
open Python (Clean nameLe)

/-! ## The order of names -/

/-- Names in strictly increasing order of their UTF-16 code units. -/
def IncreasingNames (ks : List Text) : Prop := ks.Pairwise fun a b => utf16 a < utf16 b

theorem lt_of_nameLe {a b : Text} (ha : Clean a) (hb : Clean b) (hne : a ≠ b)
    (h : nameLe a b) : utf16 a < utf16 b := by
  rw [nameLe, Python.utf16Be, Python.utf16Be, lt_bytes_iff] at h
  have hor : utf16 a < utf16 b ∨ utf16 a = utf16 b := List.le_iff_lt_or_eq.mp (List.not_lt.mp h)
  exact hor.resolve_right fun heq => hne (utf16_injective ha hb heq)

theorem increasing_sorted {ν : Type} {v : Json Text ν} (hd : v.Distinct) (hv : CleanStrings v) :
    (v.sorted nameLe).Forall (fun _ => True) (fun _ => True) IncreasingNames := by
  induction v using Json.ind with
  | arr items ih =>
    rw [Json.distinct_arr] at hd
    rw [CleanStrings, Json.forall_arr] at hv
    rw [Json.sorted, Json.sortedItems_eq, Json.forall_arr, List.forall_mem_map]
    exact fun v hmem => ih v hmem (hd v hmem) (hv v hmem)
  | obj members ih =>
    rw [Json.distinct_obj] at hd
    rw [CleanStrings, Json.forall_obj] at hv
    have : Std.Total (Json.memberLe (β := Json Text ν) nameLe) :=
      ⟨fun a b => Python.nameLe_total a.1 b.1⟩
    have : IsTrans _ (Json.memberLe (β := Json Text ν) nameLe) :=
      ⟨fun a b c => Python.nameLe_trans a.1 b.1 c.1⟩
    have hle := List.pairwise_insertionSort (Json.memberLe nameLe)
      (members.map fun m => (m.1, m.2.sorted nameLe))
    have hperm := List.perm_insertionSort (Json.memberLe nameLe)
      (members.map fun m => (m.1, m.2.sorted nameLe))
    have hnames : ((members.map fun m => (m.1, m.2.sorted nameLe)).map Prod.fst).Nodup := by
      rw [List.map_map]
      exact hd.1
    have hne : ((members.map fun m => (m.1, m.2.sorted nameLe)).insertionSort
        (Json.memberLe nameLe)).Pairwise fun a b => a.1 ≠ b.1 :=
      List.pairwise_map.mp ((hperm.map Prod.fst).nodup_iff.mpr hnames)
    rw [Json.sorted, Json.sortedMembers_eq, Json.forall_obj]
    refine ⟨?_, fun m hm => ⟨trivial, ?_⟩⟩
    · rw [IncreasingNames, List.pairwise_map]
      refine (hle.and hne).imp_of_mem fun ha hb hab => ?_
      obtain ⟨m, hm, rfl⟩ := List.mem_map.mp ((List.mem_insertionSort _).mp ha)
      obtain ⟨n, hn, rfl⟩ := List.mem_map.mp ((List.mem_insertionSort _).mp hb)
      exact lt_of_nameLe (hv.2 m hm).1 (hv.2 n hn).1 hab.2 hab.1
    · obtain ⟨n, hn, rfl⟩ := List.mem_map.mp ((List.mem_insertionSort _).mp hm)
      exact ih n hn (hd.2 n hn) (hv.2 n hn).2
  | _ => trivial

theorem sorted_agrees {ν : Type} {v : Json Text ν} (hd : v.Distinct) (hv : CleanStrings v) :
    (v.sorted nameLe).Distinct ∧ (v.sorted nameLe).Agrees v := by
  have hinc := increasing_sorted hd hv
  have hsorted : (v.sorted nameLe).Distinct := by
    refine hinc.mono (fun _ h => h) (fun _ h => h) fun ks hks => ?_
    exact hks.imp fun hab heq => absurd hab (by rw [heq]; exact List.lt_irrefl _)
  exact ⟨hsorted, Json.agrees_of_sorted hsorted hd
    (Json.sorted_sorted Python.nameLe_total Python.nameLe_trans v)⟩

/-! ## Go -/

theorem literalLexemes_readable : literalLexemes.Readable (fun _ => True) Clean where
  str_head _ := ⟨_, rfl⟩
  str_unique _ _ h := Python.quoted_unique h
  num_head {n} _ := n.text_head
  num_unique := by
    intro m n r r' _ _ hr hr' h
    obtain ⟨htext, hrr⟩ := IntLit.text_unique hr hr' h
    refine ⟨?_, hrr⟩
    have hread := Python.readSign_literal m []
    rw [htext, Python.readSign_literal n [], Prod.mk.injEq, List.append_nil, List.append_nil]
      at hread
    obtain ⟨neg, ds⟩ := m
    obtain ⟨neg', es⟩ := n
    obtain rfl : neg' = neg := hread.1
    exact congrArg (IntLit.mk neg') (Digits.text_injective hread.2.symm)

theorem distinct_goJson {v : Json Text IntLit} (hd : v.Distinct) (hv : CleanStrings v) :
    (goJson v).Distinct := by
  rw [← Json.merged_of_distinct hd, ← merged_goJson hv]
  exact Json.distinct_merged _

theorem sorted_goJson {v : Json Text IntLit} (hv : CleanStrings v) :
    (goJson v).sorted Go.utf16Le = goJson (v.sorted nameLe) :=
  Json.sorted_map (fun _ _ => utf16Le_utf8) hv

theorem literalText_sorted (v : Json Text IntLit) :
    literalText (v.sorted nameLe) = literalText v := by
  rw [literalText, Json.sorted_sorted Python.nameLe_total Python.nameLe_trans, literalText]

/-- What the Go decoder reads from the canonical bytes. -/
theorem parse_literalText {v : Json Text IntLit} (hv : CleanStrings v) (hdepth : v.depth ≤ 10000) :
    Go.parse (utf8 (literalText v)) = some (goJson (v.sorted nameLe)) := by
  have hread := Go.parse_doc (canonicalDoc v) (Doc.depth_ofJson_le _ (Json.depth_sorted_le hdepth))
  have hreplaced : replaced (v.sorted nameLe) = v.sorted nameLe := by
    conv_rhs => rw [← Json.map_id (v.sorted nameLe)]
    rw [replaced, Json.map_eq_map_iff]
    exact Json.forall_sorted.mpr (hv.mono (fun _ _ => rfl) (fun _ => replaceHalf_of_clean)
      (fun _ _ => trivial))
  rw [text_canonicalDoc hv, value_canonicalDoc hv, goValue_eq, hreplaced] at hread
  exact hread

theorem goJson_sorted_agrees {v : Json Text IntLit} (hd : v.Distinct) (hv : CleanStrings v) :
    (goJson (v.sorted nameLe)).Agrees (goJson v) := by
  have hclean : CleanStrings (v.sorted nameLe) := Json.forall_sorted.mpr hv
  have hsorted : (goJson (v.sorted nameLe)).sorted Go.utf16Le = (goJson v).sorted Go.utf16Le := by
    rw [sorted_goJson hclean, sorted_goJson hv,
      Json.sorted_sorted Python.nameLe_total Python.nameLe_trans]
  exact Json.agrees_of_sorted (distinct_goJson (sorted_agrees hd hv).1 hclean)
    (distinct_goJson hd hv) hsorted

/-- Values with one canonical text agree. -/
theorem literalText_agrees {v w : Json Text IntLit} (hd : v.Distinct) (hv : CleanStrings v)
    (hd' : w.Distinct) (hw : CleanStrings w) (h : literalText v = literalText w) : v.Agrees w :=
  Json.agrees_of_sorted hd hd' (Json.text_injective literalLexemes_readable
    (Json.forall_sorted.mpr hv) (Json.forall_sorted.mpr hw) h)

/-! ## Python -/

/-- An integer as a literal; a float has none. -/
def literalOf : Python.Number → IntLit
  | .int n => .ofInt n
  | .float _ => ⟨false, .zero⟩

/-- A Python value over literals. -/
def literals (v : Python.Value) : Json Text IntLit := v.map id literalOf

theorem distinct_literals {v : Python.Value} (hd : v.Distinct) : (literals v).Distinct := by
  rw [Json.Distinct, literals, Json.forall_map]
  exact hd.mono (fun _ h => h) (fun _ h => h) fun ks hks => by rwa [List.map_id]

section
variable {v : Python.Value} (hv : Python.Encodable v)
include hv

theorem cleanStrings_of_encodable : CleanStrings v :=
  hv.mono (fun _ _ => trivial) (fun _ hs => hs) (fun _ _ => trivial)

theorem cleanStrings_literals : CleanStrings (literals v) := by
  rw [CleanStrings, literals, Json.forall_map]
  exact cleanStrings_of_encodable hv

theorem shortInts_literals : Python.ShortInts (literals v) := by
  rw [Python.ShortInts, literals, Json.forall_map]
  refine hv.mono (fun n hn => ?_) (fun _ _ => trivial) (fun _ _ => trivial)
  cases n with
  | float _ => exact hn.elim
  | int n =>
    have hlt : n.natAbs < Python.intLimit := hn
    rw [Python.intLimit] at hlt
    exact Digits.length_ofNat_le (by decide) hlt

/-- Reading the literals again gives the value. -/
theorem literals_value : (literals v).map id (fun n => Python.Number.int n.value) = v := by
  conv_rhs => rw [← Json.map_id v]
  rw [literals, Json.map_map, Json.map_eq_map_iff]
  refine hv.mono (fun n hn => ?_) (fun _ _ => rfl) (fun _ _ => trivial)
  cases n with
  | float _ => exact hn.elim
  | int n => exact congrArg Python.Number.int (IntLit.value_ofInt n)

theorem sorted_literals : (literals v).sorted nameLe = literals (v.sorted nameLe) :=
  Json.sorted_map (fun _ _ _ _ => Iff.rfl) (cleanStrings_of_encodable hv)

theorem literalText_literals : literalText (literals v) = Python.canonicalText v := by
  rw [literalText, sorted_literals hv, literals, Json.text_map, Python.canonicalText]
  refine Json.text_congr (Json.forall_sorted.mpr (hv.mono (fun n hn => ?_) (fun _ _ => rfl)
    (fun _ _ => trivial)))
  cases n with
  | float _ => exact hn.elim
  | int n => exact IntLit.text_ofInt n

/-- What `json.loads` reads from the canonical bytes. -/
theorem jsonLoads_canonicalText (J : Python.JsonRuntime) (hd : v.Distinct) :
    Python.jsonLoads J (utf8 (Python.canonicalText v)) = .ok (v.sorted nameLe) := by
  have hclean := cleanStrings_literals hv
  have hsorted : Python.Encodable (v.sorted nameLe) := Json.forall_sorted.mpr hv
  have hvalue : (canonicalDoc (literals v)).value = literals (v.sorted nameLe) := by
    rw [value_canonicalDoc hclean, sorted_literals hv]
  have hread := Python.jsonLoads_doc J (canonicalDoc (literals v)) (by
    rw [hvalue]
    exact shortInts_literals hsorted)
  rw [hvalue, text_canonicalDoc hclean, literalText_literals hv, Python.pyValue,
    literals_value hsorted, Json.merged_of_distinct
      (sorted_agrees hd (cleanStrings_of_encodable hv)).1] at hread
  exact hread

end

/-! ## Both -/

/-- The bytes are a document of RFC 8259 with the names of every object increasing. -/
def CanonicalForm (b : Bytes) : Prop :=
  ∃ d : Doc, b = utf8 d.text ∧ d.value.Forall (fun _ => True) (fun _ => True) IncreasingNames

theorem canonicalForm_literalText {v : Json Text IntLit} (hd : v.Distinct)
    (hv : CleanStrings v) : CanonicalForm (utf8 (literalText v)) := by
  refine ⟨canonicalDoc v, by rw [text_canonicalDoc hv], ?_⟩
  rw [value_canonicalDoc hv]
  exact increasing_sorted hd hv

/-- Both encoders succeed; the output is canonical and reads back as the value, encoding what
was read gives the same bytes, and equal bytes come from values that agree. -/
theorem canonicalize_faithful (G : Go.Runtime) (J : Python.JsonRuntime) :
    (∀ v : Json Text IntLit, v.Distinct → CleanStrings v → v.depth ≤ 10000 →
      ∃ b w, Go.canonicalize G (goJson v) = .ok b ∧ CanonicalForm b ∧ Go.parse b = some w ∧
        w.Agrees (goJson v) ∧ Go.canonicalize G w = .ok b ∧
        ∀ v' : Json Text IntLit, v'.Distinct → CleanStrings v' →
          Go.canonicalize G (goJson v') = .ok b → v.Agrees v') ∧
    (∀ v : Python.Value, v.Distinct → Python.Encodable v →
      ∃ b w, Python.canonicalize v = .ok b ∧ CanonicalForm b ∧ Python.jsonLoads J b = .ok w ∧
        w.Agrees v ∧ Python.canonicalize w = .ok b ∧
        ∀ v' : Python.Value, v'.Distinct → Python.canonicalize v' = .ok b → v.Agrees v') := by
  constructor
  · intro v hd hv hdepth
    have hsorted : CleanStrings (v.sorted nameLe) := Json.forall_sorted.mpr hv
    refine ⟨_, _, jcsEncode_eq G hv, canonicalForm_literalText hd hv, parse_literalText hv hdepth,
      goJson_sorted_agrees hd hv, ?_, fun v' hd' hv' h => ?_⟩
    · rw [Go.canonicalize, jcsEncode_eq G hsorted, literalText_sorted]
    · rw [Go.canonicalize, jcsEncode_eq G hv', Except.ok.injEq] at h
      exact literalText_agrees hd hv hd' hv'
        (utf8_injective (clean_literalText hv') (clean_literalText hv) h).symm
  · intro v hd hv
    have hclean := cleanStrings_of_encodable hv
    have hok : Python.canonicalize v = .ok (utf8 (Python.canonicalText v)) :=
      Python.canonicalize_eq_ok.mpr ⟨hv, rfl⟩
    obtain ⟨hdistinct, hagrees⟩ := sorted_agrees hd hclean
    refine ⟨_, _, hok, ?_, jsonLoads_canonicalText hv J hd, hagrees, ?_, fun v' hd' h => ?_⟩
    · have hform := canonicalForm_literalText (distinct_literals hd) (cleanStrings_literals hv)
      rwa [literalText_literals hv] at hform
    · have hself := Json.agrees_of_sorted hd hdistinct
        (Json.sorted_sorted Python.nameLe_total Python.nameLe_trans v).symm
      exact Python.canonicalize_congr hd hdistinct hself hok
    · exact Python.canonicalize_agrees hd hd' hok h

/-- An object with its names out of order, one of them beyond the basic plane. -/
def faceValue : Json Text IntLit :=
  .obj [(Foundation.text "\uE000", .num ⟨true, .zero⟩), ([0x1F600], .str [0xE9])]

theorem canonicalize_faithful_face : ∃ b w, Go.canonicalize plainGo (goJson faceValue) = .ok b ∧
    CanonicalForm b ∧ Go.parse b = some w ∧ w.Agrees (goJson faceValue) ∧
    Go.canonicalize plainGo w = .ok b := by
  have hnames : (Foundation.text "\uE000" : Text) = [0xE000] := rfl
  have hclean : CleanStrings faceValue := by
    rw [CleanStrings, faceValue, hnames, Json.forall_obj]
    refine ⟨trivial, ?_⟩
    simp only [List.forall_mem_cons, List.not_mem_nil, false_imp_iff, implies_true, and_true]
    refine ⟨⟨?_, trivial⟩, ?_, ?_⟩ <;> exact Python.hasSurrogate_eq_false.mp (by decide)
  have hdistinct : faceValue.Distinct := by
    rw [faceValue, hnames, Json.distinct_obj]
    refine ⟨by decide, ?_⟩
    simp only [List.forall_mem_cons, List.not_mem_nil, false_imp_iff, implies_true, and_true]
    exact ⟨trivial, trivial⟩
  obtain ⟨b, w, hok, hform, hparse, hagrees, hagain, -⟩ :=
    (canonicalize_faithful plainGo plainJson).1 faceValue hdistinct hclean (by decide)
  exact ⟨b, w, hok, hform, hparse, hagrees, hagain⟩

end Shadownet.Interop
