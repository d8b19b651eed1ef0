import Shadownet.Cards.Verifier
import Shadownet.Interop.Jcs
import Shadownet.Python.Binding

/-!
# What the signature of a card covers

The signature is over the card without `signatures` and without its empty parts
(`signedCard`); the verifiers read their fields from the card as it came.

* `fields_iff`: the fields of a card are those of its signed part, as long as no empty entry
  stands before the first interface (`Unpadded`).
* `signed_agree`: cards with one payload have signed parts that agree.
* `verified_fields_eq`: cards with one payload that are both accepted say the same.
* `self_signed_iff`: when two cards with one payload and one signature list are both accepted
  or both rejected. The declaration of the security scheme is not covered.
-/

namespace Shadownet.Cards

open Foundation Python
open Receiver (ProviderRecord)

/-! ## The signed part as a card -/

theorem distinct_prunedMembers {members : List (Text × Value)} (h : (Json.obj members).Distinct) :
    (Json.obj (Json.prunedMembers List.isEmpty members)).Distinct := by
  by_cases hnil : Json.prunedMembers List.isEmpty members = []
  · rw [hnil, Json.distinct_obj]
    simp
  · exact Json.distinct_pruned h (Json.pruned_obj_eq_some.mpr ⟨hnil, rfl⟩)

/-- The members the signature covers. -/
def signedCard (card : Dict) : Dict where
  members := Json.prunedMembers List.isEmpty (unsigned card).members
  distinct := distinct_prunedMembers (unsigned card).distinct

theorem get?_signedCard (card : Dict) {k : Text} (hk : k ≠ text "signatures") :
    (signedCard card).get? k = (card.get? k).bind stripEmpty := by
  have hfilter : (unsigned card).members.lookup k = card.get? k := by
    have hn := (Json.distinct_obj.mp card.distinct).1
    rw [unsigned, Dict.filter, Json.lookup_filter hn]
    cases h : card.members.lookup k with
    | none => rw [Option.filter_none, Dict.get?, h]
    | some v => rw [Option.filter_some, if_pos (by simpa using hk), Dict.get?, h]
  have hn := (Json.distinct_obj.mp (unsigned card).distinct).1
  rw [Dict.get?, signedCard, Json.lookup_prunedMembers hn, hfilter]
  rfl

theorem canonicalCardPayload_eq_ok {card : Dict} {b : Bytes} :
    canonicalCardPayload card = .ok b ↔ (signedCard card).members ≠ [] ∧
      canonicalize (.obj (signedCard card).members) = .ok b := by
  unfold canonicalCardPayload
  split
  · next hnone =>
    refine ⟨fun h => (throw_eq_ok.mp h).elim, fun h => ?_⟩
    rw [stripEmpty, Json.pruned_obj_eq_some.mpr ⟨h.1, rfl⟩] at hnone
    cases hnone
  · next pruned hsome =>
    obtain ⟨hne, rfl⟩ := Json.pruned_obj_eq_some.mp hsome
    exact ⟨fun h => ⟨hne, h⟩, fun h => h.2⟩

/-- The payload depends only on the signed part. -/
theorem canonicalCardPayload_congr {c₁ c₂ : Dict}
    (h : (signedCard c₁).members = (signedCard c₂).members) :
    canonicalCardPayload c₁ = canonicalCardPayload c₂ := by
  have hstrip : stripEmpty (.obj (unsigned c₁).members) =
      stripEmpty (.obj (unsigned c₂).members) := by
    rw [stripEmpty, stripEmpty, Json.pruned, Json.pruned,
      show Json.prunedMembers List.isEmpty (unsigned c₁).members = _ from h]
    rfl
  rw [canonicalCardPayload, hstrip, canonicalCardPayload]

/-- Two cards whose fields agree, name by name. -/
def SameFields (c₁ c₂ : Dict) : Prop := ∀ k, Option.Rel Json.Agrees (c₁.get? k) (c₂.get? k)

theorem sameFields_of_agrees {c₁ c₂ : Dict}
    (h : (Json.obj c₁.members).Agrees (.obj c₂.members)) : SameFields c₁ c₂ :=
  (Json.agrees_obj_iff (Json.distinct_obj.mp c₁.distinct).1
    (Json.distinct_obj.mp c₂.distinct).1).mp h

/-- Cards with one payload have signed parts that agree. -/
theorem signed_agree {c₁ c₂ : Dict} {b : Bytes} (h₁ : canonicalCardPayload c₁ = .ok b)
    (h₂ : canonicalCardPayload c₂ = .ok b) : SameFields (signedCard c₁) (signedCard c₂) := by
  have hb₁ := (canonicalCardPayload_eq_ok.mp h₁).2
  have hb₂ := (canonicalCardPayload_eq_ok.mp h₂).2
  exact sameFields_of_agrees
    (canonicalize_agrees (signedCard c₁).distinct (signedCard c₂).distinct hb₁ hb₂)

theorem get?_signedCard_signatures (card : Dict) :
    (signedCard card).get? (text "signatures") = none := by
  have hn := (Json.distinct_obj.mp card.distinct).1
  rw [Dict.get?, signedCard, Json.lookup_prunedMembers (Json.distinct_obj.mp
    (unsigned card).distinct).1, unsigned, Dict.filter, Json.lookup_filter hn]
  cases card.members.lookup (text "signatures") with
  | none => rfl
  | some v => rw [Option.filter_some, if_neg (by simp)]; rfl

/-- Cards that agree have signed parts that agree. -/
theorem SameFields.signed {c₁ c₂ : Dict} (h : SameFields c₁ c₂) :
    SameFields (signedCard c₁) (signedCard c₂) := by
  intro k
  by_cases hk : k = text "signatures"
  · rw [hk, get?_signedCard_signatures, get?_signedCard_signatures]
    exact .none
  · rw [get?_signedCard c₁ hk, get?_signedCard c₂ hk]
    have hrel := h k
    cases h₁ : c₁.get? k with
    | none =>
      rw [h₁] at hrel
      generalize c₂.get? k = o at hrel
      cases hrel with
      | none => exact .none
    | some v =>
      cases h₂ : c₂.get? k with
      | none =>
        rw [h₁, h₂] at hrel
        cases hrel
      | some w =>
        rw [h₁, h₂] at hrel
        cases hrel with
        | some hvw =>
          exact Json.pruned_agrees (Dict.distinct_get h₁) (Dict.distinct_get h₂) hvw

/-- Cards that agree have the same payload. -/
theorem SameFields.payload {c₁ c₂ : Dict} {b : Bytes} (h : SameFields c₁ c₂)
    (h₁ : canonicalCardPayload c₁ = .ok b) : canonicalCardPayload c₂ = .ok b := by
  obtain ⟨hne, hb⟩ := canonicalCardPayload_eq_ok.mp h₁
  have hagree : (Json.obj (signedCard c₁).members).Agrees (.obj (signedCard c₂).members) :=
    (Json.agrees_obj_iff (Json.distinct_obj.mp (signedCard c₁).distinct).1
      (Json.distinct_obj.mp (signedCard c₂).distinct).1).mpr h.signed
  refine canonicalCardPayload_eq_ok.mpr ⟨fun hnil => ?_,
    canonicalize_congr (signedCard c₁).distinct (signedCard c₂).distinct hagree hb⟩
  rw [hnil, Json.Agrees, List.length_nil, List.length_eq_zero_iff] at hagree
  exact hne hagree.1

/-! ## Fields of cards that agree -/

section
variable {G : Runtime} {c₁ c₂ : Dict}

theorem SameFields.str (h : SameFields c₁ c₂) {k s : Text} (hk : c₁.get? k = some (.str s)) :
    c₂.get? k = some (.str s) := by
  have hrel := h k
  rw [hk] at hrel
  generalize c₂.get? k = o at hrel
  cases hrel with
  | some hv => rw [Json.agrees_str.mp hv]

theorem lookup_of_agrees {ms : List (Text × Value)} {w : Value} (hv : (Json.obj ms).Distinct)
    (hw : w.Distinct) (h : (Json.obj ms).Agrees w) :
    ∃ ns, w = .obj ns ∧ ∀ k, Option.Rel Json.Agrees (ms.lookup k) (ns.lookup k) := by
  cases w with
  | obj ns =>
    exact ⟨ns, rfl,
      (Json.agrees_obj_iff (Json.distinct_obj.mp hv).1 (Json.distinct_obj.mp hw).1).mp h⟩
  | _ => cases h

theorem rel_some {ms ns : List (Text × Value)} {k : Text} {v : Value}
    (h : Option.Rel Json.Agrees (ms.lookup k) (ns.lookup k)) (hk : ms.lookup k = some v) :
    ∃ w, ns.lookup k = some w ∧ v.Agrees w := by
  rw [hk] at h
  generalize ns.lookup k = o at h ⊢
  cases h with
  | some hvw => exact ⟨_, rfl, hvw⟩

theorem hasUrl_congr {url : Text} {v w : Value} (hv : v.Distinct) (hw : w.Distinct)
    (h : v.Agrees w) (hurl : HasUrl url v) : HasUrl url w := by
  obtain ⟨ms, rfl, hlookup⟩ := hurl
  obtain ⟨ns, rfl, hrel⟩ := lookup_of_agrees hv hw h
  obtain ⟨w', hw', hagree⟩ := rel_some (hrel (text "url")) hlookup
  exact ⟨ns, rfl, by rw [hw', Json.agrees_str.mp hagree]⟩

theorem declaresShadownet_iff {v : Value} :
    declaresShadownet v = true ↔ ∃ entry, v = .obj entry ∧
      entry.lookup (text "uri") = some (.str extensionUri) ∧
      entry.lookup (text "required") = some (.bool true) := by
  cases v <;> simp [declaresShadownet]

theorem declaresShadownet_congr {v w : Value} (hv : v.Distinct) (hw : w.Distinct)
    (h : v.Agrees w) (hd : declaresShadownet v = true) : declaresShadownet w = true := by
  obtain ⟨ms, rfl, huri, hreq⟩ := declaresShadownet_iff.mp hd
  obtain ⟨ns, rfl, hrel⟩ := lookup_of_agrees hv hw h
  obtain ⟨u, hu, hagree⟩ := rel_some (hrel (text "uri")) huri
  obtain ⟨r, hr, hagree'⟩ := rel_some (hrel (text "required")) hreq
  refine declaresShadownet_iff.mpr ⟨ns, rfl, ?_, ?_⟩
  · rw [hu, Json.agrees_str.mp hagree]
  · rw [hr, Json.agrees_bool.mp hagree']

theorem validateExtensions_congr (h : SameFields c₁ c₂) (hok : validateExtensions c₁ = .ok ()) :
    validateExtensions c₂ = .ok () := by
  obtain ⟨caps, exts, hcaps, hexts, e, he, hdecl⟩ := validateExtensions_eq_ok.mp hok
  obtain ⟨w, hw, hagree⟩ := rel_some (h (text "capabilities")) hcaps
  have hdist := Dict.distinct_get hcaps
  have hdist' := Dict.distinct_get hw
  obtain ⟨caps', rfl, hrel⟩ := lookup_of_agrees hdist hdist' hagree
  obtain ⟨x, hx, hagree'⟩ := rel_some (hrel (text "extensions")) hexts
  obtain ⟨exts', rfl, hitems⟩ := Json.agrees_arr.mp hagree'
  have hall := Json.distinct_arr.mp ((Json.distinct_obj.mp hdist).2 _ (Json.mem_of_lookup hexts))
  have hall' := Json.distinct_arr.mp ((Json.distinct_obj.mp hdist').2 _ (Json.mem_of_lookup hx))
  obtain ⟨i, hi, rfl⟩ := List.mem_iff_getElem.mp he
  have hi' : i < exts'.length := hitems.length_eq ▸ hi
  refine validateExtensions_eq_ok.mpr
    ⟨caps', exts', hw, hx, exts'[i], List.getElem_mem hi', ?_⟩
  exact declaresShadownet_congr (hall _ (List.getElem_mem hi)) (hall' _ (List.getElem_mem hi'))
    ((List.forall₂_iff_get.mp hitems).2 i hi hi') hdecl

theorem supportedInterfaceUrl_congr (h : SameFields c₁ c₂) {url : Text}
    (hok : supportedInterfaceUrl c₁ = .ok url) : supportedInterfaceUrl c₂ = .ok url := by
  obtain ⟨hne, first, rest, hget, hurl⟩ := supportedInterfaceUrl_eq_ok.mp hok
  obtain ⟨w, hw, hagree⟩ := rel_some (h (text "supportedInterfaces")) hget
  obtain ⟨ys, rfl, hitems⟩ := Json.agrees_arr.mp hagree
  have hall := Json.distinct_arr.mp (Dict.distinct_get hget)
  have hall' := Json.distinct_arr.mp (Dict.distinct_get hw)
  cases hitems with
  | @cons _ first' _ rest' hfirst hrest =>
    refine supportedInterfaceUrl_eq_ok.mpr ⟨hne, first', rest', hw, ?_⟩
    exact hasUrl_congr (hall first (by simp)) (hall' first' (by simp)) hfirst hurl

/-- Cards that agree have the same fields. -/
theorem Fields.congr {pk url : Text} (hf : Fields G c₁ pk url) (h : SameFields c₁ c₂) :
    Fields G c₂ pk url where
  key := h.str hf.key
  parses := hf.parses
  version := h.str hf.version
  extensions := validateExtensions_congr h hf.extensions
  url := supportedInterfaceUrl_congr h hf.url

end

/-! ## Fields of the signed part -/

section
variable {G : Runtime} {card : Dict}

theorem stripEmpty_eq_str {v : Value} {s : Text} :
    stripEmpty v = some (.str s) ↔ v = .str s ∧ s ≠ [] := by
  rw [stripEmpty, Json.pruned_eq_some_iff]
  simp

theorem stripEmpty_eq_bool {v : Value} {b : Bool} :
    stripEmpty v = some (.bool b) ↔ v = .bool b := by
  rw [stripEmpty, Json.pruned_eq_some_iff]
  simp

theorem stripEmpty_eq_arr {v : Value} {ws : List Value} :
    stripEmpty v = some (.arr ws) ↔
      ∃ items, v = .arr items ∧ ws ≠ [] ∧ ws = items.filterMap stripEmpty := by
  rw [stripEmpty, Json.pruned_eq_some_iff]
  simp only [Json.prunedItems_eq]
  constructor
  · rintro (⟨_, _, h⟩ | ⟨_, _, h⟩ | ⟨_, _, _, h⟩ | ⟨items, hv, hne, h⟩ | ⟨_, _, _, h⟩)
    · cases h
    · cases h
    · cases h
    · obtain rfl := Json.arr.inj h
      exact ⟨items, hv, hne, rfl⟩
    · cases h
  · rintro ⟨items, hv, hne, rfl⟩
    exact .inr (.inr (.inr (.inl ⟨items, hv, hne, rfl⟩)))

theorem stripEmpty_eq_obj {v : Value} {ns : List (Text × Value)} :
    stripEmpty v = some (.obj ns) ↔
      ∃ ms, v = .obj ms ∧ ns ≠ [] ∧ ns = Json.prunedMembers List.isEmpty ms := by
  rw [stripEmpty, Json.pruned_eq_some_iff]
  constructor
  · rintro (⟨_, _, h⟩ | ⟨_, _, h⟩ | ⟨_, _, _, h⟩ | ⟨_, _, _, h⟩ | ⟨ms, hv, hne, h⟩)
    · cases h
    · cases h
    · cases h
    · cases h
    · obtain rfl := Json.obj.inj h
      exact ⟨ms, hv, hne, rfl⟩
  · rintro ⟨ms, hv, hne, rfl⟩
    exact .inr (.inr (.inr (.inr ⟨ms, hv, hne, rfl⟩)))

/-- An object with a member that is kept is kept. -/
theorem stripEmpty_of_member {ms : List (Text × Value)} (hd : (Json.obj ms).Distinct) {k : Text}
    {w : Value} (h : (ms.lookup k).bind stripEmpty = some w) :
    ∃ ns, stripEmpty (.obj ms) = some (.obj ns) ∧
      ∀ k, ns.lookup k = (ms.lookup k).bind stripEmpty := by
  have hlookup : ∀ k, (Json.prunedMembers List.isEmpty ms).lookup k =
      (ms.lookup k).bind stripEmpty := Json.lookup_prunedMembers (Json.distinct_obj.mp hd).1
  refine ⟨_, stripEmpty_eq_obj.mpr ⟨ms, rfl, fun hnil => ?_, rfl⟩, hlookup⟩
  have hk := hlookup k
  rw [hnil, h] at hk
  cases hk

theorem lookup_of_stripEmpty {v : Value} (hd : v.Distinct) {ns : List (Text × Value)}
    (h : stripEmpty v = some (.obj ns)) :
    ∃ ms, v = .obj ms ∧ ∀ k, ns.lookup k = (ms.lookup k).bind stripEmpty := by
  obtain ⟨ms, rfl, -, rfl⟩ := stripEmpty_eq_obj.mp h
  exact ⟨ms, rfl, Json.lookup_prunedMembers (Json.distinct_obj.mp hd).1⟩

theorem signed_str {k s : Text} (hk : k ≠ text "signatures") (hs : s ≠ []) :
    (signedCard card).get? k = some (.str s) ↔ card.get? k = some (.str s) := by
  rw [get?_signedCard card hk, Option.bind_eq_some_iff]
  constructor
  · rintro ⟨v, hv, hstrip⟩
    rw [hv, (stripEmpty_eq_str.mp hstrip).1]
  · exact fun h => ⟨_, h, stripEmpty_eq_str.mpr ⟨rfl, hs⟩⟩

theorem hasUrl_strip {url : Text} (hne : url ≠ []) {v : Value} (hd : v.Distinct) :
    HasUrl url v ↔ ∃ w, stripEmpty v = some w ∧ HasUrl url w := by
  constructor
  · rintro ⟨ms, rfl, hlookup⟩
    have hmember : (ms.lookup (text "url")).bind stripEmpty = some (.str url) := by
      rw [hlookup]
      exact stripEmpty_eq_str.mpr ⟨rfl, hne⟩
    obtain ⟨ns, hns, hall⟩ := stripEmpty_of_member hd hmember
    exact ⟨_, hns, ns, rfl, by rw [hall, hmember]⟩
  · rintro ⟨_, hstrip, ns, rfl, hlookup⟩
    obtain ⟨ms, rfl, hall⟩ := lookup_of_stripEmpty hd hstrip
    rw [hall, Option.bind_eq_some_iff] at hlookup
    obtain ⟨u, hu, hstr⟩ := hlookup
    exact ⟨ms, rfl, by rw [hu, (stripEmpty_eq_str.mp hstr).1]⟩

theorem declaresShadownet_strip {v : Value} (hd : v.Distinct) :
    declaresShadownet v = true ↔
      ∃ w, stripEmpty v = some w ∧ declaresShadownet w = true := by
  constructor
  · intro h
    obtain ⟨ms, rfl, huri, hreq⟩ := declaresShadownet_iff.mp h
    have huri' : (ms.lookup (text "uri")).bind stripEmpty = some (.str extensionUri) := by
      rw [huri]
      exact stripEmpty_eq_str.mpr ⟨rfl, by decide⟩
    have hreq' : (ms.lookup (text "required")).bind stripEmpty = some (.bool true) := by
      rw [hreq]
      exact stripEmpty_eq_bool.mpr rfl
    obtain ⟨ns, hns, hall⟩ := stripEmpty_of_member hd huri'
    exact ⟨_, hns, declaresShadownet_iff.mpr
      ⟨ns, rfl, by rw [hall, huri'], by rw [hall, hreq']⟩⟩
  · rintro ⟨w, hstrip, h⟩
    obtain ⟨ns, rfl, huri, hreq⟩ := declaresShadownet_iff.mp h
    obtain ⟨ms, rfl, hall⟩ := lookup_of_stripEmpty hd hstrip
    rw [hall, Option.bind_eq_some_iff] at huri hreq
    obtain ⟨u, hu, hstr⟩ := huri
    obtain ⟨r, hr, hbool⟩ := hreq
    exact declaresShadownet_iff.mpr ⟨ms, rfl, by rw [hu, (stripEmpty_eq_str.mp hstr).1],
      by rw [hr, stripEmpty_eq_bool.mp hbool]⟩

theorem validateExtensions_signed :
    validateExtensions (signedCard card) = .ok () ↔ validateExtensions card = .ok () := by
  have hget := get?_signedCard card (show text "capabilities" ≠ text "signatures" by decide)
  rw [validateExtensions_eq_ok, validateExtensions_eq_ok]
  constructor
  · rintro ⟨ns, ws, hcaps, hexts, w, hw, hdecl⟩
    rw [hget, Option.bind_eq_some_iff] at hcaps
    obtain ⟨v, hv, hstrip⟩ := hcaps
    have hd := Dict.distinct_get hv
    obtain ⟨ms, rfl, hall⟩ := lookup_of_stripEmpty hd hstrip
    rw [hall, Option.bind_eq_some_iff] at hexts
    obtain ⟨x, hx, harr⟩ := hexts
    obtain ⟨items, rfl, -, rfl⟩ := stripEmpty_eq_arr.mp harr
    obtain ⟨e, he, hew⟩ := List.mem_filterMap.mp hw
    have hde := Json.distinct_arr.mp ((Json.distinct_obj.mp hd).2 _ (Json.mem_of_lookup hx)) e he
    exact ⟨ms, items, hv, hx, e, he, (declaresShadownet_strip hde).mpr ⟨w, hew, hdecl⟩⟩
  · rintro ⟨ms, items, hcaps, hexts, e, he, hdecl⟩
    have hd := Dict.distinct_get hcaps
    have hde := Json.distinct_arr.mp
      ((Json.distinct_obj.mp hd).2 _ (Json.mem_of_lookup hexts)) e he
    obtain ⟨w, hew, hdecl'⟩ := (declaresShadownet_strip hde).mp hdecl
    have hw : w ∈ items.filterMap stripEmpty := List.mem_filterMap.mpr ⟨e, he, hew⟩
    have harr : stripEmpty (.arr items) = some (.arr (items.filterMap stripEmpty)) :=
      stripEmpty_eq_arr.mpr ⟨items, rfl, List.ne_nil_of_mem hw, rfl⟩
    have hmember : (ms.lookup (text "extensions")).bind stripEmpty =
        some (.arr (items.filterMap stripEmpty)) := by
      rw [hexts]
      exact harr
    obtain ⟨ns, hns, hall⟩ := stripEmpty_of_member hd hmember
    refine ⟨ns, _, ?_, by rw [hall, hmember], w, hw, hdecl'⟩
    rw [hget, hcaps]
    exact hns

/-- The first interface of the card is not an empty value. -/
def Unpadded (card : Dict) : Prop :=
  ∃ first rest, card.get? (text "supportedInterfaces") = some (.arr (first :: rest)) ∧
    (stripEmpty first).isSome = true

theorem supportedInterfaceUrl_signed {url : Text} :
    supportedInterfaceUrl card = .ok url ↔
      supportedInterfaceUrl (signedCard card) = .ok url ∧ Unpadded card := by
  have hget := get?_signedCard card (show text "supportedInterfaces" ≠ text "signatures" by decide)
  rw [supportedInterfaceUrl_eq_ok, supportedInterfaceUrl_eq_ok]
  constructor
  · rintro ⟨hne, first, rest, hfirst, hurl⟩
    have hd := Json.distinct_arr.mp (Dict.distinct_get hfirst) first (by simp)
    obtain ⟨w, hw, hurl'⟩ := (hasUrl_strip hne hd).mp hurl
    have harr : stripEmpty (.arr (first :: rest)) = some (.arr (w :: rest.filterMap stripEmpty)) :=
      stripEmpty_eq_arr.mpr ⟨_, rfl, by simp, by rw [List.filterMap_cons_some hw]⟩
    refine ⟨⟨hne, w, rest.filterMap stripEmpty, ?_, hurl'⟩, first, rest, hfirst, by rw [hw]; rfl⟩
    rw [hget, hfirst]
    exact harr
  · rintro ⟨⟨hne, w, ws, hsigned, hurl⟩, first, rest, hfirst, hkept⟩
    have hd := Json.distinct_arr.mp (Dict.distinct_get hfirst) first (by simp)
    obtain ⟨u, hu⟩ := Option.isSome_iff_exists.mp hkept
    rw [hget, hfirst, Option.bind_some, stripEmpty_eq_arr] at hsigned
    obtain ⟨items, heq, -, hws⟩ := hsigned
    rw [← Json.arr.inj heq, List.filterMap_cons_some hu, List.cons.injEq] at hws
    exact ⟨hne, first, rest, hfirst, (hasUrl_strip hne hd).mpr ⟨u, hu, hws.1 ▸ hurl⟩⟩

theorem ne_nil_of_parsePublicKey {pk : Text} {raw : Bytes} (h : parsePublicKey G pk = .ok raw) :
    pk ≠ [] := by
  rintro rfl
  simp only [parsePublicKey, bind_eq_ok, validateMultibasePk, guard_eq_ok] at h
  obtain ⟨-, ⟨hp, -⟩, -⟩ := h
  exact hp (by decide)

/-- The fields of a card are those of its signed part. -/
theorem fields_iff {pk url : Text} :
    Fields G card pk url ↔ Fields G (signedCard card) pk url ∧ Unpadded card := by
  constructor
  · intro h
    obtain ⟨raw, hraw⟩ := h.parses
    obtain ⟨hurl, hpad⟩ := supportedInterfaceUrl_signed.mp h.url
    exact ⟨⟨(signed_str (by decide) (ne_nil_of_parsePublicKey hraw)).mpr h.key, h.parses,
      (signed_str (by decide) (by decide)).mpr h.version,
      validateExtensions_signed.mpr h.extensions, hurl⟩, hpad⟩
  · rintro ⟨h, hpad⟩
    obtain ⟨raw, hraw⟩ := h.parses
    exact ⟨(signed_str (by decide) (ne_nil_of_parsePublicKey hraw)).mp h.key, h.parses,
      (signed_str (by decide) (by decide)).mp h.version,
      validateExtensions_signed.mp h.extensions, supportedInterfaceUrl_signed.mpr ⟨h.url, hpad⟩⟩

/-- The key and the URL are read off the card. -/
theorem Fields.unique {pk pk' url url' : Text} (h : Fields G card pk url)
    (h' : Fields G card pk' url') : pk = pk' ∧ url = url' := by
  have hkey := h.key.symm.trans h'.key
  have hurl := h.url.symm.trans h'.url
  exact ⟨by simpa using hkey, by simpa using hurl⟩

end

/-! ## Two cards with one payload -/

section
variable {G : Runtime} {J : JsonRuntime} {c₁ c₂ : Dict}

theorem SignedBy.payload {signers : List Text} {kid : Text} (h : SignedBy G J c₁ signers kid) :
    ∃ b, canonicalCardPayload c₁ = .ok b := by
  obtain ⟨-, b, -, hb, -⟩ := h
  exact ⟨b, hb⟩

/-- Cards with one payload have signed parts with the same fields. -/
theorem Fields.of_payload {pk url : Text} {b : Bytes} (hf : Fields G (signedCard c₁) pk url)
    (h₁ : canonicalCardPayload c₁ = .ok b)
    (hpayload : canonicalCardPayload c₁ = canonicalCardPayload c₂) :
    Fields G (signedCard c₂) pk url :=
  hf.congr (signed_agree h₁ (hpayload ▸ h₁))

theorem fields_eq {pk₁ pk₂ url₁ url₂ : Text} {b : Bytes}
    (h₁ : canonicalCardPayload c₁ = .ok b)
    (hpayload : canonicalCardPayload c₁ = canonicalCardPayload c₂) (hf₁ : Fields G c₁ pk₁ url₁)
    (hf₂ : Fields G c₂ pk₂ url₂) : pk₁ = pk₂ ∧ url₁ = url₂ :=
  ((fields_iff.mp hf₁).1.of_payload h₁ hpayload).unique (fields_iff.mp hf₂).1

/-- What a verified card says is what was signed: two accepted cards with one payload give the
same key and the same URL. -/
theorem verified_fields_eq (G : Runtime) (J : JsonRuntime) (c₁ c₂ : Dict)
    (hpayload : canonicalCardPayload c₁ = canonicalCardPayload c₂) :
    (∀ record shadowname f₁ f₂, verifyAgentCard G J c₁ record shadowname = .ok f₁ →
      verifyAgentCard G J c₂ record shadowname = .ok f₂ →
      f₁.shadowPublicKey = f₂.shadowPublicKey ∧ f₁.endpointUrl = f₂.endpointUrl) ∧
    (∀ K f₁ f₂, verifySelfSignedAgentCard G J c₁ K = .ok f₁ →
      verifySelfSignedAgentCard G J c₂ K = .ok f₂ →
      f₁.shadowPublicKey = f₂.shadowPublicKey ∧ f₁.endpointUrl = f₂.endpointUrl) := by
  constructor
  · intro record shadowname f₁ f₂ h₁ h₂
    obtain ⟨-, -, hsigned, hf₁, -⟩ := verifyAgentCard_eq_ok.mp h₁
    obtain ⟨-, -, -, hf₂, -⟩ := verifyAgentCard_eq_ok.mp h₂
    obtain ⟨b, hb⟩ := hsigned.payload
    exact fields_eq hb hpayload hf₁ hf₂
  · intro K f₁ f₂ h₁ h₂
    obtain ⟨hsigned, hf₁, -, heq₁⟩ := verifySelfSignedAgentCard_eq_ok.mp h₁
    obtain ⟨-, hf₂, -, heq₂⟩ := verifySelfSignedAgentCard_eq_ok.mp h₂
    obtain ⟨b, hb⟩ := hsigned.payload
    refine ⟨by rw [heq₁, heq₂], (fields_eq hb hpayload hf₁ hf₂).2⟩

/-! ### A card signed for direct mode and for `a.co` -/

def cardKey : Text := text "z6MkvDqGT54cXesYGvABpF1UapVNwjCqRcafi4Px6Thv5T3Z"

def cardKeyBytes : Bytes :=
  [234, 74, 108, 99, 226, 156, 82, 10, 190, 245, 80, 123, 19, 46, 197, 249, 149, 71, 118, 174,
    190, 190, 123, 146, 66, 30, 234, 105, 20, 70, 210, 44]

def cardPayload : Text :=
  text "\x7b\"capabilities\":\x7b\"extensions\":[\x7b\"required\":true," ++
  text "\"uri\":\"urn:shadownet:0.2\"\x7d]\x7d,\"shadownet:pk\":\"" ++ cardKey ++
  text "\",\"shadownet:v\":\"0.2\",\"supportedInterfaces\":[\x7b\"url\":\"https://a.co/x\"\x7d]\x7d"

/-- `kid` of the direct-mode signature and of the provider's. -/
def cardKid (direct : Bool) : Text := if direct then cardKey else text "shadownet@a.co"

def cardHeader (kid : Text) : Text :=
  text "\x7b\"alg\":\"EdDSA\",\"typ\":\"JOSE\",\"kid\":\"" ++ kid ++ text "\"\x7d"

def cardSignature (direct : Bool) : Bytes :=
  if direct then
    [227, 156, 46, 228, 219, 90, 131, 213, 9, 106, 49, 71, 29, 233, 164, 106, 222, 132, 127, 108,
      185, 172, 96, 43, 195, 144, 244, 70, 152, 27, 101, 87, 71, 90, 108, 22, 28, 10, 223, 41,
      238, 41, 5, 222, 194, 147, 115, 187, 242, 134, 111, 49, 141, 218, 140, 0, 251, 31, 115,
      250, 119, 221, 27, 2]
  else
    [147, 57, 57, 196, 133, 97, 165, 84, 204, 15, 49, 76, 239, 81, 10, 45, 64, 47, 38, 60, 147,
      45, 201, 48, 112, 253, 24, 205, 139, 175, 244, 140, 83, 90, 2, 135, 233, 73, 243, 5, 139,
      65, 83, 212, 204, 161, 130, 202, 120, 36, 54, 90, 105, 52, 224, 146, 229, 32, 81, 111, 0,
      147, 61, 0]

/-- Ed25519 on the signatures of the sample. -/
def cardRuntime : Runtime := { bareRuntime with
  ed25519Verify := fun key sig msg => key == cardKeyBytes && [true, false].any fun direct =>
    cardSignature direct == sig &&
      signingInput (utf8 (cardHeader (cardKid direct))) (utf8 cardPayload) == msg }

def sampleSignature (direct : Bool) : List (Text × Value) :=
  [(text "protected", .str (base64Url (utf8 (cardHeader (cardKid direct))))),
   (text "signature", .str (base64Url (cardSignature direct)))]

/-- The card with one of the signatures, with or without an empty second interface, and with
or without the scheme as `build_direct_signed_agent_card` declares it. -/
def sampleMembers (direct pad declared : Bool) : List (Text × Value) :=
  [(text "supportedInterfaces", .arr (.obj [(text "url", .str (text "https://a.co/x"))] ::
      if pad then [.obj []] else [])),
   (text "capabilities", .obj [(text "extensions", .arr [.obj
     [(text "uri", .str extensionUri), (text "required", .bool true)]])]),
   (text "shadownet:v", .str (text "0.2")),
   (text "shadownet:pk", .str cardKey),
   (text "securitySchemes", .obj (if declared then [(pinnedSelfSignedScheme, .obj [])] else [])),
   (text "signatures", .arr [.obj (sampleSignature direct)])]

def sampleCard (direct pad declared : Bool) : Dict where
  members := sampleMembers direct pad declared
  distinct := by cases direct <;> cases pad <;> cases declared <;> decide

theorem payload_sampleCard (direct pad declared : Bool) :
    canonicalCardPayload (sampleCard direct pad declared) = .ok (utf8 cardPayload) := by
  have hsigned : ∀ direct pad declared, (signedCard (sampleCard direct pad declared)).members =
      (signedCard (sampleCard true false true)).members := by decide
  have hpayload : canonicalCardPayload (sampleCard true false true) = .ok (utf8 cardPayload) := by
    decide +kernel
  rw [canonicalCardPayload_congr (hsigned direct pad declared), hpayload]

theorem parsePublicKey_cardKey : parsePublicKey cardRuntime cardKey = .ok cardKeyBytes := by
  decide

theorem fields_sampleCard (direct pad declared : Bool) :
    Fields cardRuntime (sampleCard direct pad declared) cardKey (text "https://a.co/x") where
  key := by cases direct <;> cases pad <;> cases declared <;> decide
  parses := ⟨_, parsePublicKey_cardKey⟩
  version := by cases direct <;> cases pad <;> cases declared <;> decide
  extensions := by cases direct <;> cases pad <;> cases declared <;> decide
  url := by cases direct <;> cases pad <;> cases declared <;> decide

theorem signedBy_sampleCard (direct pad declared : Bool) :
    SignedBy cardRuntime Interop.plainJson (sampleCard direct pad declared) [cardKey]
      (cardKid direct) := by
  have hverify : verifyUnder cardRuntime (cardSignature direct)
      (signingInput (utf8 (cardHeader (cardKid direct))) (utf8 cardPayload)) cardKey = .ok () := by
    have hsig : cardRuntime.ed25519Verify cardKeyBytes (cardSignature direct)
        (signingInput (utf8 (cardHeader (cardKid direct))) (utf8 cardPayload)) = true := by
      rw [cardRuntime, Bool.and_eq_true, List.any_eq_true]
      exact ⟨beq_self_eq_true _, direct, by simp, by simp⟩
    rw [verifyUnder, parsePublicKey_cardKey, ok_bind, fromPublicBytes, if_neg (by decide),
      pure_bind, verifySignature]
    exact if_pos hsig
  have hheader : ∀ direct, ∃ members,
      jsonLoads Interop.plainJson (utf8 (cardHeader (cardKid direct))) = .ok (.obj members) ∧
      members.lookup (text "alg") = some (.str (text "EdDSA")) ∧
      members.lookup (text "typ") = some (.str (text "JOSE")) ∧
      members.lookup (text "kid") = some (.str (cardKid direct)) := by
    intro direct
    refine ⟨[(text "alg", .str (text "EdDSA")), (text "typ", .str (text "JOSE")),
      (text "kid", .str (cardKid direct))], ?_, rfl, rfl, rfl⟩
    cases direct <;> decide +kernel
  have hsigs : signaturesOf (sampleCard direct pad declared) =
    .ok [.obj (sampleSignature direct)] :=
    rfl
  exact ⟨_, _, hsigs, payload_sampleCard direct pad declared,
    verifySignatures_of_signatureOk ⟨rfl, rfl, hheader direct, cardKey, by simp, hverify⟩⟩

/-- The record of the provider, with the key of the cards. -/
def cardRecord : ProviderRecord :=
  ⟨text "a.co", text "0.2", text "https://a.co", [cardKey], false, []⟩

/-- A card and the same card with an empty interface added, in both modes. -/
theorem verified_fields_eq_padded :
    (canonicalCardPayload (sampleCard false false true) =
      canonicalCardPayload (sampleCard false true true) ∧
    ∃ f₁ f₂, verifyAgentCard cardRuntime Interop.plainJson (sampleCard false false true)
        cardRecord (text "x@a.co") = .ok f₁ ∧
      verifyAgentCard cardRuntime Interop.plainJson (sampleCard false true true)
        cardRecord (text "x@a.co") = .ok f₂ ∧
      f₁.shadowPublicKey = f₂.shadowPublicKey ∧ f₁.endpointUrl = f₂.endpointUrl) ∧
    (canonicalCardPayload (sampleCard true false true) =
      canonicalCardPayload (sampleCard true true true) ∧
    ∃ f₁ f₂, verifySelfSignedAgentCard cardRuntime Interop.plainJson (sampleCard true false true)
        cardKey = .ok f₁ ∧
      verifySelfSignedAgentCard cardRuntime Interop.plainJson (sampleCard true true true)
        cardKey = .ok f₂ ∧
      f₁.shadowPublicKey = f₂.shadowPublicKey ∧ f₁.endpointUrl = f₂.endpointUrl) := by
  have hpayload : ∀ direct, canonicalCardPayload (sampleCard direct false true) =
      canonicalCardPayload (sampleCard direct true true) := fun direct =>
    (payload_sampleCard direct false true).trans (payload_sampleCard direct true true).symm
  have hname : validateShadowname cardRuntime (text "x@a.co") = .ok (text "x@a.co") := by
    decide
  have hpart : (partitionAt (text "x@a.co")).2 = text "a.co" := by decide
  have hprovider : ∀ pad, verifyAgentCard cardRuntime Interop.plainJson
      (sampleCard false pad true) cardRecord (text "x@a.co") =
        .ok ⟨text "x@a.co", cardKey, text "https://a.co/x", sampleCard false pad true⟩ := fun pad =>
    verifyAgentCard_eq_ok.mpr ⟨hname, hpart, signedBy_sampleCard false pad true,
      fields_sampleCard false pad true, rfl⟩
  have hdirect : ∀ pad, verifySelfSignedAgentCard cardRuntime Interop.plainJson
      (sampleCard true pad true) cardKey =
        .ok ⟨cardKey, cardKey, text "https://a.co/x", sampleCard true pad true⟩ := fun pad =>
    verifySelfSignedAgentCard_eq_ok.mpr ⟨signedBy_sampleCard true pad true,
      fields_sampleCard true pad true, by cases pad <;> decide, rfl⟩
  have hfields := verified_fields_eq cardRuntime Interop.plainJson _ _ (hpayload false)
  have hfields' := verified_fields_eq cardRuntime Interop.plainJson _ _ (hpayload true)
  exact ⟨⟨hpayload false, _, _, hprovider false, hprovider true,
      hfields.1 _ _ _ _ (hprovider false) (hprovider true)⟩,
    hpayload true, _, _, hdirect false, hdirect true,
      hfields'.2 _ _ _ (hdirect false) (hdirect true)⟩

/-! ## The declaration of the security scheme -/

/-- The signatures and the signed part pass every check of `verify_self_signed_agent_card` that
looks only at them. -/
def SignedOk (G : Runtime) (J : JsonRuntime) (card : Dict) (K : Text) : Prop :=
  SignedBy G J card [K] K ∧ ∃ url, Fields G (signedCard card) K url

/-- `shadownet:pinned-self-signed` is a key of the card's `securitySchemes`. -/
def DeclaresPinned (card : Dict) : Prop :=
  ∃ schemes, card.get? (text "securitySchemes") = some (.obj schemes) ∧
    (schemes.lookup pinnedSelfSignedScheme).isSome = true

theorem self_signed_accepted_iff {card : Dict} {K : Text} :
    (∃ f, verifySelfSignedAgentCard G J card K = .ok f) ↔
      SignedOk G J card K ∧ DeclaresPinned card ∧ Unpadded card := by
  simp only [verifySelfSignedAgentCard_eq_ok, @fields_iff G card,
    validateDirectSecurityScheme_eq_ok]
  constructor
  · rintro ⟨f, hsigned, ⟨hfields, hpad⟩, hscheme, -⟩
    exact ⟨⟨hsigned, _, hfields⟩, hscheme, hpad⟩
  · rintro ⟨⟨hsigned, url, hfields⟩, hscheme, hpad⟩
    exact ⟨⟨K, K, url, card⟩, hsigned, ⟨hfields, hpad⟩, hscheme, rfl⟩

theorem signedOk_congr {K : Text}
    (hsigs : c₁.get? (text "signatures") = c₂.get? (text "signatures"))
    (hpayload : canonicalCardPayload c₁ = canonicalCardPayload c₂) (h : SignedOk G J c₁ K) :
    SignedOk G J c₂ K := by
  obtain ⟨⟨sigs, b, hs, hb, hverify⟩, url, hfields⟩ := h
  have hs' : signaturesOf c₂ = .ok sigs := by
    rw [signaturesOf_eq_ok] at hs ⊢
    rwa [← hsigs]
  exact ⟨⟨sigs, b, hs', hpayload ▸ hb, hverify⟩, url, hfields.of_payload hb hpayload⟩

/-- Two cards with one signature list and one payload are both accepted or both rejected
exactly when the signed part fails by itself, or the two cards are alike in what the
signature does not cover: the declared scheme and the entry before the first interface. -/
theorem self_signed_iff (G : Runtime) (J : JsonRuntime) (c₁ c₂ : Dict) (K : Text)
    (hsigs : c₁.get? (text "signatures") = c₂.get? (text "signatures"))
    (hpayload : canonicalCardPayload c₁ = canonicalCardPayload c₂) :
    ((∃ f, verifySelfSignedAgentCard G J c₁ K = .ok f) ↔
      ∃ f, verifySelfSignedAgentCard G J c₂ K = .ok f) ↔
    (SignedOk G J c₁ K →
      (DeclaresPinned c₁ ∧ Unpadded c₁ ↔ DeclaresPinned c₂ ∧ Unpadded c₂)) := by
  have hok : SignedOk G J c₁ K ↔ SignedOk G J c₂ K :=
    ⟨signedOk_congr hsigs hpayload, signedOk_congr hsigs.symm hpayload.symm⟩
  rw [self_signed_accepted_iff, self_signed_accepted_iff, ← hok, and_congr_right_iff]

/-- Taking the declaration out of a card that has it, without touching its signature. -/
theorem self_signed_stripped :
    (sampleCard true false true).get? (text "signatures") =
      (sampleCard true false false).get? (text "signatures") ∧
    canonicalCardPayload (sampleCard true false true) =
      canonicalCardPayload (sampleCard true false false) ∧
    (∃ f, verifySelfSignedAgentCard cardRuntime Interop.plainJson (sampleCard true false true)
      cardKey = .ok f) ∧
    ¬ ∃ f, verifySelfSignedAgentCard cardRuntime Interop.plainJson (sampleCard true false false)
      cardKey = .ok f := by
  have hscheme : validateDirectSecurityScheme cardRuntime (sampleCard true false true) =
    .ok () := by
    decide
  have hscheme' : validateDirectSecurityScheme cardRuntime (sampleCard true false false) ≠
      .ok () := by
    decide
  refine ⟨rfl, (payload_sampleCard true false true).trans
    (payload_sampleCard true false false).symm,
    ⟨⟨cardKey, cardKey, text "https://a.co/x", sampleCard true false true⟩,
      verifySelfSignedAgentCard_eq_ok.mpr ⟨signedBy_sampleCard true false true,
        fields_sampleCard true false true, hscheme, rfl⟩⟩, ?_⟩
  rintro ⟨f, hf⟩
  exact hscheme' (verifySelfSignedAgentCard_eq_ok.mp hf).2.2.1

/-- Adding an empty interface behind the first leaves the verdict as it is. -/
theorem self_signed_iff_padded :
    (sampleCard true false true).get? (text "signatures") =
      (sampleCard true true true).get? (text "signatures") ∧
    canonicalCardPayload (sampleCard true false true) =
      canonicalCardPayload (sampleCard true true true) ∧
    (((∃ f, verifySelfSignedAgentCard cardRuntime Interop.plainJson (sampleCard true false true)
        cardKey = .ok f) ↔
      ∃ f, verifySelfSignedAgentCard cardRuntime Interop.plainJson (sampleCard true true true)
        cardKey = .ok f) ↔
    (SignedOk cardRuntime Interop.plainJson (sampleCard true false true) cardKey →
      (DeclaresPinned (sampleCard true false true) ∧ Unpadded (sampleCard true false true) ↔
        DeclaresPinned (sampleCard true true true) ∧ Unpadded (sampleCard true true true)))) := by
  have hpayload : canonicalCardPayload (sampleCard true false true) =
      canonicalCardPayload (sampleCard true true true) :=
    (payload_sampleCard true false true).trans (payload_sampleCard true true true).symm
  exact ⟨rfl, hpayload, self_signed_iff cardRuntime Interop.plainJson _ _ cardKey rfl hpayload⟩

end

end Shadownet.Cards
