import Shadownet.Interop.Base58
import Shadownet.Interop.Marshal

/-!
# Go documents as Python values

A document without numbers whose strings are valid UTF-8 is the Go value of a Python value
(`toGo_fromGo`). The canonical encoder of Go writes no other strings (`jcsEncode_valid`), so
whatever the Go code signs can be read back.
-/

namespace Shadownet.Interop

open Foundation
open Python (Clean Value Dict)

/-- The bytes are valid UTF-8. -/
def Valid (s : Bytes) : Prop := (utf8Decode s).isSome = true

instance : DecidablePred Valid := fun _ => inferInstanceAs (Decidable (_ = true))

theorem valid_bytes (s : String) : Valid (bytes s) := by
  rw [Valid, utf8Decode_bytes, Option.isSome_some]

/-- The text that valid bytes stand for. -/
def decoded (s : Bytes) : Text := (utf8Decode s).getD []

theorem decoded_of_valid {s : Bytes} (h : Valid s) : utf8 (decoded s) = s ∧ Clean (decoded s) := by
  obtain ⟨t, ht⟩ := Option.isSome_iff_exists.mp h
  rw [decoded, ht]
  exact utf8Decode_eq_some ht

theorem decoded_utf8 {t : Text} (h : Clean t) : decoded (utf8 t) = t := by
  rw [decoded, utf8Decode_utf8 h, Option.getD_some]

theorem valid_utf8 {t : Text} (h : Clean t) : Valid (utf8 t) := by
  rw [Valid, utf8Decode_utf8 h]
  rfl

theorem clean_latin {s : Bytes} (h : ∀ b ∈ s, b.toNat < 0x80) : Clean (s.map latin) := by
  intro c hc hs
  obtain ⟨b, hb, rfl⟩ := List.mem_map.mp hc
  rw [CodePoint.IsSurrogate, latin_val] at hs
  have := h b hb
  omega

theorem decoded_ascii {s : Bytes} (h : ∀ b ∈ s, b.toNat < 0x80) : decoded s = s.map latin := by
  conv_lhs => rw [← utf8_latin h]
  exact decoded_utf8 (clean_latin h)

/-! ## What the canonical encoder accepts -/

theorem joinComma_eq_ok {xs : List (Go.GoM Bytes)} {b : Bytes} (h : Go.joinComma xs = .ok b) :
    ∀ x ∈ xs, ∃ a, x = .ok a := by
  induction xs generalizing b with
  | nil => simp
  | cons x xs ih =>
    cases xs with
    | nil =>
      rw [List.forall_mem_singleton]
      exact ⟨b, h⟩
    | cons y ys =>
      rw [Go.joinComma] at h
      obtain ⟨a, ha, c, hc, -⟩ := by simpa only [bind_eq_ok] using h
      · exact List.forall_mem_cons.mpr ⟨⟨a, ha⟩, ih hc⟩
      · simp

theorem jcsString_eq_ok {s b : Bytes} (h : Go.jcsString s = .ok b) : Valid s := by
  rw [Go.jcsString] at h
  split at h
  · exact (throw_eq_ok.mp h).elim
  · next t ht => exact Option.isSome_iff_exists.mpr ⟨t, ht⟩

/-- The encoder rejects a document with a string that is not valid UTF-8. -/
theorem jcsEncode_valid {G : Go.Runtime} {d : Go.JsonDoc} {b : Bytes}
    (h : Go.jcsEncode G d = .ok b) : d.Forall (fun _ => True) Valid fun _ => True := by
  induction d using Json.ind generalizing b with
  | null => trivial
  | bool b => trivial
  | num lit => trivial
  | str s => exact jcsString_eq_ok h
  | arr items ih =>
    rw [Go.jcsEncode, bind_eq_ok] at h
    obtain ⟨inner, hinner, -⟩ := h
    rw [Json.forall_arr]
    intro v hv
    rw [jcsItems_eq] at hinner
    obtain ⟨a, ha⟩ := joinComma_eq_ok hinner _ (List.mem_map_of_mem hv)
    exact ih v hv ha
  | obj members ih =>
    rw [Go.jcsEncode, bind_eq_ok] at h
    obtain ⟨inner, hinner, -⟩ := h
    rw [Json.forall_obj]
    refine ⟨trivial, fun m hm => ?_⟩
    have hin : (m.1, Go.jcsEncode G m.2) ∈
        (Go.jcsMembers G members).insertionSort fun a b => Go.utf16Le a.1 b.1 := by
      rw [List.mem_insertionSort, jcsMembers_eq]
      exact List.mem_map_of_mem hm
    obtain ⟨a, ha⟩ := joinComma_eq_ok hinner _ (List.mem_map_of_mem hin)
    simp only [Go.jcsMember, bind_eq_ok] at ha
    obtain ⟨k, hk, v, hv, -⟩ := ha
    exact ⟨jcsString_eq_ok hk, ih m hm hv⟩

/-! ## Reading a document back -/

/-- No numbers, valid strings, distinct names. -/
def Readable (d : Go.JsonDoc) : Prop := d.Forall (fun _ => False) Valid List.Nodup

/-- The Python value of a readable document. -/
def fromGo (d : Go.JsonDoc) : Value := d.map decoded fun _ => .int 0

theorem toGo_fromGo {d : Go.JsonDoc} (h : Readable d) : toGo (fromGo d) = d := by
  rw [toGo_eq, fromGo, Json.map_map]
  conv_rhs => rw [← Json.map_id d]
  refine Json.map_eq_map_iff.mpr (h.mono (fun _ hn => hn.elim) ?_ fun _ _ => trivial)
  exact fun s hs => (decoded_of_valid hs).1

theorem encodable_fromGo {d : Go.JsonDoc} (h : Readable d) : Python.Encodable (fromGo d) := by
  rw [Python.Encodable, fromGo, Json.forall_map]
  exact h.mono (fun _ hn => hn.elim) (fun s hs => (decoded_of_valid hs).2) fun _ _ => trivial

theorem distinct_fromGo {d : Go.JsonDoc} (h : Readable d) : (fromGo d).Distinct := by
  refine Json.distinct_map (Q := Valid) ?_
    (h.mono (fun _ _ => trivial) (fun _ hs => hs) fun _ hn => hn)
  intro a b ha hb hab
  rw [← (decoded_of_valid ha).1, hab, (decoded_of_valid hb).1]

theorem fromGo_obj (members : List (Bytes × Go.JsonDoc)) :
    fromGo (.obj members) = .obj (members.map fun m => (decoded m.1, fromGo m.2)) :=
  Json.map_obj _ _ members

/-- The Python dictionary of a readable object. -/
def readDict (members : List (Bytes × Go.JsonDoc)) (h : Readable (.obj members)) : Dict where
  members := members.map fun m => (decoded m.1, fromGo m.2)
  distinct := by
    rw [← fromGo_obj]
    exact distinct_fromGo h

theorem lookup_fromGo {members : List (Bytes × Go.JsonDoc)} (h : ∀ m ∈ members, Valid m.1)
    {k : Text} (hk : Clean k) :
    (members.map fun m => (decoded m.1, fromGo m.2)).lookup k =
      (members.lookup (utf8 k)).map fromGo := by
  induction members with
  | nil => rfl
  | cons m ms ih =>
    rw [List.forall_mem_cons] at h
    obtain ⟨l, v⟩ := m
    have hl := decoded_of_valid h.1
    rw [List.map_cons, List.lookup_cons, List.lookup_cons, ih h.2]
    have hbeq : (k == decoded l) = (utf8 k == l) := by
      rw [Bool.eq_iff_iff, beq_iff_eq, beq_iff_eq]
      constructor
      · rintro rfl
        exact hl.1
      · rintro rfl
        exact (decoded_utf8 hk).symm
    rw [hbeq]
    cases utf8 k == l <;> rfl

theorem get?_readDict {members : List (Bytes × Go.JsonDoc)} (h : Readable (.obj members))
    {k : Text} (hk : Clean k) :
    (readDict members h).get? k = (members.lookup (utf8 k)).map fromGo :=
  lookup_fromGo (fun m hm => ((Json.forall_obj.mp h).2 m hm).1) hk

end Shadownet.Interop
