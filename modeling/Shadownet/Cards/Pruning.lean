import Shadownet.Cards.Verifier
import Shadownet.Foundation.Canonical
import Shadownet.Go.AgentCard

/-!
# Pruning in both languages

A card is signed without its empty values. Go builds the pruned arrays and maps in loops, Python
in a comprehension and a loop; both give the value without its empty parts.

* `stripEmpty_agree`: both give the same, and what that is.
-/

namespace Shadownet.Cards

open Foundation Python
open Go (JsonDoc)

/-! ## The loops of Go -/

mutual

/-- `stripEmpty` of `agentcard.go`, with its loops. -/
def goStripEmpty : JsonDoc → Option JsonDoc
  | .null => none
  | .str x => if x = [] then none else some (.str x)
  | .arr x =>
    let out := goStripItems [] x
    if out.length = 0 then none else some (.arr out)
  | .obj x =>
    let out := goStripMembers [] x
    if out.length = 0 then none else some (.obj out)
  | .bool b => some (.bool b)
  | .num n => some (.num n)

def goStripItems (out : List JsonDoc) : List JsonDoc → List JsonDoc
  | [] => out
  | item :: x =>
    match goStripEmpty item with
    | none => goStripItems out x
    | some cleaned => goStripItems (out ++ [cleaned]) x

/-- The loop over a map, whose names are distinct. -/
def goStripMembers (out : List (Bytes × JsonDoc)) : List (Bytes × JsonDoc) → List (Bytes × JsonDoc)
  | [] => out
  | (k, vv) :: x =>
    match goStripEmpty vv with
    | none => goStripMembers out x
    | some cleaned => goStripMembers (out ++ [(k, cleaned)]) x

end

/-! ## The loops of Python -/

mutual

/-- `_strip_empty` of `agentcard.py`, with its loops; `None` is `none`. -/
def pythonStripEmpty : Value → Option Value
  | .obj value =>
    match pythonStripMembers [] value with
    | [] => none
    | out => some (.obj out)
  | .arr value =>
    match pythonStripItems value with
    | [] => none
    | cleanedList => some (.arr cleanedList)
  | .str value => if value = [] then none else some (.str value)
  | .null => none
  | .bool b => some (.bool b)
  | .num n => some (.num n)

def pythonStripItems : List Value → List Value
  | [] => []
  | v :: value =>
    match pythonStripEmpty v with
    | none => pythonStripItems value
    | some c => c :: pythonStripItems value

/-- The loop over a `dict`, whose keys are distinct. -/
def pythonStripMembers (out : List (Text × Value)) : List (Text × Value) → List (Text × Value)
  | [] => out
  | (k, v) :: value =>
    match pythonStripEmpty v with
    | none => pythonStripMembers out value
    | some cleaned => pythonStripMembers (out ++ [(k, cleaned)]) value

end

/-! ## What the loops compute -/

theorem goStripEmpty_eq (v : JsonDoc) : goStripEmpty v = Go.stripEmpty v := by
  rw [Go.stripEmpty]
  induction v using Json.ind with
  | null => rfl
  | bool b => rfl
  | num n => rfl
  | str s =>
    rw [goStripEmpty, Json.pruned]
    cases s <;> rfl
  | arr items ih =>
    have hloop : ∀ (out xs : List JsonDoc), (∀ v ∈ xs, goStripEmpty v = v.pruned List.isEmpty) →
        goStripItems out xs = out ++ Json.prunedItems List.isEmpty xs := by
      intro out xs hxs
      induction xs generalizing out with
      | nil => rw [goStripItems, Json.prunedItems, List.append_nil]
      | cons v vs ihvs =>
        rw [List.forall_mem_cons] at hxs
        rw [goStripItems, Json.prunedItems, hxs.1]
        cases v.pruned List.isEmpty with
        | none => exact ihvs out hxs.2
        | some w =>
          dsimp only
          rw [ihvs _ hxs.2, List.append_assoc, List.singleton_append]
    rw [goStripEmpty, hloop [] items ih, List.nil_append, Json.pruned]
    cases Json.prunedItems List.isEmpty items <;> rfl
  | obj members ih =>
    have hloop : ∀ out xs : List (Bytes × JsonDoc),
        (∀ m ∈ xs, goStripEmpty m.2 = m.2.pruned List.isEmpty) →
        goStripMembers out xs = out ++ Json.prunedMembers List.isEmpty xs := by
      intro out xs hxs
      induction xs generalizing out with
      | nil => rw [goStripMembers, Json.prunedMembers, List.append_nil]
      | cons m ms ihms =>
        obtain ⟨k, v⟩ := m
        rw [List.forall_mem_cons] at hxs
        rw [goStripMembers, Json.prunedMembers, hxs.1]
        cases v.pruned List.isEmpty with
        | none => exact ihms out hxs.2
        | some w =>
          dsimp only
          rw [ihms _ hxs.2, List.append_assoc, List.singleton_append]
    rw [goStripEmpty, hloop [] members ih, List.nil_append, Json.pruned]
    cases Json.prunedMembers List.isEmpty members <;> rfl

theorem pythonStripEmpty_eq (v : Value) : pythonStripEmpty v = stripEmpty v := by
  rw [stripEmpty]
  induction v using Json.ind with
  | null => rfl
  | bool b => rfl
  | num n => rfl
  | str s =>
    rw [pythonStripEmpty, Json.pruned]
    cases s <;> rfl
  | arr items ih =>
    have hitems : pythonStripItems items = Json.prunedItems List.isEmpty items := by
      induction items with
      | nil => rfl
      | cons v vs ihvs =>
        rw [pythonStripItems, Json.prunedItems, ih v List.mem_cons_self,
          ihvs fun w hw => ih w (List.mem_cons_of_mem _ hw)]
        cases v.pruned List.isEmpty <;> rfl
    rw [pythonStripEmpty, hitems, Json.pruned]
    cases Json.prunedItems List.isEmpty items <;> rfl
  | obj members ih =>
    have hloop : ∀ out xs : List (Text × Value),
        (∀ m ∈ xs, pythonStripEmpty m.2 = m.2.pruned List.isEmpty) →
        pythonStripMembers out xs = out ++ Json.prunedMembers List.isEmpty xs := by
      intro out xs hxs
      induction xs generalizing out with
      | nil => rw [pythonStripMembers, Json.prunedMembers, List.append_nil]
      | cons m ms ihms =>
        obtain ⟨k, v⟩ := m
        rw [List.forall_mem_cons] at hxs
        rw [pythonStripMembers, Json.prunedMembers, hxs.1]
        cases v.pruned List.isEmpty with
        | none => exact ihms out hxs.2
        | some w =>
          dsimp only
          rw [ihms _ hxs.2, List.append_assoc, List.singleton_append]
    rw [pythonStripEmpty, hloop [] members ih, List.nil_append, Json.pruned]
    cases Json.prunedMembers List.isEmpty members <;> rfl

/-! ## Agreement -/

/-- A value without floats, as Go holds it and as Python does. -/
def goForm (v : Json Text Int) : JsonDoc := v.map utf8 fun n => utf8 (intText n)

def pythonForm (v : Json Text Int) : Value := v.map id Number.int

theorem isEmpty_utf8 (s : Text) : (utf8 s).isEmpty = s.isEmpty := by
  cases s with
  | nil => rfl
  | cons c s =>
    rw [utf8_cons]
    obtain ⟨b, bs, hb⟩ := List.exists_cons_of_ne_nil (utf8Char_ne_nil c)
    rw [hb]
    rfl

theorem goStripEmpty_form (v : Json Text Int) :
    goStripEmpty (goForm v) = (v.pruned List.isEmpty).map goForm := by
  rw [goStripEmpty_eq, Go.stripEmpty, goForm, Json.pruned_map isEmpty_utf8]
  rfl

theorem pythonStripEmpty_form (v : Json Text Int) :
    pythonStripEmpty (pythonForm v) = (v.pruned List.isEmpty).map pythonForm := by
  rw [pythonStripEmpty_eq, stripEmpty, pythonForm, Json.pruned_map fun _ => rfl]
  rfl

/-- **Both languages prune a value to the same one**: nothing empty is left at any depth, pruning
again changes nothing, a value without empty parts stays, and the leaves stay in order and under
their names. -/
theorem stripEmpty_agree (v : Json Text Int) :
    ∃ r : Option (Json Text Int),
      goStripEmpty (goForm v) = r.map goForm ∧ pythonStripEmpty (pythonForm v) = r.map pythonForm ∧
      (∀ w, r = some w → w.Full List.isEmpty ∧ goStripEmpty (goForm w) = some (goForm w) ∧
        pythonStripEmpty (pythonForm w) = some (pythonForm w)) ∧
      (v.Full List.isEmpty → r = some v) ∧
      v.leaves List.isEmpty = (r.map (Json.leaves List.isEmpty)).getD [] := by
  refine ⟨v.pruned List.isEmpty, goStripEmpty_form v, pythonStripEmpty_form v, fun w hw => ?_,
    Json.pruned_of_full, Json.leaves_pruned v⟩
  have hfull := Json.full_pruned hw
  refine ⟨hfull, ?_, ?_⟩
  · rw [goStripEmpty_form, Json.pruned_of_full hfull]
    rfl
  · rw [pythonStripEmpty_form, Json.pruned_of_full hfull]
    rfl

end Shadownet.Cards
