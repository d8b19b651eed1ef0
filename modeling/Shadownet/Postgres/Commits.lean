import Shadownet.Postgres.Locks

/-!
# What a transaction of the epoch table commits

`Table` is the shape of the committed rows: the last one is the open epoch, and the only one.
`Commits.effect` says what each plan of writes makes of them (`Effect`): the shape stays, the rows
live on, no index is taken back, and the pair that is returned was not given out before.
-/

namespace Shadownet.Postgres

open Foundation Go

/-! ## The committed rows -/

/-- The last row is the only open one. -/
structure Table (init : List EpochRow) (last : EpochRow) : Prop where
  topped : Topped init last
  closed : ∀ r ∈ init, r.closedAt ≠ none
  sane : ∀ r ∈ init ++ [last], Sane r
  first : ∃ r ∈ init ++ [last], r.number = 1

/-- The rows live on, and no index is taken back. -/
def Grows (rows rows' : List EpochRow) : Prop :=
  ∀ r ∈ rows, ∃ r' ∈ rows', r'.number = r.number ∧ r.nextIdx ≤ r'.nextIdx

theorem int64_eq {x : Int} (h0 : 0 ≤ x) (h : x < 9223372036854775808) : int64 x = x := by
  unfold int64
  omega

theorem uint64_eq {x : Int} (h0 : 0 ≤ x) (h : x < 9223372036854775808) : (uint64 x : Int) = x := by
  unfold uint64
  omega

theorem uint64_int64 {m : Nat} (h : m < 18446744073709551616) : uint64 (int64 m) = m := by
  unfold uint64 int64
  omega

theorem uint64_inj {x y : Int} (hx : 0 ≤ x) (hx' : x < 9223372036854775808) (hy : 0 ≤ y)
    (hy' : y < 9223372036854775808) (h : uint64 x = uint64 y) : x = y := by
  rw [← uint64_eq hx hx', ← uint64_eq hy hy', h]

namespace Sane

variable {r : EpochRow}

theorem next_lt (h : Sane r) (hroom : r.nextIdx < r.maxIndices) :
    int64 (r.nextIdx + 1) = r.nextIdx + 1 := by
  have := h.max_lt
  have := h.next_nonneg
  exact int64_eq (by omega) (by omega)

theorem take (h : Sane r) (hroom : r.nextIdx < r.maxIndices) (lastIssued : Option Time) :
    Sane { r with nextIdx := r.nextIdx + 1, lastIssued } := by
  have h0 := h.next_nonneg
  have hmax : (uint64 r.maxIndices : Int) = r.maxIndices := uint64_eq (by omega) h.max_lt
  refine ⟨h.number_pos, h.number_lt, by dsimp only; omega, ?_, h.max_lt⟩
  dsimp only
  omega

theorem close (h : Sane r) (closedAt : Option Time) : Sane { r with closedAt } :=
  ⟨h.number_pos, h.number_lt, h.next_nonneg, h.next_le, h.max_lt⟩

theorem new {number : Int} (hpos : 0 < number) (hlt : number < 9223372036854775808) {m : Nat}
    (hm : Ceiling m) (t : Time) {nextIdx : Int} (h0 : 0 ≤ nextIdx) (h1 : nextIdx ≤ 1)
    (lastIssued : Option Time) :
    Sane { newEpochRow number m t with nextIdx, lastIssued } := by
  obtain ⟨hm0, hm1⟩ := hm
  refine ⟨hpos, hlt, h0, ?_, ?_⟩
  · change nextIdx ≤ (uint64 (int64 m) : Nat)
    rw [uint64_int64 hm1]
    omega
  · change int64 m < 9223372036854775808
    unfold int64
    omega

end Sane

namespace Table

variable {init : List EpochRow} {last : EpochRow}

theorem sane_last (h : Table init last) : Sane last := h.sane last (by simp)

theorem number_le (h : Table init last) {r : EpochRow} (hr : r ∈ init ++ [last]) :
    r.number ≤ last.number := by
  rcases List.mem_append.mp hr with hr | hr
  · exact (h.topped.lt r hr).le
  · rw [List.mem_singleton.mp hr]

/-- The number of the open row is its own. -/
theorem eq_last (h : Table init last) {r : EpochRow} (hr : r ∈ init ++ [last])
    (hn : r.number = last.number) : r = last := by
  rcases List.mem_append.mp hr with hr | hr
  · exact absurd hn (h.topped.lt r hr).ne
  · exact List.mem_singleton.mp hr

/-- The open row is the last one. -/
theorem filter_open (h : Table init last) :
    (init ++ [last]).filter (·.closedAt.isNone) = [last] := by
  have hinit : init.filter (·.closedAt.isNone) = [] :=
    List.filter_eq_nil_iff.mpr fun r hr hnone => h.closed r hr (Option.isNone_iff_eq_none.mp hnone)
  rw [List.filter_append, hinit]
  simp [h.topped.isOpen]

theorem find_open (h : Table init last) (number : Int) :
    (init ++ [last]).find? (fun r => r.number = number ∧ r.closedAt = none) =
      if number = last.number then some last else none := by
  by_cases hn : number = last.number
  · rw [if_pos hn, hn]
    exact h.topped.find?_eq
  · rw [if_neg hn, List.find?_eq_none]
    intro r hr hboth
    simp only [decide_eq_true_eq] at hboth
    rcases List.mem_append.mp hr with hr | hr
    · exact h.closed r hr hboth.2
    · rw [List.mem_singleton.mp hr] at hboth
      exact hn hboth.1.symm

theorem take (h : Table init last) (hroom : last.nextIdx < last.maxIndices)
    (lastIssued : Option Time) :
    Table init { last with nextIdx := last.nextIdx + 1, lastIssued } := by
  refine ⟨⟨h.topped.isOpen, h.topped.lt⟩, h.closed, fun r hr => ?_, ?_⟩
  · rcases List.mem_append.mp hr with hr | hr
    · exact h.sane r (List.mem_append_left _ hr)
    · rw [List.mem_singleton.mp hr]
      exact h.sane_last.take hroom lastIssued
  · obtain ⟨r, hr, hone⟩ := h.first
    rcases List.mem_append.mp hr with hr | hr
    · exact ⟨r, List.mem_append_left _ hr, hone⟩
    · refine ⟨_, List.mem_append_right _ (List.mem_singleton_self _), ?_⟩
      rw [← hone, List.mem_singleton.mp hr]

/-- Closing the open epoch and opening the next one, with or without taking its first index. -/
theorem rotate (h : Table init last) (hnum : last.number + 1 < 9223372036854775808)
    (closedAt : Time) {m : Nat} (hm : Ceiling m) (t : Time) {nextIdx : Int} (h0 : 0 ≤ nextIdx)
    (h1 : nextIdx ≤ 1) (lastIssued : Option Time) :
    Table (init ++ [{ last with closedAt := some closedAt }])
      { newEpochRow (last.number + 1) m t with nextIdx, lastIssued } := by
  have hpos := h.sane_last.number_pos
  refine ⟨h.topped.rotate rfl rfl (Int.lt_succ _), fun r hr => ?_, fun r hr => ?_, ?_⟩
  · rcases List.mem_append.mp hr with hr | hr
    · exact h.closed r hr
    · rw [List.mem_singleton.mp hr]
      exact Option.some_ne_none _
  · rcases List.mem_append.mp hr with hr | hr
    · rcases List.mem_append.mp hr with hr | hr
      · exact h.sane r (List.mem_append_left _ hr)
      · rw [List.mem_singleton.mp hr]
        exact h.sane_last.close _
    · rw [List.mem_singleton.mp hr]
      exact Sane.new (by omega) hnum hm t h0 h1 lastIssued
  · obtain ⟨r, hr, hone⟩ := h.first
    rcases List.mem_append.mp hr with hr | hr
    · exact ⟨r, by simp [hr], hone⟩
    · refine ⟨{ last with closedAt := some closedAt }, by simp, ?_⟩
      rw [← hone, List.mem_singleton.mp hr]

end Table

/-! ## What a commit does -/

/-- The writes close the epoch. -/
def Closes (writes : List Write) (number : Int) : Prop := ∃ t, .close number t ∈ writes

/-- The next number fits a `BIGINT` in every epoch the writes close. -/
def FitsAll (writes : List Write) : Prop :=
  ∀ n, Closes writes n → n + 1 < 9223372036854775808

/-- Committing `writes` on the rows `init ++ [row]`, for the pair that is then returned. -/
structure Effect (init : List EpochRow) (row : EpochRow) (writes : List Write)
    (pair : Option (Nat × Nat)) (init' : List EpochRow) (last' : EpochRow) : Prop where
  rows : writes.foldl Write.apply (init ++ [row]) = init' ++ [last']
  table : Table init' last'
  grows : Grows (init ++ [row]) (init' ++ [last'])
  given : ∀ p, pair = some p →
    (∃ r ∈ init' ++ [last'], uint64 r.number = p.1 ∧ (p.2 : Int) < r.nextIdx) ∧
      ∀ r ∈ init ++ [row], uint64 r.number = p.1 → r.nextIdx ≤ p.2
  opened : (Closes writes row.number ∧ last'.number = row.number + 1) ∨
    ((∀ n, ¬ Closes writes n) ∧ last'.number = row.number)

section
variable {init : List EpochRow} {row : EpochRow}

theorem grows_concat (init : List EpochRow) {row row' : EpochRow} (rest : List EpochRow)
    (hnum : row'.number = row.number) (hnext : row.nextIdx ≤ row'.nextIdx) :
    Grows (init ++ [row]) (init ++ row' :: rest) := by
  intro r hr
  rcases List.mem_append.mp hr with hr | hr
  · exact ⟨r, List.mem_append_left _ hr, rfl, le_rfl⟩
  · rw [List.mem_singleton.mp hr]
    exact ⟨row', by simp, hnum, hnext⟩

/-- The next number as the code computes it. -/
theorem Table.next_eq (h : Table init row) (hnum : row.number + 1 < 9223372036854775808) :
    int64 (row.number + 1) = row.number + 1 := by
  have := h.sane_last.number_pos
  exact int64_eq (by omega) hnum

theorem apply_close (h : Table init row) (t : Time) :
    (Write.close row.number t).apply (init ++ [row]) =
      init ++ [{ row with closedAt := some (timestamptz t) }] := h.topped.updateRows_eq _

theorem apply_bump (h : Table init row) (nextIdx : Int) (t : Time) :
    (Write.bump row.number nextIdx t).apply (init ++ [row]) =
      init ++ [{ row with nextIdx, lastIssued := some (timestamptz t) }] :=
  h.topped.updateRows_eq _

theorem effect_take (h : Table init row) (hroom : row.nextIdx < row.maxIndices) (exp : Time) :
    Effect init row [.bump row.number (int64 (row.nextIdx + 1)) exp]
      (some (uint64 row.number, uint64 row.nextIdx)) init
      { row with nextIdx := row.nextIdx + 1, lastIssued := some (timestamptz exp) } := by
  have hs := h.sane_last
  have hidx : (uint64 row.nextIdx : Int) = row.nextIdx :=
    uint64_eq hs.next_nonneg (hroom.trans hs.max_lt)
  refine ⟨?_, h.take hroom _, grows_concat init [] rfl (Int.le_add_one le_rfl), ?_, .inr ?_⟩
  · rw [List.foldl_cons, List.foldl_nil, apply_bump h, hs.next_lt hroom]
  · rintro _ ⟨⟩
    refine ⟨⟨_, List.mem_append_right _ (List.mem_singleton_self _), rfl, ?_⟩, fun r hr he => ?_⟩
    · dsimp only
      omega
    · have hr' := h.sane r hr
      have hnum := uint64_inj hr'.number_pos.le hr'.number_lt hs.number_pos.le hs.number_lt he
      rw [h.eq_last hr hnum]
      exact hidx.ge
  · refine ⟨?_, rfl⟩
    rintro n ⟨t, ht⟩
    cases List.mem_singleton.mp ht

/-- Closing the open epoch and inserting the next one. -/
theorem apply_rotate (h : Table init row) (t t' : Time) (m : Nat) :
    [Write.close row.number t, .insert (newEpochRow (row.number + 1) m t')].foldl Write.apply
        (init ++ [row]) =
      init ++ [{ row with closedAt := some (timestamptz t) }] ++
        [newEpochRow (row.number + 1) m t'] := by
  rw [List.foldl_cons, apply_close h]
  rfl

theorem effect_rotate (h : Table init row) (hnum : row.number + 1 < 9223372036854775808)
    (t t' : Time) {m : Nat} (hm : Ceiling m) :
    Effect init row [.close row.number t, .insert (newEpochRow (int64 (row.number + 1)) m t')]
      none (init ++ [{ row with closedAt := some (timestamptz t) }])
      (newEpochRow (row.number + 1) m t') := by
  refine ⟨?_, h.rotate hnum _ hm t' le_rfl Int.one_nonneg none, ?_, ?_, .inl ⟨⟨t, by simp⟩, rfl⟩⟩
  · rw [h.next_eq hnum, apply_rotate h]
  · rw [List.append_assoc]
    exact grows_concat init _ rfl le_rfl
  · rintro p hp
    cases hp

theorem effect_roll (h : Table init row) (hnum : row.number + 1 < 9223372036854775808)
    (t t' : Time) {m : Nat} (hm : Ceiling m) (exp : Time) :
    Effect init row [.close row.number t, .insert (newEpochRow (int64 (row.number + 1)) m t'),
        .bump (int64 (row.number + 1)) 1 exp] (some (uint64 (int64 (row.number + 1)), 0))
      (init ++ [{ row with closedAt := some (timestamptz t) }])
      { newEpochRow (row.number + 1) m t' with
        nextIdx := 1, lastIssued := some (timestamptz exp) } := by
  have hnew : Table (init ++ [{ row with closedAt := some (timestamptz t) }])
      (newEpochRow (row.number + 1) m t') :=
    h.rotate hnum _ hm t' le_rfl Int.one_nonneg none
  refine ⟨?_, h.rotate hnum _ hm t' Int.one_nonneg le_rfl _, ?_, ?_, .inl ⟨⟨t, by simp⟩, rfl⟩⟩
  · rw [h.next_eq hnum]
    have hrotate := congrArg (Write.apply · (.bump (row.number + 1) 1 exp))
      (apply_rotate h t t' m)
    exact hrotate.trans (apply_bump hnew 1 exp)
  · rw [List.append_assoc]
    exact grows_concat init _ rfl le_rfl
  · rintro _ ⟨⟩
    refine ⟨⟨_, List.mem_append_right _ (List.mem_singleton_self _), ?_, Int.one_pos⟩,
      fun r hr he => ?_⟩
    · rw [h.next_eq hnum]
      rfl
    · have hr' := h.sane r hr
      have hle := h.number_le hr
      have hpos := h.sane_last.number_pos
      rw [h.next_eq hnum] at he
      have := uint64_inj hr'.number_pos.le hr'.number_lt (by omega) hnum he
      omega

theorem Commits.effect {writes : List Write} {pair : Option (Nat × Nat)}
    (hc : Commits row writes pair) (h : Table init row) (hfits : FitsAll writes) :
    ∃ init' last', Effect init row writes pair init' last' := by
  cases hc with
  | take hroom exp => exact ⟨_, _, effect_take h hroom exp⟩
  | rotate t t' hm => exact ⟨_, _, effect_rotate h (hfits _ ⟨t, by simp⟩) t t' hm⟩
  | roll t t' hm exp => exact ⟨_, _, effect_roll h (hfits _ ⟨t, by simp⟩) t t' hm exp⟩

end

end Shadownet.Postgres
