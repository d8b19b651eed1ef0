import Shadownet.Postgres.Commits

/-!
# The statements of concurrent transactions

`Invariant` relates the server to how far each transaction is (`Local`): locks are exclusive, the
uncommitted writes are those of the transactions' plans, and the transaction that has locked the
open row has the last of the committed rows. `step_progress`: every statement of a disciplined
transaction keeps it.

A call is `Doomed` when it waits for a row that is no longer open. Only a commit dooms a call, by
closing the row that the call is waiting for (`Raced`).
-/

namespace Shadownet.Postgres

open Foundation Go

/-! ## The invariant -/

/-- The writes a transaction has done, and the row it waits for. -/
def Local.writes : Local → List Write
  | .locked _ writes => writes
  | _ => []

def Local.waits : Local → Option Int
  | .waiting number => some number
  | _ => none

/-- What a transaction may rely on, given its locks and the committed rows. -/
def Local.Fact (locks : List Int) (rows : List EpochRow) : Local → Prop
  | .waiting number => ∃ r ∈ rows, r.number = number
  | .locked row writes => row.number ∈ locks ∧ (∃ init, rows = init ++ [row]) ∧ FitsAll writes
  | .done (some p) => ∃ r ∈ rows, uint64 r.number = p.1 ∧ (p.2 : Int) < r.nextIdx
  | _ => True

section
variable {ι : Type} {s : Server ι} {i : ι} {l : Local}

/-- The server's record of a transaction is what the transaction did. -/
structure Synced (s : Server ι) (i : ι) (l : Local) : Prop where
  pending : s.pending i = l.writes
  waiting : s.waiting i = l.waits
  fact : l.Fact (s.locks i) s.committed

theorem Synced.view_eq (h : Synced s i l) :
    s.view i = l.writes.foldl Write.apply s.committed := by
  rw [Server.view, h.pending]

structure Invariant (s : Server ι) (L : ι → Local) : Prop where
  table : ∃ init last, s.committed = init ++ [last] ∧ Table init last
  exclusive : ∀ i j n, n ∈ s.locks i → n ∈ s.locks j → i = j
  synced : ∀ i, Synced s i (L i)
  distinct : ∀ i j p, L i = .done (some p) → L j = .done (some p) → i = j

end

section
variable {ι : Type} {s : Server ι} {L : ι → Local} {i : ι}

/-! ## Calls that will fail -/

/-- The call will fail: it waits for a row that is no longer open, or has found it so. -/
def Doomed (rows : List EpochRow) : Local → Prop
  | .waiting number => ∀ r ∈ rows, r.closedAt = none → r.number ≠ number
  | .lost => True
  | .failed => True
  | _ => False

theorem Table.doomed_waiting {init : List EpochRow} {last : EpochRow} (h : Table init last)
    {n : Int} : Doomed (init ++ [last]) (.waiting n) ↔ n ≠ last.number := by
  constructor
  · rintro hd rfl
    exact hd last (by simp) h.topped.isOpen rfl
  · rintro hne r hr hopen rfl
    rcases List.mem_append.mp hr with hr | hr
    · exact h.closed r hr hopen
    · exact hne (by rw [List.mem_singleton.mp hr])

/-- The statement commits the closing of a row that the call `j` is waiting for. -/
def Raced (s : Server ι) : Stmt ι → ι → Prop
  | .commit i, j => ∃ number, s.waiting j = some number ∧ Closes (s.pending i) number
  | _, _ => False

/-- The number after that of an epoch which is closed fits a `BIGINT`. -/
def Stmt.Fits : Stmt ι → Prop
  | .write _ (.close number _) => number + 1 < 9223372036854775808
  | _ => True

/-- A commit does not wait for a row itself. -/
theorem Invariant.not_raced_self (h : Invariant s L) {o : Stmt ι}
    {k : Ans o → Prog (Stmt ι) Ans (Except StoreError Outcome)}
    (hd : Disciplined i (L i) (.call o k)) : ¬ Raced s o i := by
  generalize hL : L i = l at hd
  cases hd with
  | commit out hc hnext =>
    rintro ⟨n, hn, -⟩
    have hw := (h.synced i).waiting
    rw [hL, hn] at hw
    cases hw
  | now | candidate | lockRow | write | insertFirst | rollback => exact id

end

/-! ## One statement -/

section
variable {ι : Type} [DecidableEq ι] {s s' : Server ι} {L : ι → Local} {i : ι} {l : Local}

/-- A statement that leaves the committed rows and the other transactions alone. -/
theorem Invariant.move (h : Invariant s L) (hrows : s'.committed = s.committed)
    (hothers : ∀ j, j ≠ i → s'.pending j = s.pending j ∧ s'.locks j = s.locks j ∧
      s'.waiting j = s.waiting j)
    (hexcl : ∀ j n, j ≠ i → n ∈ s'.locks i → n ∉ s.locks j) (hi : Synced s' i l)
    (hl : ∀ p, l ≠ .done p) : Invariant s' (Function.update L i l) := by
  refine ⟨hrows ▸ h.table, fun j k n hj hk => ?_, fun j => ?_, fun j k p hj hk => ?_⟩
  · by_cases hji : j = i
    · subst hji
      by_contra hne
      have hkj : k ≠ j := fun he => hne he.symm
      exact hexcl k n hkj hj ((hothers k hkj).2.1 ▸ hk)
    · by_cases hki : k = i
      · subst hki
        exact absurd ((hothers j hji).2.1 ▸ hj) (hexcl j n hji hk)
      · exact h.exclusive j k n ((hothers j hji).2.1 ▸ hj) ((hothers k hki).2.1 ▸ hk)
  · by_cases hji : j = i
    · subst hji
      rw [Function.update_self]
      exact hi
    · obtain ⟨hp, hlk, hw⟩ := hothers j hji
      obtain ⟨h1, h2, h3⟩ := h.synced j
      rw [Function.update_of_ne hji]
      exact ⟨hp.trans h1, hw.trans h2, by rw [hlk, hrows]; exact h3⟩
  · by_cases hji : j = i
    · subst hji
      rw [Function.update_self] at hj
      exact absurd hj (hl _)
    · by_cases hki : k = i
      · subst hki
        rw [Function.update_self] at hk
        exact absurd hk (hl _)
      · rw [Function.update_of_ne hji] at hj
        rw [Function.update_of_ne hki] at hk
        exact h.distinct j k p hj hk

/-- What a statement of `i` does, which is at `l` afterwards. -/
structure Progress (s : Server ι) (L : ι → Local) (i : ι) (o : Stmt ι) (s' : Server ι)
    (l : Local) : Prop where
  invariant : Invariant s' (Function.update L i l)
  mine : Doomed s'.committed l ↔ Doomed s.committed (L i)
  others : ∀ j, j ≠ i →
    (Doomed s'.committed (L j) ↔ Doomed s.committed (L j) ∨ Raced s o j)

/-- A statement that is no commit. -/
theorem Progress.of_move {o : Stmt ι} (h : Invariant s' (Function.update L i l))
    (hrows : s'.committed = s.committed) (ho : ∀ j, ¬ Raced s o j)
    (hmine : Doomed s.committed l ↔ Doomed s.committed (L i)) : Progress s L i o s' l := by
  refine ⟨h, by rw [hrows]; exact hmine, fun j hj => ?_⟩
  rw [hrows]
  simp [ho j]

theorem candidate_progress (h : Invariant s L) (hL : L i = .idle) {a : Option Int}
    (hs : s.Handle (.candidate i) a s') :
    ∃ n, a = some n ∧ Progress s L i (.candidate i) s' (.waiting n) := by
  obtain ⟨init, last, hrows, ht⟩ := h.table
  have hsync := h.synced i
  rw [hL] at hsync
  obtain ⟨ha, rfl⟩ := hs
  have hview : s.view i = init ++ [last] := hsync.view_eq.trans hrows
  rw [hview, ht.topped.openRow_eq, Option.map_some] at ha
  subst ha
  refine ⟨last.number, rfl, .of_move (h.move rfl (fun j hj => ⟨rfl, rfl, ?_⟩) ?_ ⟨?_, ?_, ?_⟩ ?_)
    rfl (fun j => id) ?_⟩
  · exact Function.update_of_ne hj _ _
  · intro j n hj hn hn'
    exact hj (h.exclusive j i n hn' hn)
  · exact hsync.pending
  · exact Function.update_self ..
  · exact ⟨last, by simp [hrows], rfl⟩
  · exact fun p => Local.noConfusion
  · rw [hL]
    refine ⟨fun hd => hd last (by simp [hrows]) ht.topped.isOpen rfl, False.elim⟩

theorem lockRow_progress (h : Invariant s L) {n : Int} (hL : L i = .waiting n)
    {a : Option EpochRow} (hs : s.Handle (.lockRow i n) a s') :
    (∃ row, a = some row ∧ Sane row ∧ Progress s L i (.lockRow i n) s' (.locked row [])) ∨
      (a = none ∧ Progress s L i (.lockRow i n) s' .lost) := by
  obtain ⟨init, last, hrows, ht⟩ := h.table
  have hsync := h.synced i
  rw [hL] at hsync
  obtain ⟨hfree, ha, rfl⟩ := hs
  have hview : s.view i = init ++ [last] := hsync.view_eq.trans hrows
  rw [hview, ht.find_open] at ha
  -- the others keep what they have, and nobody else has the row
  have hothers : ∀ j, j ≠ i → s.pending j = s.pending j ∧
      Function.update s.locks i (n :: s.locks i) j = s.locks j ∧
      Function.update s.waiting i none j = s.waiting j := fun j hj =>
    ⟨rfl, Function.update_of_ne hj _ _, Function.update_of_ne hj _ _⟩
  have hexcl : ∀ j k, j ≠ i → k ∈ Function.update s.locks i (n :: s.locks i) i →
      k ∉ s.locks j := by
    intro j k hj hk hk'
    rw [Function.update_self] at hk
    rcases List.mem_cons.mp hk with rfl | hk
    · exact hfree j hj hk'
    · exact hj (h.exclusive j i k hk' hk)
  by_cases hn : n = last.number
  · rw [if_pos hn] at ha
    refine .inl ⟨last, ha, ht.sane_last, .of_move (h.move rfl hothers hexcl ⟨?_, ?_, ?_⟩
      fun p => Local.noConfusion) rfl (fun j => id) ?_⟩
    · exact hsync.pending
    · exact Function.update_self ..
    · refine ⟨?_, ⟨init, hrows⟩, ?_⟩
      · change last.number ∈ Function.update s.locks i (n :: s.locks i) i
        rw [Function.update_self, hn]
        exact List.mem_cons_self
      · rintro k ⟨t, ht⟩
        cases ht
    · rw [hL]
      refine ⟨False.elim, fun hd => hd last (by simp [hrows]) ht.topped.isOpen hn.symm⟩
  · rw [if_neg hn] at ha
    refine .inr ⟨ha, .of_move (h.move rfl hothers hexcl ⟨hsync.pending, ?_, trivial⟩
      fun p => Local.noConfusion) rfl (fun j => id) ?_⟩
    · exact Function.update_self ..
    · rw [hL]
      refine ⟨fun _ r hr hopen he => hn ?_, fun _ => trivial⟩
      have hfound := ht.find_open n
      rw [if_neg hn, List.find?_eq_none, ← hrows] at hfound
      have hclosed : r.number = n → ¬ r.closedAt = none := by simpa using hfound r hr
      exact absurd hopen (hclosed he)

/-- The write of a transaction that has the open row, once the statement got through. -/
theorem Invariant.wrote (h : Invariant s L) {row : EpochRow} {writes : List Write}
    (hL : L i = .locked row writes) (w : Write) (hfits : ∀ n, Closes [w] n →
      n + 1 < 9223372036854775808) {locks : List Int}
    (hlocks : ∀ n ∈ s.locks i, n ∈ locks) (hexcl : ∀ j n, j ≠ i → n ∈ locks → n ∉ s.locks j) :
    Invariant { s.write i w with locks := Function.update s.locks i locks }
      (Function.update L i (.locked row (writes ++ [w]))) := by
  have hsync := h.synced i
  rw [hL] at hsync
  obtain ⟨hheld, hlast, hall⟩ := hsync.fact
  refine h.move rfl (fun j hj => ⟨Function.update_of_ne hj _ _, Function.update_of_ne hj _ _, rfl⟩)
    (fun j n hj hn => hexcl j n hj ?_) ⟨?_, hsync.waiting, ?_, hlast, ?_⟩
    (fun p => Local.noConfusion)
  · rw [← @Function.update_self ι (fun _ => List Int) _ i locks s.locks]
    exact hn
  · change Function.update s.pending i (s.pending i ++ [w]) i = writes ++ [w]
    rw [Function.update_self, hsync.pending]
    rfl
  · change row.number ∈ Function.update s.locks i locks i
    rw [Function.update_self]
    exact hlocks _ hheld
  · rintro n ⟨t, ht⟩
    rcases List.mem_append.mp ht with ht | ht
    · exact hall n ⟨t, ht⟩
    · exact hfits n ⟨t, ht⟩

/-- An `UPDATE` of a row that is there. -/
theorem Invariant.updated (h : Invariant s L) {row : EpochRow} {writes : List Write}
    (hL : L i = .locked row writes) {w : Write} {n : Int} {a : Except StoreError Unit}
    (hs : s.Update i w n a s') (hthere : (s.view i).any (·.number == n) = true)
    (hfits : ∀ n, Closes [w] n → n + 1 < 9223372036854775808) :
    a = .ok () ∧ s'.committed = s.committed ∧
      Invariant s' (Function.update L i (.locked row (writes ++ [w]))) := by
  obtain ⟨hfree, rfl, rfl⟩ := hs
  rw [if_pos hthere]
  refine ⟨rfl, rfl, h.wrote hL w hfits (fun k hk => List.mem_cons_of_mem _ hk) ?_⟩
  intro j k hj hk hk'
  rcases List.mem_cons.mp hk with rfl | hk
  · exact hfree j hj hk'
  · exact hj (h.exclusive j i k hk' hk)

/-- An `INSERT` of a row whose number is not there yet. -/
theorem Invariant.inserted (h : Invariant s L) {row new : EpochRow} {writes : List Write}
    (hL : L i = .locked row writes) {a : Except StoreError Unit} (hs : s.Insert i new a s')
    (hnew : (s.view i).any (·.number == new.number) = false) :
    a = .ok () ∧ s'.committed = s.committed ∧
      Invariant s' (Function.update L i (.locked row (writes ++ [.insert new]))) := by
  obtain ⟨-, hs⟩ := hs
  rw [hnew, if_neg Bool.false_ne_true] at hs
  obtain ⟨rfl, rfl⟩ := hs
  refine ⟨rfl, rfl, ?_⟩
  have hsame : { s.write i (.insert new) with
      locks := Function.update s.locks i (s.locks i) } = s.write i (.insert new) := by
    rw [Function.update_eq_self]
    rfl
  rw [← hsame]
  refine h.wrote hL _ ?_ (fun k hk => hk) fun j k hj hk hk' => hj (h.exclusive j i k hk' hk)
  rintro n ⟨t, ht⟩
  cases List.mem_singleton.mp ht

theorem write_progress (h : Invariant s L) {row : EpochRow} {writes : List Write} {w : Write}
    (hL : L i = .locked row writes) (hw : Step row writes w) {a : Except StoreError Unit}
    (hs : s.Handle (.write i w) a s') (hf : (Stmt.write i w).Fits) :
    a = .ok () ∧ Progress s L i (.write i w) s' (.locked row (writes ++ [w])) := by
  obtain ⟨init, last, hrows, ht⟩ := h.table
  have hsync := h.synced i
  rw [hL] at hsync
  obtain ⟨-, ⟨init', hrows'⟩, hall⟩ := hsync.fact
  -- the locked row is the last one
  obtain ⟨rfl, hlast⟩ := List.append_inj' (hrows'.symm.trans hrows) rfl
  obtain rfl := List.singleton_inj.mp hlast
  have hview : s.view i = writes.foldl Write.apply (init' ++ [row]) := by
    rw [hsync.view_eq, hrows']
    rfl
  suffices hsuf : a = .ok () ∧ s'.committed = s.committed ∧
      Invariant s' (Function.update L i (.locked row (writes ++ [w]))) by
    obtain ⟨ha, hsame, hinv⟩ := hsuf
    exact ⟨ha, .of_move hinv hsame (fun j => id) (by rw [hL]; exact Iff.rfl)⟩
  cases hw with
  | close t =>
    refine h.updated hL hs ?_ ?_
    · simp [hview]
    · rintro n ⟨t', ht'⟩
      cases List.mem_singleton.mp ht'
      exact hf
  | take hroom exp =>
    refine h.updated hL hs ?_ ?_
    · simp [hview]
    · rintro n ⟨t', ht'⟩
      cases List.mem_singleton.mp ht'
  | insert t t' hm =>
    have hnum := hall row.number ⟨t, by simp⟩
    refine h.inserted hL hs ?_
    rw [hview, List.foldl_cons, List.foldl_nil, apply_close ht]
    refine @free_concat _ row _ _ (fun r hr he => ?_) rfl
    have hle := ht.number_le hr
    change r.number = int64 (row.number + 1) at he
    rw [ht.next_eq hnum] at he
    omega
  | first t t' hm exp =>
    have hnum := hall row.number ⟨t, by simp⟩
    refine h.updated hL hs ?_ ?_
    · rw [hview, ht.next_eq hnum, apply_rotate ht]
      simp [newEpochRow]
    · rintro n ⟨t'', ht'⟩
      cases List.mem_singleton.mp ht'

theorem insertFirst_progress (h : Invariant s L) (hL : L i = .lost) {row : EpochRow}
    (hrow : row.number = 1) {a : Except StoreError Unit}
    (hs : s.Handle (.write i (.insert row)) a s') :
    a = .error duplicateKey ∧ Progress s L i (.write i (.insert row)) s' .lost := by
  obtain ⟨init, last, hrows, ht⟩ := h.table
  have hsync := h.synced i
  rw [hL] at hsync
  have hview : s.view i = init ++ [last] := hsync.view_eq.trans hrows
  have htaken : (s.view i).any (·.number == row.number) = true := by
    obtain ⟨r, hr, hone⟩ := ht.first
    rw [hview, List.any_eq_true]
    exact ⟨r, hr, by rw [hone, hrow]; rfl⟩
  obtain ⟨-, hs⟩ := hs
  rw [if_pos htaken] at hs
  obtain ⟨ha, rfl⟩ := hs
  have hinv : Invariant s' (Function.update L i .lost) := by
    rw [← hL, Function.update_eq_self]
    exact h
  exact ⟨ha, .of_move hinv rfl (fun j => id) (by rw [hL])⟩

theorem rollback_progress (h : Invariant s L) (hL : L i = .lost) {a : Unit}
    (hs : s.Handle (.rollback i) a s') : Progress s L i (.rollback i) s' .failed := by
  obtain rfl := hs
  refine .of_move (h.move rfl (fun j hj => ?_) (fun j n hj hn => ?_) ⟨?_, ?_, trivial⟩
    fun p => Local.noConfusion) rfl (fun j => id) (by rw [hL]; exact Iff.rfl)
  · exact ⟨Function.update_of_ne hj _ _, Function.update_of_ne hj _ _,
      Function.update_of_ne hj _ _⟩
  · change n ∈ Function.update s.locks i [] i at hn
    rw [Function.update_self] at hn
    cases hn
  · exact Function.update_self ..
  · exact Function.update_self ..

theorem commit_progress (h : Invariant s L) {row : EpochRow} {writes : List Write}
    {pair : Option (Nat × Nat)} (hL : L i = .locked row writes) (hc : Commits row writes pair)
    {a : Unit} (hs : s.Handle (.commit i) a s') :
    Progress s L i (.commit i) s' (.done pair) := by
  obtain ⟨init, last, hrows, ht⟩ := h.table
  have hsync := h.synced i
  rw [hL] at hsync
  obtain ⟨hheld, ⟨init', hrows'⟩, hall⟩ := hsync.fact
  obtain ⟨rfl, hlast⟩ := List.append_inj' (hrows'.symm.trans hrows) rfl
  obtain rfl := List.singleton_inj.mp hlast
  obtain ⟨new, last', he⟩ := hc.effect ht hall
  obtain rfl := hs
  have hview : s.view i = new ++ [last'] := by
    rw [hsync.view_eq, hrows']
    exact he.rows
  have hpending : s.pending i = writes := hsync.pending
  -- a pair that was given out before is not the new one
  have hold : ∀ j p, L j = .done (some p) → pair ≠ some p := by
    intro j p hj hp
    obtain ⟨r, hr, hnum, hlt⟩ : ∃ r ∈ s.committed, uint64 r.number = p.1 ∧
        (p.2 : Int) < r.nextIdx := by
      have := (h.synced j).fact
      rw [hj] at this
      exact this
    have := (he.given p hp).2 r (hrows' ▸ hr) hnum
    omega
  refine ⟨⟨⟨new, last', hview, he.table⟩, fun j k n hj hk => ?_, fun j => ?_,
    fun j k p hj hk => ?_⟩, by rw [hL]; exact Iff.rfl, fun j hji => ?_⟩
  · change n ∈ Function.update s.locks i [] j at hj
    change n ∈ Function.update s.locks i [] k at hk
    by_cases hji : j = i
    · subst hji
      rw [Function.update_self] at hj
      cases hj
    · by_cases hki : k = i
      · subst hki
        rw [Function.update_self] at hk
        cases hk
      · rw [Function.update_of_ne hji] at hj
        rw [Function.update_of_ne hki] at hk
        exact h.exclusive j k n hj hk
  · by_cases hji : j = i
    · subst hji
      rw [Function.update_self]
      refine ⟨Function.update_self .., Function.update_self .., ?_⟩
      cases pair with
      | none => trivial
      | some p =>
        change ∃ r ∈ s.view j, _
        rw [hview]
        exact (he.given p rfl).1
    · rw [Function.update_of_ne hji]
      obtain ⟨h1, h2, h3⟩ := h.synced j
      refine ⟨(Function.update_of_ne hji _ _).trans h1,
        (Function.update_of_ne hji _ _).trans h2, ?_⟩
      change (L j).Fact (Function.update s.locks i [] j) (s.view i)
      rw [Function.update_of_ne hji, hview]
      -- nobody else has the open row
      cases hj : L j with
      | idle => trivial
      | waiting n =>
        rw [hj] at h3
        obtain ⟨r, hr, hn⟩ := h3
        obtain ⟨r', hr', hn', -⟩ := he.grows r (hrows' ▸ hr)
        exact ⟨r', hr', hn'.trans hn⟩
      | locked row' writes' =>
        rw [hj] at h3
        obtain ⟨hheld', ⟨init'', hrows''⟩, -⟩ := h3
        obtain ⟨-, hlast⟩ := List.append_inj' (hrows''.symm.trans hrows') rfl
        obtain rfl := List.singleton_inj.mp hlast
        exact absurd (h.exclusive j i _ hheld' hheld) hji
      | done q =>
        cases q with
        | none => trivial
        | some q =>
          rw [hj] at h3
          obtain ⟨r, hr, hn, hlt⟩ := h3
          obtain ⟨r', hr', hn', hle⟩ := he.grows r (hrows' ▸ hr)
          exact ⟨r', hr', by rw [hn', hn], hlt.trans_le hle⟩
      | lost => trivial
      | failed => trivial
  · by_cases hji : j = i
    · subst hji
      rw [Function.update_self] at hj
      by_cases hkj : k = j
      · exact hkj.symm
      · rw [Function.update_of_ne hkj] at hk
        exact absurd (Local.done.inj hj) (hold k p hk)
    · rw [Function.update_of_ne hji] at hj
      by_cases hki : k = i
      · subst hki
        rw [Function.update_self] at hk
        exact absurd (Local.done.inj hk) (hold j p hj)
      · rw [Function.update_of_ne hki] at hk
        exact h.distinct j k p hj hk
  · change Doomed (s.view i) (L j) ↔ _ ∨ ∃ n, s.waiting j = some n ∧ Closes (s.pending i) n
    rw [hview, hpending, hrows']
    have hsyncj := h.synced j
    cases hj : L j with
    | waiting n =>
      rw [hj] at hsyncj
      obtain ⟨r, hr, hn⟩ := hsyncj.fact
      have hle := ht.number_le (hrows' ▸ hr)
      rw [hsyncj.waiting, he.table.doomed_waiting, ht.doomed_waiting]
      simp only [Local.waits, Option.some.injEq, exists_eq_left']
      rcases he.opened with ⟨hcloses, hlast⟩ | ⟨hno, hlast⟩
      · refine ⟨fun _ => ?_, fun _ => by omega⟩
        by_cases hrow : n = row.number
        · exact .inr (hrow ▸ hcloses)
        · exact .inl hrow
      · rw [hlast]
        exact ⟨.inl, fun hor => hor.resolve_right (hno n)⟩
    | idle | locked row' writes' | done q | lost | failed =>
      rw [hj] at hsyncj
      rw [hsyncj.waiting]
      simp [Doomed, Local.waits]

/-- Every statement of a disciplined transaction. -/
theorem step_progress (h : Invariant s L) {o : Stmt ι}
    {k : Ans o → Prog (Stmt ι) Ans (Except StoreError Outcome)} {a : Ans o}
    (hd : Disciplined i (L i) (.call o k)) (hs : s.Handle o a s') (hf : o.Fits) :
    ∃ l, Disciplined i l (k a) ∧ Progress s L i o s' l := by
  generalize hL : L i = l at hd
  cases hd with
  | now hnext =>
    obtain rfl := hs
    refine ⟨l, hnext a, .of_move ?_ rfl (fun j => id) (by rw [hL])⟩
    rw [← hL, Function.update_eq_self]
    exact h
  | candidate hnext =>
    obtain ⟨n, rfl, hp⟩ := candidate_progress h hL hs
    exact ⟨_, hnext n, hp⟩
  | lockRow hlost hnext =>
    rcases lockRow_progress h hL hs with ⟨row, rfl, hrow, hp⟩ | ⟨rfl, hp⟩
    · exact ⟨_, hnext row hrow, hp⟩
    · exact ⟨_, hlost, hp⟩
  | write hw hnext =>
    obtain ⟨rfl, hp⟩ := write_progress h hL hw hs hf
    exact ⟨_, hnext, hp⟩
  | commit out hc hnext =>
    refine ⟨.done out.pair, ?_, commit_progress h hL hc hs⟩
    rw [hnext]
    exact .done out
  | insertFirst hrow hnext =>
    obtain ⟨rfl, hp⟩ := insertFirst_progress h hL hrow hs
    exact ⟨_, hnext, hp⟩
  | @rollback e k hnext =>
    refine ⟨.failed, ?_, rollback_progress h hL hs⟩
    rw [hnext]
    exact .failed e

end

end Shadownet.Postgres
