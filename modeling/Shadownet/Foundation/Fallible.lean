import Shadownet.Foundation.Interleaving
import Shadownet.Foundation.Outcome

/-!
# Programs that call operations and may fail

A `Fallible` program is a `Prog` whose result is a value or an error. Its ways through are
the calls it makes up to the end or up to the error, and each way of composing programs has
one lemma that says what the ways through the composition are. `Evolves` runs a list of
calls against a shared state.
-/

namespace Shadownet.Foundation

/-- A computation that calls operations and ends in an `α` or an `ε`. -/
abbrev Fallible (O : Type) (A : O → Type) (ε α : Type) := ExceptT ε (Prog O A) α

abbrev Calls (O : Type) (A : O → Type) := List ((o : O) × A o)

namespace Prog

variable {O : Type} {A : O → Type} {α β : Type}

theorem path_ret {a r : α} {calls : Calls O A} :
    Path (.ret a : Prog O A α) calls r ↔ calls = [] ∧ r = a := by
  constructor
  · intro h
    cases h
    exact ⟨rfl, rfl⟩
  · rintro ⟨rfl, rfl⟩
    exact .ret _

theorem path_call {o : O} {k : A o → Prog O A α} {r : α} {calls : Calls O A} :
    Path (.call o k) calls r ↔ ∃ a rest, calls = ⟨o, a⟩ :: rest ∧ Path (k a) rest r := by
  constructor
  · intro h
    cases h with
    | call o k a rest r h => exact ⟨a, rest, rfl, h⟩
  · rintro ⟨a, rest, rfl, h⟩
    exact .call o k a rest r h

theorem path_bind {x : Prog O A α} {f : α → Prog O A β} {r : β} {calls : Calls O A} :
    Path (x >>= f) calls r ↔
      ∃ c₁ c₂ a, calls = c₁ ++ c₂ ∧ Path x c₁ a ∧ Path (f a) c₂ r := by
  induction x generalizing calls with
  | ret a =>
    rw [ret_bind]
    constructor
    · intro h
      exact ⟨[], calls, a, rfl, .ret a, h⟩
    · rintro ⟨c₁, c₂, b, rfl, hx, h⟩
      obtain ⟨rfl, rfl⟩ := path_ret.mp hx
      exact h
  | call o k ih =>
    change Path (.call o fun a => k a >>= f) calls r ↔ _
    rw [path_call]
    constructor
    · rintro ⟨a, rest, rfl, h⟩
      obtain ⟨c₁, c₂, b, rfl, hk, hf⟩ := (ih a).mp h
      exact ⟨⟨o, a⟩ :: c₁, c₂, b, rfl, path_call.mpr ⟨a, c₁, rfl, hk⟩, hf⟩
    · rintro ⟨c₁, c₂, b, rfl, hx, hf⟩
      obtain ⟨a, rest, rfl, hk⟩ := path_call.mp hx
      exact ⟨a, rest ++ c₂, rfl, (ih a).mpr ⟨rest, c₂, b, rfl, hk, hf⟩⟩

/-! ## Programs in place of calls -/

section
variable {O' : Type} {A' : O' → Type}

/-- A program with a program over other operations in place of each call. -/
def interp (f : (o : O) → Prog O' A' (A o)) : Prog O A α → Prog O' A' α
  | .ret a => .ret a
  | .call o k => (f o).bind fun a => (k a).interp f

/-- The calls with the ways through the programs that answered them in their place. -/
inductive Expands (f : (o : O) → Prog O' A' (A o)) : Calls O A → Calls O' A' → Prop
  | nil : Expands f [] []
  | cons {o : O} {a : A o} {outer : Calls O A} {c₁ c₂ : Calls O' A'} (h : Path (f o) c₁ a)
      (hrest : Expands f outer c₂) : Expands f (⟨o, a⟩ :: outer) (c₁ ++ c₂)

theorem path_interp {f : (o : O) → Prog O' A' (A o)} {p : Prog O A α} {calls : Calls O' A'}
    {r : α} : Path (p.interp f) calls r ↔ ∃ outer, Path p outer r ∧ Expands f outer calls := by
  induction p generalizing calls with
  | ret a =>
    constructor
    · intro h
      obtain ⟨rfl, rfl⟩ := path_ret.mp h
      exact ⟨[], .ret _, .nil⟩
    · rintro ⟨outer, h, he⟩
      cases h
      cases he
      exact .ret _
  | call o k ih =>
    change Path (f o >>= fun a => (k a).interp f) calls r ↔ _
    rw [path_bind]
    constructor
    · rintro ⟨c₁, c₂, a, rfl, h, hk⟩
      obtain ⟨outer, hp, he⟩ := (ih a).mp hk
      exact ⟨⟨o, a⟩ :: outer, .call o k a outer r hp, .cons h he⟩
    · rintro ⟨outer, hp, he⟩
      cases hp with
      | call o k a outer r hp =>
        cases he with
        | cons h he => exact ⟨_, _, a, rfl, h, (ih a).mpr ⟨outer, hp, he⟩⟩

end

end Prog

namespace Fallible

variable {O : Type} {A : O → Type} {ε α β : Type}

/-- One call. -/
def ask (o : O) : Fallible O A ε (A o) := ExceptT.lift (Prog.op o)

/-- A computation without calls. -/
def ofExcept (x : Except ε α) : Fallible O A ε α := ExceptT.mk (.ret x)

theorem ofExcept_pure (a : α) : ofExcept (pure a : Except ε α) = (pure a : Fallible O A ε α) := rfl

/-- A sequence of computations without calls is such a computation. -/
theorem ofExcept_bind (x : Except ε α) (f : α → Except ε β) :
    (ofExcept (x >>= f) : Fallible O A ε β) = ofExcept x >>= fun a => ofExcept (f a) := by
  cases x with
  | error e => rfl
  | ok a => rfl

theorem throw_bind (e : ε) (f : α → Fallible O A ε β) :
    (throw e : Fallible O A ε α) >>= f = throw e := rfl

/-- A check without calls, before the rest. -/
theorem ofExcept_guard_bind {c : Prop} [Decidable c] (e : ε) (x : Except ε α)
    (f : α → Fallible O A ε β) :
    ofExcept (if c then throw e else x) >>= f =
      if c then throw e else ofExcept x >>= f := by
  by_cases hc : c
  · rw [if_pos hc, if_pos hc]
    rfl
  · rw [if_neg hc, if_neg hc]

/-- Changes the outcome of a program, calls untouched. -/
def mapOutcome (f : Except ε α → Except ε β) (x : Fallible O A ε α) : Fallible O A ε β :=
  ExceptT.mk (x.run >>= fun r => .ret (f r))

/-- The outcome of the first part decides: a result goes on to the rest, an error ends as
`f` says. -/
def handling (f : ε → Except ε β) (x : Fallible O A ε α) (k : α → Fallible O A ε β) :
    Fallible O A ε β :=
  ExceptT.mk (x.run >>= fun r => match r with
    | .ok a => (k a).run
    | .error e => .ret (f e))

/-- The ways through a program. -/
def Path (x : Fallible O A ε α) (calls : Calls O A) (r : Except ε α) : Prop :=
  Prog.Path x.run calls r

variable {calls : Calls O A}

theorem path_pure {a : α} {r : Except ε α} :
    Path (pure a : Fallible O A ε α) calls r ↔ calls = [] ∧ r = .ok a :=
  Prog.path_ret

theorem path_throw {e : ε} {r : Except ε α} :
    Path (throw e : Fallible O A ε α) calls r ↔ calls = [] ∧ r = .error e :=
  Prog.path_ret

theorem path_ofExcept {x r : Except ε α} :
    Path (ofExcept x : Fallible O A ε α) calls r ↔ calls = [] ∧ r = x :=
  Prog.path_ret

theorem path_ask {o : O} {r : Except ε (A o)} :
    Path (ask o : Fallible O A ε (A o)) calls r ↔ ∃ a, calls = [⟨o, a⟩] ∧ r = .ok a := by
  change Prog.Path (.call o fun a => .ret (.ok a)) calls r ↔ _
  simp only [Prog.path_call, Prog.path_ret]
  constructor
  · rintro ⟨a, rest, rfl, rfl, rfl⟩
    exact ⟨a, rfl, rfl⟩
  · rintro ⟨a, rfl, rfl⟩
    exact ⟨a, [], rfl, rfl, rfl⟩

theorem path_bind {x : Fallible O A ε α} {f : α → Fallible O A ε β} {r : Except ε β} :
    Path (x >>= f) calls r ↔ (∃ e, Path x calls (.error e) ∧ r = .error e) ∨
      ∃ c₁ c₂ a, calls = c₁ ++ c₂ ∧ Path x c₁ (.ok a) ∧ Path (f a) c₂ r := by
  change Prog.Path (x.run >>= ExceptT.bindCont f) calls r ↔ _
  rw [Prog.path_bind]
  constructor
  · rintro ⟨c₁, c₂, a, rfl, hx, hf⟩
    cases a with
    | error e =>
      obtain ⟨rfl, rfl⟩ := Prog.path_ret.mp hf
      exact .inl ⟨e, by rw [List.append_nil]; exact hx, rfl⟩
    | ok a => exact .inr ⟨c₁, c₂, a, rfl, hx, hf⟩
  · rintro (⟨e, hx, rfl⟩ | ⟨c₁, c₂, a, rfl, hx, hf⟩)
    · exact ⟨calls, [], .error e, (List.append_nil _).symm, hx, Prog.path_ret.mpr ⟨rfl, rfl⟩⟩
    · exact ⟨c₁, c₂, .ok a, rfl, hx, hf⟩

/-- The successful ways through a sequence. -/
theorem path_bind_ok {x : Fallible O A ε α} {f : α → Fallible O A ε β} {b : β} :
    Path (x >>= f) calls (.ok b) ↔
      ∃ c₁ c₂ a, calls = c₁ ++ c₂ ∧ Path x c₁ (.ok a) ∧ Path (f a) c₂ (.ok b) := by
  rw [path_bind]
  simp

/-- A call whose answer decides the outcome. -/
theorem path_ask_ofExcept {o : O} {f : A o → Except ε α} {r : Except ε α} :
    Path (ask o >>= fun a => ofExcept (f a) : Fallible O A ε α) calls r ↔
      ∃ a, calls = [⟨o, a⟩] ∧ r = f a := by
  simp only [path_bind, path_ask, path_ofExcept]
  constructor
  · rintro (⟨e, ⟨a, -, h⟩, -⟩ | ⟨c₁, c₂, a, rfl, ⟨b, rfl, h⟩, rfl, rfl⟩)
    · cases h
    · cases h
      exact ⟨a, rfl, rfl⟩
  · rintro ⟨a, rfl, rfl⟩
    exact .inr ⟨[⟨o, a⟩], [], a, rfl, ⟨a, rfl, rfl⟩, rfl, rfl⟩

theorem path_mapOutcome {f : Except ε α → Except ε β} {x : Fallible O A ε α}
    {r : Except ε β} :
    Path (mapOutcome f x) calls r ↔ ∃ q, Path x calls q ∧ r = f q := by
  change Prog.Path (x.run >>= fun q => .ret (f q)) calls r ↔ _
  rw [Prog.path_bind]
  constructor
  · rintro ⟨c₁, c₂, q, rfl, hx, hf⟩
    obtain ⟨rfl, rfl⟩ := Prog.path_ret.mp hf
    exact ⟨q, by rw [List.append_nil]; exact hx, rfl⟩
  · rintro ⟨q, hx, rfl⟩
    exact ⟨calls, [], q, (List.append_nil _).symm, hx, Prog.path_ret.mpr ⟨rfl, rfl⟩⟩

theorem path_handling {f : ε → Except ε β} {x : Fallible O A ε α} {k : α → Fallible O A ε β}
    {r : Except ε β} :
    Path (handling f x k) calls r ↔ (∃ e, Path x calls (.error e) ∧ r = f e) ∨
      ∃ c₁ c₂ a, calls = c₁ ++ c₂ ∧ Path x c₁ (.ok a) ∧ Path (k a) c₂ r := by
  change Prog.Path (x.run >>= fun r => match r with
    | .ok a => (k a).run
    | .error e => .ret (f e)) calls r ↔ _
  rw [Prog.path_bind]
  constructor
  · rintro ⟨c₁, c₂, q, rfl, hx, hk⟩
    cases q with
    | error e =>
      obtain ⟨rfl, rfl⟩ := Prog.path_ret.mp hk
      exact .inl ⟨e, by rw [List.append_nil]; exact hx, rfl⟩
    | ok a => exact .inr ⟨c₁, c₂, a, rfl, hx, hk⟩
  · rintro (⟨e, hx, rfl⟩ | ⟨c₁, c₂, a, rfl, hx, hk⟩)
    · exact ⟨calls, [], .error e, (List.append_nil _).symm, hx, Prog.path_ret.mpr ⟨rfl, rfl⟩⟩
    · exact ⟨c₁, c₂, .ok a, rfl, hx, hk⟩

theorem path_guard {c : Prop} [Decidable c] {e : ε} {x : Fallible O A ε α}
    {r : Except ε α} :
    Path (if c then throw e else x) calls r ↔
      (c ∧ calls = [] ∧ r = .error e) ∨ (¬ c ∧ Path x calls r) := by
  by_cases hc : c
  · simp [hc, path_throw]
  · simp [hc]

/-- Every call the program may make satisfies `P`, whatever the answers. -/
def Only (P : O → Prop) (x : Fallible O A ε α) : Prop :=
  ∀ calls r, Path x calls r → ∀ c ∈ calls, P c.1

section
variable {P : O → Prop}

theorem Only.mono {Q : O → Prop} {x : Fallible O A ε α} (hpq : ∀ o, P o → Q o)
    (h : Only P x) : Only Q x :=
  fun calls r hp c hc => hpq _ (h calls r hp c hc)

theorem only_pure (a : α) : Only P (pure a : Fallible O A ε α) := by
  intro calls r h c hc
  rw [(path_pure.mp h).1] at hc
  cases hc

theorem only_throw (e : ε) : Only P (throw e : Fallible O A ε α) := by
  intro calls r h c hc
  rw [(path_throw.mp h).1] at hc
  cases hc

theorem only_ofExcept (x : Except ε α) : Only P (ofExcept x : Fallible O A ε α) := by
  intro calls r h c hc
  rw [(path_ofExcept.mp h).1] at hc
  cases hc

theorem only_ask {o : O} (ho : P o) : Only P (ask o : Fallible O A ε (A o)) := by
  intro calls r h c hc
  obtain ⟨a, rfl, -⟩ := path_ask.mp h
  rw [List.mem_singleton.mp hc]
  exact ho

theorem Only.bind {x : Fallible O A ε α} {f : α → Fallible O A ε β} (hx : Only P x)
    (hf : ∀ a, Only P (f a)) : Only P (x >>= f) := by
  intro calls r h c hc
  rcases path_bind.mp h with ⟨e, hp, -⟩ | ⟨c₁, c₂, a, rfl, h₁, h₂⟩
  · exact hx _ _ hp c hc
  · rcases List.mem_append.mp hc with hc | hc
    · exact hx _ _ h₁ c hc
    · exact hf a _ _ h₂ c hc

theorem Only.mapOutcome {f : Except ε α → Except ε β} {x : Fallible O A ε α}
    (hx : Only P x) : Only P (mapOutcome f x) := by
  intro calls r h
  obtain ⟨q, hq, -⟩ := path_mapOutcome.mp h
  exact hx _ _ hq

theorem Only.handling {f : ε → Except ε β} {x : Fallible O A ε α}
    {k : α → Fallible O A ε β} (hx : Only P x) (hk : ∀ a, Only P (k a)) :
    Only P (handling f x k) := by
  intro calls r h c hc
  rcases path_handling.mp h with ⟨e, hp, -⟩ | ⟨c₁, c₂, a, rfl, h₁, h₂⟩
  · exact hx _ _ hp c hc
  · rcases List.mem_append.mp hc with hc | hc
    · exact hx _ _ h₁ c hc
    · exact hk a _ _ h₂ c hc

theorem Only.ite {c : Prop} [Decidable c] {x y : Fallible O A ε α} (hx : Only P x)
    (hy : Only P y) : Only P (if c then x else y) := by
  by_cases hc : c
  · rwa [if_pos hc]
  · rwa [if_neg hc]

end

/-- Whenever every call is answered as `D` says, the outcome satisfies `Q`. -/
def Sat (D : (o : O) × A o → Prop) (Q : Except ε α → Prop) (x : Fallible O A ε α) : Prop :=
  ∀ calls r, Path x calls r → (∀ c ∈ calls, D c) → Q r

section
variable {D : (o : O) × A o → Prop} {R : α → Prop} {S : β → Prop} {E : ε → Prop}

theorem sat_pure {a : α} (h : R a) : Sat D (Yields R E) (pure a : Fallible O A ε α) := by
  intro calls r hp _
  rw [(path_pure.mp hp).2]
  exact h

theorem sat_throw {e : ε} (h : E e) : Sat D (Yields R E) (throw e : Fallible O A ε α) := by
  intro calls r hp _
  rw [(path_throw.mp hp).2]
  exact h

theorem sat_ofExcept {x : Except ε α} (h : Yields R E x) :
    Sat D (Yields R E) (ofExcept x : Fallible O A ε α) := by
  intro calls r hp _
  rw [(path_ofExcept.mp hp).2]
  exact h

theorem sat_ask {o : O} {Q : Except ε (A o) → Prop} (h : ∀ a, D ⟨o, a⟩ → Q (.ok a)) :
    Sat D Q (ask o : Fallible O A ε (A o)) := by
  intro calls r hp hD
  obtain ⟨a, rfl, rfl⟩ := path_ask.mp hp
  exact h a (hD _ (List.mem_singleton.mpr rfl))

theorem Sat.bind {x : Fallible O A ε α} {f : α → Fallible O A ε β} (hx : Sat D (Yields R E) x)
    (hf : ∀ a, R a → Sat D (Yields S E) (f a)) : Sat D (Yields S E) (x >>= f) := by
  intro calls r hp hD
  rcases path_bind.mp hp with ⟨e, he, rfl⟩ | ⟨c₁, c₂, a, rfl, h₁, h₂⟩
  · exact hx calls _ he hD
  · have ha : R a := hx c₁ _ h₁ fun c hc => hD c (List.mem_append_left _ hc)
    exact hf a ha c₂ r h₂ fun c hc => hD c (List.mem_append_right _ hc)

theorem Sat.mapOutcome {Q : Except ε β → Prop} {f : Except ε α → Except ε β}
    {x : Fallible O A ε α} (hx : Sat D (fun r => Q (f r)) x) : Sat D Q (mapOutcome f x) := by
  intro calls r hp hD
  obtain ⟨q, hq, rfl⟩ := path_mapOutcome.mp hp
  exact hx calls q hq hD

theorem Sat.mono {Q Q' : Except ε α → Prop} {x : Fallible O A ε α} (hx : Sat D Q x)
    (h : ∀ r, Q r → Q' r) : Sat D Q' x :=
  fun calls r hp hD => h r (hx calls r hp hD)

theorem Sat.ite {c : Prop} [Decidable c] {Q : Except ε α → Prop} {x y : Fallible O A ε α}
    (hx : c → Sat D Q x) (hy : ¬ c → Sat D Q y) : Sat D Q (if c then x else y) := by
  by_cases hc : c
  · rw [if_pos hc]
    exact hx hc
  · rw [if_neg hc]
    exact hy hc

end

/-- The calls lead to an error in `E`. -/
def Fails (E : ε → Prop) (x : Fallible O A ε α) (calls : Calls O A) : Prop :=
  ∃ e, Path x calls (.error e) ∧ E e

section
variable {E : ε → Prop}

theorem fails_bind {x : Fallible O A ε α} {f : α → Fallible O A ε β} :
    Fails E (x >>= f) calls ↔ Fails E x calls ∨
      ∃ c₁ c₂ a, calls = c₁ ++ c₂ ∧ Path x c₁ (.ok a) ∧ Fails E (f a) c₂ := by
  constructor
  · rintro ⟨e, hp, he⟩
    rcases path_bind.mp hp with ⟨e', hx, h⟩ | ⟨c₁, c₂, a, rfl, hx, hf⟩
    · cases h
      exact .inl ⟨e, hx, he⟩
    · exact .inr ⟨c₁, c₂, a, rfl, hx, e, hf, he⟩
  · rintro (⟨e, hx, he⟩ | ⟨c₁, c₂, a, rfl, hx, e, hf, he⟩)
    · exact ⟨e, path_bind.mpr (.inl ⟨e, hx, rfl⟩), he⟩
    · exact ⟨e, path_bind.mpr (.inr ⟨c₁, c₂, a, rfl, hx, hf⟩), he⟩

theorem fails_ofExcept {x : Except ε α} :
    Fails E (ofExcept x : Fallible O A ε α) calls ↔ calls = [] ∧ Foundation.Fails E x := by
  constructor
  · rintro ⟨e, hp, he⟩
    obtain ⟨rfl, h⟩ := path_ofExcept.mp hp
    exact ⟨rfl, e, h.symm, he⟩
  · rintro ⟨rfl, e, rfl, he⟩
    exact ⟨e, path_ofExcept.mpr ⟨rfl, rfl⟩, he⟩

/-- A computation without calls, before the rest. -/
theorem fails_ofExcept_bind {x : Except ε α} {f : α → Fallible O A ε β} :
    Fails E (ofExcept x >>= f) calls ↔
      (calls = [] ∧ Foundation.Fails E x) ∨ ∃ a, x = .ok a ∧ Fails E (f a) calls := by
  rw [fails_bind, fails_ofExcept]
  refine or_congr_right ⟨?_, ?_⟩
  · rintro ⟨c₁, c₂, a, rfl, hx, h⟩
    obtain ⟨rfl, rfl⟩ := path_ofExcept.mp hx
    exact ⟨a, rfl, h⟩
  · rintro ⟨a, rfl, h⟩
    exact ⟨[], calls, a, rfl, path_ofExcept.mpr ⟨rfl, rfl⟩, h⟩

theorem not_fails_ask {o : O} : ¬ Fails E (ask o : Fallible O A ε (A o)) calls := by
  rintro ⟨e, hp, -⟩
  obtain ⟨a, -, h⟩ := path_ask.mp hp
  cases h

/-- A call, before the rest. -/
theorem fails_ask_bind {o : O} {f : A o → Fallible O A ε β} :
    Fails E (ask o >>= f) calls ↔ ∃ a rest, calls = ⟨o, a⟩ :: rest ∧ Fails E (f a) rest := by
  rw [fails_bind, or_iff_right not_fails_ask]
  constructor
  · rintro ⟨c₁, c₂, a, rfl, ha, h⟩
    obtain ⟨a', rfl, ha'⟩ := path_ask.mp ha
    cases ha'
    exact ⟨a, c₂, rfl, h⟩
  · rintro ⟨a, rest, rfl, h⟩
    exact ⟨[⟨o, a⟩], rest, a, rfl, path_ask.mpr ⟨a, rfl, rfl⟩, h⟩

theorem Sat.not_fails {D : (o : O) × A o → Prop} {R : α → Prop} {F : ε → Prop}
    {x : Fallible O A ε α} (h : Sat D (Yields R E) x) (hE : ∀ e, E e → ¬ F e)
    (hD : ∀ c ∈ calls, D c) : ¬ Fails F x calls := by
  rintro ⟨e, hp, he⟩
  exact hE e (h calls _ hp hD) he

end

end Fallible

/-! ## Calls against a shared state -/

section
variable {σ O : Type} {A : O → Type}

/-- The calls, in order, take the state from the first to the last. -/
inductive Evolves (handle : σ → (o : O) → A o → σ → Prop) : σ → Calls O A → σ → Prop
  | nil (s : σ) : Evolves handle s [] s
  | cons {s s₁ s' : σ} {o : O} {a : A o} {calls : Calls O A} (hs : handle s o a s₁)
      (h : Evolves handle s₁ calls s') : Evolves handle s (⟨o, a⟩ :: calls) s'

variable {handle : σ → (o : O) → A o → σ → Prop}

theorem evolves_nil {s s' : σ} : Evolves handle s [] s' ↔ s' = s := by
  constructor
  · intro h
    cases h
    rfl
  · rintro rfl
    exact .nil _

theorem evolves_cons {s s' : σ} {o : O} {a : A o} {calls : Calls O A} :
    Evolves handle s (⟨o, a⟩ :: calls) s' ↔
      ∃ s₁, handle s o a s₁ ∧ Evolves handle s₁ calls s' := by
  constructor
  · intro h
    cases h with
    | cons hs h => exact ⟨_, hs, h⟩
  · rintro ⟨s₁, hs, h⟩
    exact .cons hs h

theorem evolves_append {s s' : σ} {c₁ c₂ : Calls O A} :
    Evolves handle s (c₁ ++ c₂) s' ↔
      ∃ s₁, Evolves handle s c₁ s₁ ∧ Evolves handle s₁ c₂ s' := by
  induction c₁ generalizing s with
  | nil => simp [evolves_nil]
  | cons c c₁ ih =>
    obtain ⟨o, a⟩ := c
    simp only [List.cons_append, evolves_cons, ih]
    constructor
    · rintro ⟨s₁, hs, s₂, h₁, h₂⟩
      exact ⟨s₂, ⟨s₁, hs, h₁⟩, h₂⟩
    · rintro ⟨s₂, ⟨s₁, hs, h₁⟩, h₂⟩
      exact ⟨s₁, hs, s₂, h₁, h₂⟩

/-- The states around one of the calls. -/
theorem Evolves.mem {s s' : σ} {o : O} {a : A o} {calls : Calls O A}
    (h : Evolves handle s calls s') (hc : ⟨o, a⟩ ∈ calls) :
    ∃ c₁ c₂ s₁ s₂, calls = c₁ ++ ⟨o, a⟩ :: c₂ ∧ Evolves handle s c₁ s₁ ∧
      handle s₁ o a s₂ ∧ Evolves handle s₂ c₂ s' := by
  obtain ⟨c₁, c₂, rfl⟩ := List.append_of_mem hc
  obtain ⟨s₁, h₁, h⟩ := evolves_append.mp h
  obtain ⟨s₂, h₂, h₃⟩ := evolves_cons.mp h
  exact ⟨c₁, c₂, s₁, s₂, rfl, h₁, h₂, h₃⟩

/-- What each of the calls keeps, all of them together keep. -/
theorem Evolves.keeps {I : σ → Prop} {calls : Calls O A} {s s' : σ}
    (h : Evolves handle s calls s')
    (hstep : ∀ c ∈ calls, ∀ s s', I s → handle s c.1 c.2 s' → I s') (hs : I s) : I s' := by
  induction h with
  | nil s => exact hs
  | @cons s s₁ s' o a calls hh h ih =>
    exact ih (fun c hc => hstep c (by simp [hc])) (hstep ⟨o, a⟩ (by simp) s s₁ hs hh)

/-- The calls, seen through a map of the states. -/
theorem Evolves.map {τ : Type} {handle' : τ → (o : O) → A o → τ → Prop} {f : σ → τ}
    (hf : ∀ s o a s', handle s o a s' → handle' (f s) o a (f s')) {calls : Calls O A} {s s' : σ}
    (h : Evolves handle s calls s') : Evolves handle' (f s) calls (f s') := by
  induction h with
  | nil s => exact .nil _
  | cons hs h ih => exact .cons (hf _ _ _ _ hs) ih

/-- The first calls of a way through a program, taken in one go. -/
theorem Evolves.follows {α : Type} {p : Prog O A α} {c₁ c₂ : Calls O A} {r : α} {s s' : σ}
    (h : Evolves handle s c₁ s') (hp : Prog.Path p (c₁ ++ c₂) r) :
    ∃ p', Follows handle s p c₁ s' p' ∧ Prog.Path p' c₂ r := by
  induction h generalizing p with
  | nil s => exact ⟨p, .stop s p, hp⟩
  | cons hs h ih =>
    cases hp with
    | call o k a rest r hk =>
      obtain ⟨p', hf, hp'⟩ := ih hk
      exact ⟨p', .call hs hf, hp'⟩

/-- A whole way through a program. -/
theorem Evolves.follows_all {α : Type} {p : Prog O A α} {calls : Calls O A} {r : α} {s s' : σ}
    (h : Evolves handle s calls s') (hp : Prog.Path p calls r) :
    Follows handle s p calls s' (.ret r) := by
  rw [← List.append_nil calls] at hp
  obtain ⟨p', hf, hp'⟩ := h.follows hp
  cases hp'
  exact hf

/-- Two programs of a pool that overlap: the first stops on its way, the second begins, and both
end, each in one go. -/
theorem Run.overlap {ι α : Type} [DecidableEq ι] {env : σ → σ → Prop} {s₀ s s₁ s₂ s₃ s₄ : σ}
    {pool₀ pool : ι → Prog O A α} {tr : List (Event ι O A)} {i j : ι} {c₁ c₂ d₁ d₂ : Calls O A}
    {x y : α} (hr : Run handle env s₀ pool₀ tr s pool) (hij : i ≠ j)
    (hi : Prog.Path (pool i) (c₁ ++ c₂) x) (hj : Prog.Path (pool j) (d₁ ++ d₂) y)
    (h₁ : Evolves handle s c₁ s₁) (h₂ : Evolves handle s₁ d₁ s₂) (h₃ : Evolves handle s₂ c₂ s₃)
    (h₄ : Evolves handle s₃ d₂ s₄) :
    ∃ pool', Run handle env s₀ pool₀ (tr ++ (c₁.map fun c => ⟨i, c.1, c.2⟩) ++
        (d₁.map fun c => ⟨j, c.1, c.2⟩) ++ (c₂.map fun c => ⟨i, c.1, c.2⟩) ++
        d₂.map fun c => ⟨j, c.1, c.2⟩) s₄ pool' ∧
      pool' i = .ret x ∧ pool' j = .ret y := by
  obtain ⟨p, hf, hp⟩ := h₁.follows hi
  obtain ⟨q, hg, hq⟩ := h₂.follows hj
  have hr₁ := hr.follow rfl hf
  have hr₂ := hr₁.follow (i := j) (Function.update_of_ne hij.symm _ _) hg
  have hr₃ := hr₂.follow (i := i) ((Function.update_of_ne hij _ _).trans (Function.update_self ..))
    (h₃.follows_all hp)
  have hr₄ := hr₃.follow (i := j)
    ((Function.update_of_ne hij.symm _ _).trans (Function.update_self ..)) (h₄.follows_all hq)
  exact ⟨_, hr₄, (Function.update_of_ne hij _ _).trans (Function.update_self ..),
    Function.update_self ..⟩

/-- Runs a program alone, where each operation has one answer in each state. -/
def Prog.execute {α : Type} (answer : σ → (o : O) → A o × σ) : Prog O A α → σ → α × σ
  | .ret a, s => (a, s)
  | .call o k, s => (k (answer s o).1).execute answer (answer s o).2

theorem Prog.execute_bind {α β : Type} {answer : σ → (o : O) → A o × σ} (x : Prog O A α)
    (f : α → Prog O A β) (s : σ) :
    (x >>= f).execute answer s = (f (x.execute answer s).1).execute answer
      (x.execute answer s).2 := by
  induction x generalizing s with
  | ret a => rfl
  | call o k ih => exact ih (answer s o).1 (answer s o).2

namespace Fallible

variable {ε α β : Type} {answer : σ → (o : O) → A o × σ}

/-- The same for a program that may fail. -/
def execute (answer : σ → (o : O) → A o × σ) (x : Fallible O A ε α) (s : σ) : Except ε α × σ :=
  x.run.execute answer s

theorem execute_pure (a : α) (s : σ) :
    execute answer (pure a : Fallible O A ε α) s = (.ok a, s) := rfl

theorem execute_throw (e : ε) (s : σ) :
    execute answer (throw e : Fallible O A ε α) s = (.error e, s) := rfl

theorem execute_ofExcept (x : Except ε α) (s : σ) :
    execute answer (ofExcept x : Fallible O A ε α) s = (x, s) := rfl

theorem execute_bind_ok {x : Fallible O A ε α} {f : α → Fallible O A ε β} {s s₁ : σ} {a : α}
    (h : execute answer x s = (.ok a, s₁)) :
    execute answer (x >>= f) s = execute answer (f a) s₁ := by
  change Prog.execute answer (x.run >>= ExceptT.bindCont f) s = _
  rw [Prog.execute_bind]
  have hx : x.run.execute answer s = (.ok a, s₁) := h
  rw [hx]
  rfl

theorem execute_bind_error {x : Fallible O A ε α} {f : α → Fallible O A ε β} {s s₁ : σ} {e : ε}
    (h : execute answer x s = (.error e, s₁)) : execute answer (x >>= f) s = (.error e, s₁) := by
  change Prog.execute answer (x.run >>= ExceptT.bindCont f) s = _
  rw [Prog.execute_bind]
  have hx : x.run.execute answer s = (.error e, s₁) := h
  rw [hx]
  rfl

/-- Two ways to answer that agree on each part of a sequence. -/
theorem execute_bind_congr {answer' : σ → (o : O) → A o × σ} {x : Fallible O A ε α}
    {f : α → Fallible O A ε β} {s : σ} (hx : execute answer x s = execute answer' x s)
    (hf : ∀ a s, execute answer (f a) s = execute answer' (f a) s) :
    execute answer (x >>= f) s = execute answer' (x >>= f) s := by
  cases h : execute answer x s with
  | mk r s₁ =>
    cases r with
    | error e => rw [execute_bind_error h, execute_bind_error (hx ▸ h)]
    | ok a => rw [execute_bind_ok h, execute_bind_ok (hx ▸ h), hf]

/-- A run of a sequence succeeds when the runs of both parts do. -/
theorem execute_bind_eq_ok {x : Fallible O A ε α} {f : α → Fallible O A ε β} {s : σ} {b : β} :
    (execute answer (x >>= f) s).1 = .ok b ↔
      ∃ a s₁, execute answer x s = (.ok a, s₁) ∧ (execute answer (f a) s₁).1 = .ok b := by
  cases h : execute answer x s with
  | mk r s₁ =>
    cases r with
    | error e =>
      rw [execute_bind_error h]
      simp
    | ok a =>
      rw [execute_bind_ok h]
      constructor
      · intro hb
        exact ⟨a, s₁, rfl, hb⟩
      · rintro ⟨a', s', heq, hb⟩
        cases heq
        exact hb

theorem execute_mapOutcome (f : Except ε α → Except ε β) (x : Fallible O A ε α) (s : σ) :
    execute answer (mapOutcome f x) s = (f (execute answer x s).1, (execute answer x s).2) := by
  change Prog.execute answer (x.run >>= fun r => .ret (f r)) s = _
  rw [Prog.execute_bind]
  rfl

end Fallible

end

end Shadownet.Foundation
