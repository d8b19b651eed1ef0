import Mathlib.Data.List.Basic

/-!
# Computations that can fail

Inversion of `Except` computations, one lemma per way of composing them. A proof about a
fallible function peels its binds apart with `bind_eq_ok` and its guards with
`guard_eq_ok`, and never unfolds the monad.
-/

namespace Shadownet.Foundation

universe u v

variable {ε ε' : Type v} {α β : Type u}

@[simp] theorem pure_eq_ok {a b : α} : (pure a : Except ε α) = .ok b ↔ a = b := by
  simp [pure, Except.pure]

@[simp] theorem throw_eq_ok {e : ε} {b : α} : (throw e : Except ε α) = .ok b ↔ False := by
  simp [throw, throwThe, MonadExceptOf.throw]

theorem ok_bind (a : α) (f : α → Except ε β) : (Except.ok a >>= f) = f a := rfl

theorem error_bind (e : ε) (f : α → Except ε β) : (Except.error e >>= f) = .error e := rfl

/-- A sequence succeeds when both parts do. -/
theorem bind_eq_ok {x : Except ε α} {f : α → Except ε β} {b : β} :
    (x >>= f) = .ok b ↔ ∃ a, x = .ok a ∧ f a = .ok b := by
  cases x with
  | error e => simp [bind, Except.bind]
  | ok a => simp [bind, Except.bind]

theorem map_eq_ok {x : Except ε α} {f : α → β} {b : β} :
    x.map f = .ok b ↔ ∃ a, x = .ok a ∧ f a = b := by
  cases x with
  | error e => simp [Except.map]
  | ok a => simp [Except.map]

/-- A guard that raises when `c` holds. -/
theorem guard_eq_ok {c : Prop} [Decidable c] {e : ε} {x : Except ε α} {a : α} :
    (if c then throw e else x) = .ok a ↔ ¬ c ∧ x = .ok a := by
  by_cases hc : c <;> simp [hc]

@[simp] theorem mapError_eq_ok {f : ε → ε'} {x : Except ε α} {a : α} :
    x.mapError f = .ok a ↔ x = .ok a := by
  cases x with
  | error e => simp [Except.mapError]
  | ok a => simp [Except.mapError]

theorem isOk_iff {x : Except ε α} : x.isOk = true ↔ ∃ a, x = .ok a := by
  cases x with
  | error e => simp [Except.isOk, Except.toBool]
  | ok a => simp [Except.isOk, Except.toBool]

/-- A loop without results succeeds when each round does. -/
theorem forM_eq_ok {l : List α} {f : α → Except ε Unit} :
    l.forM f = .ok () ↔ ∀ a ∈ l, f a = .ok () := by
  induction l with
  | nil => exact ⟨fun _ => by simp, fun _ => rfl⟩
  | cons a l ih =>
    have hcons : (a :: l).forM f = (f a >>= fun _ => l.forM f) := rfl
    rw [hcons, bind_eq_ok, List.forall_mem_cons, ← ih]
    exact ⟨fun ⟨_, ha, hl⟩ => ⟨ha, hl⟩, fun ⟨ha, hl⟩ => ⟨(), ha, hl⟩⟩

/-- A loop whose step succeeds with `F a` when `C a` holds. -/
theorem mapM_eq_ok {l : List α} {f : α → Except ε β} {C : α → Prop} {F : α → β}
    (h : ∀ a ∈ l, ∀ b, f a = .ok b ↔ C a ∧ b = F a) {bs : List β} :
    l.mapM f = .ok bs ↔ (∀ a ∈ l, C a) ∧ bs = l.map F := by
  induction l generalizing bs with
  | nil =>
    rw [List.mapM_nil, pure_eq_ok, List.map_nil]
    exact ⟨fun h => ⟨by simp, h.symm⟩, fun h => h.2.symm⟩
  | cons a l ih =>
    have ha := h a (by simp)
    have hl : ∀ {bs}, l.mapM f = .ok bs ↔ (∀ a ∈ l, C a) ∧ bs = l.map F :=
      ih fun a ha => h a (by simp [ha])
    rw [List.mapM_cons, bind_eq_ok]
    constructor
    · rintro ⟨b, hb, hrest⟩
      obtain ⟨bs', hbs, hret⟩ := bind_eq_ok.mp hrest
      obtain ⟨hC, rfl⟩ := (ha b).mp hb
      obtain ⟨hCs, rfl⟩ := hl.mp hbs
      rw [pure_eq_ok] at hret
      exact ⟨List.forall_mem_cons.mpr ⟨hC, hCs⟩, by rw [← hret, List.map_cons]⟩
    · rintro ⟨hCs, rfl⟩
      rw [List.forall_mem_cons] at hCs
      refine ⟨F a, (ha _).mpr ⟨hCs.1, rfl⟩, bind_eq_ok.mpr ⟨l.map F, hl.mpr ⟨hCs.2, rfl⟩, ?_⟩⟩
      rw [pure_eq_ok, List.map_cons]

/-! ## How a computation may end -/

/-- A result in `R` or an error in `E`. -/
def Yields (R : α → Prop) (E : ε → Prop) : Except ε α → Prop
  | .ok a => R a
  | .error e => E e

/-- An error in `E`. -/
def Fails (E : ε → Prop) (x : Except ε α) : Prop := ∃ e, x = .error e ∧ E e

namespace Yields

variable {R : α → Prop} {S : β → Prop} {E : ε → Prop}

theorem pure {a : α} (h : R a) : Yields R E (Pure.pure a : Except ε α) := h

theorem throw {e : ε} (h : E e) : Yields R E (MonadExcept.throw e : Except ε α) := h

theorem mono {R' : α → Prop} {E' : ε → Prop} {x : Except ε α} (h : Yields R E x)
    (hR : ∀ a, x = .ok a → R a → R' a) (hE : ∀ e, E e → E' e) : Yields R' E' x := by
  cases x with
  | error e => exact hE e h
  | ok a => exact hR a rfl h

theorem bind {x : Except ε α} {f : α → Except ε β} (hx : Yields R E x)
    (hf : ∀ a, x = .ok a → R a → Yields S E (f a)) : Yields S E (x >>= f) := by
  cases x with
  | error e => exact hx
  | ok a => exact hf a rfl hx

theorem guard {c : Prop} [Decidable c] {e : ε} {x : Except ε α} (he : c → E e)
    (hx : ¬ c → Yields R E x) : Yields R E (if c then MonadExcept.throw e else x) := by
  by_cases hc : c
  · rw [if_pos hc]
    exact he hc
  · rw [if_neg hc]
    exact hx hc

theorem mapM {l : List α} {f : α → Except ε β} (h : ∀ a ∈ l, Yields S E (f a)) :
    Yields (fun _ => True) E (l.mapM f) := by
  induction l with
  | nil =>
    rw [List.mapM_nil]
    exact pure trivial
  | cons a l ih =>
    rw [List.forall_mem_cons] at h
    rw [List.mapM_cons]
    exact bind h.1 fun _ _ _ => bind (ih h.2) fun _ _ _ => pure trivial

theorem mapError {E' : ε' → Prop} {f : ε → ε'} {x : Except ε α}
    (hx : Yields R (fun e => E' (f e)) x) : Yields R E' (x.mapError f) := by
  cases x with
  | error e => exact hx
  | ok a => exact hx

theorem not_fails {x : Except ε α} {F : ε → Prop} (h : Yields R E x) (hE : ∀ e, E e → ¬ F e) :
    ¬ Fails F x := by
  rintro ⟨e, rfl, he⟩
  exact hE e h he

end Yields

/-- A sequence fails in its first part or, after its success, in the second. -/
theorem fails_bind {E : ε → Prop} {x : Except ε α} {f : α → Except ε β} :
    Fails E (x >>= f) ↔ Fails E x ∨ ∃ a, x = .ok a ∧ Fails E (f a) := by
  cases x with
  | error e => simp [Fails, error_bind]
  | ok a => simp [Fails, ok_bind]

/-- A guard whose own error is not in question. -/
theorem fails_guard {E : ε → Prop} {c : Prop} [Decidable c] {e : ε} {x : Except ε α}
    (he : ¬ E e) : Fails E (if c then throw e else x) ↔ ¬ c ∧ Fails E x := by
  by_cases hc : c
  · rw [if_pos hc]
    refine ⟨?_, fun h => absurd hc h.1⟩
    rintro ⟨e', h, he'⟩
    exact absurd (Except.error.inj h ▸ he') he
  · rw [if_neg hc, and_iff_right hc]

theorem fails_pure {E : ε → Prop} {a : α} : ¬ Fails E (pure a : Except ε α) := by
  rintro ⟨e, h, -⟩
  cases h

end Shadownet.Foundation
