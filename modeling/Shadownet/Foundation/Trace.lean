import Mathlib.Data.List.Induction

/-!
# Runs of a deterministic machine and their histories

A machine is a function `step : σ → ε → σ × ω`: in a state it receives an event, moves to
the next state and answers. A run is the list of its events. `final` is the state a run
ends in and `history` the list of its events, each with the answer it got.

`history_induction` carries the invariants over runs: a property of the state together with the
history, kept by each step, holds at the end of each run. A step may also use what the history
says about the next event (`Admits`, for instance that a clock does not go back).
-/

namespace Shadownet.Foundation

variable {σ ε ω : Type*}

/-- The state in which the run `es` from `s` ends. -/
def final (step : σ → ε → σ × ω) (s : σ) (es : List ε) : σ :=
  es.foldl (fun s e => (step s e).1) s

/-- The events of the run `es` from `s`, each with its answer. -/
def history (step : σ → ε → σ × ω) : σ → List ε → List (ε × ω)
  | _, [] => []
  | s, e :: es => (e, (step s e).2) :: history step (step s e).1 es

section
variable (step : σ → ε → σ × ω)

@[simp] theorem final_nil (s : σ) : final step s [] = s := rfl

@[simp] theorem final_cons (s : σ) (e : ε) (es : List ε) :
    final step s (e :: es) = final step (step s e).1 es := rfl

theorem final_append (s : σ) (es fs : List ε) :
    final step s (es ++ fs) = final step (final step s es) fs := by
  simp [final, List.foldl_append]

theorem final_concat (s : σ) (es : List ε) (e : ε) :
    final step s (es ++ [e]) = (step (final step s es) e).1 := by
  simp [final, List.foldl_append]

theorem history_append (s : σ) (es fs : List ε) :
    history step s (es ++ fs) = history step s es ++ history step (final step s es) fs := by
  induction es generalizing s with
  | nil => rfl
  | cons e es ih => simp [history, ih]

theorem history_concat (s : σ) (es : List ε) (e : ε) :
    history step s (es ++ [e]) =
      history step s es ++ [(e, (step (final step s es) e).2)] := by
  rw [history_append]
  rfl

theorem history_events (s : σ) (es : List ε) : (history step s es).map Prod.fst = es := by
  induction es generalizing s with
  | nil => rfl
  | cons e es ih => simp [history, ih]

theorem mem_of_mem_history {s : σ} {es : List ε} {x : ε × ω}
    (hx : x ∈ history step s es) : x.1 ∈ es := by
  rw [← history_events step s es]
  exact List.mem_map_of_mem hx

/-- An answer in a history is that of the state its event met. -/
theorem exists_of_mem_history {s : σ} {es : List ε} {e : ε} {out : ω}
    (h : (e, out) ∈ history step s es) :
    ∃ pre post, es = pre ++ e :: post ∧ out = (step (final step s pre) e).2 := by
  induction es generalizing s with
  | nil => cases h
  | cons d es ih =>
    rcases List.mem_cons.mp h with h | h
    · obtain ⟨rfl, rfl⟩ := Prod.mk.inj h
      exact ⟨[], es, rfl, rfl⟩
    · obtain ⟨pre, post, rfl, rfl⟩ := ih h
      exact ⟨d :: pre, post, rfl, rfl⟩

/-- A history up to one of its entries is the history of the run up to that event. -/
theorem history_eq_append_cons {s : σ} {es : List ε} {before after : List (ε × ω)} {x : ε × ω}
    (h : history step s es = before ++ x :: after) :
    ∃ pre e post, es = pre ++ e :: post ∧ before = history step s pre ∧
      x = (e, (step (final step s pre) e).2) := by
  induction before generalizing s es with
  | nil =>
    cases es with
    | nil => cases h
    | cons e es => exact ⟨[], e, es, rfl, rfl, (List.cons.inj h).1.symm⟩
  | cons y before ih =>
    cases es with
    | nil => cases h
    | cons e es =>
      obtain ⟨rfl, hrest⟩ := List.cons.inj h
      obtain ⟨pre, d, post, rfl, rfl, rfl⟩ := ih hrest
      exact ⟨e :: pre, d, post, rfl, rfl, rfl⟩

end

/-- Every event of the run is admitted by what came before it. -/
def Admits (G : List ε → ε → Prop) (es : List ε) : Prop :=
  ∀ pre e post, es = pre ++ e :: post → G pre e

theorem Admits.prefix {G : List ε → ε → Prop} {es fs : List ε} (h : Admits G (es ++ fs)) :
    Admits G es := by
  rintro pre e post rfl
  exact h pre e (post ++ fs) (by simp)

theorem Admits.last {G : List ε → ε → Prop} {es : List ε} {e : ε}
    (h : Admits G (es ++ [e])) : G es e := h es e [] rfl

theorem Admits.concat {G : List ε → ε → Prop} {es : List ε} {e : ε} (h : Admits G es)
    (he : G es e) : Admits G (es ++ [e]) := by
  intro pre d post heq
  rcases List.eq_nil_or_concat post with rfl | ⟨post, f, rfl⟩
  · obtain ⟨rfl, hd⟩ := List.append_inj' heq rfl
    rw [← List.head_eq_of_cons_eq hd]
    exact he
  · have heq' : es ++ [e] = (pre ++ d :: post) ++ [f] := by
      rw [heq, List.concat_eq_append]
      simp
    exact h pre d post (List.append_inj_left' heq' rfl)

/-- A condition on single events. -/
theorem admits_of_forall {p : ε → Prop} {es : List ε} (h : ∀ e ∈ es, p e) :
    Admits (fun _ e => p e) es := by
  rintro pre e post rfl
  exact h e (by simp)

/-- A condition on each pair of an earlier and a later event. -/
theorem admits_of_pairwise {r : ε → ε → Prop} {es : List ε} (h : es.Pairwise r) :
    Admits (fun pre e => ∀ d ∈ pre, r d e) es := by
  rintro pre e post rfl d hd
  exact (List.pairwise_append.mp h).2.2 d hd e (by simp)

theorem Admits.and {G H : List ε → ε → Prop} {es : List ε} (hG : Admits G es)
    (hH : Admits H es) : Admits (fun pre e => G pre e ∧ H pre e) es :=
  fun pre e post h => ⟨hG pre e post h, hH pre e post h⟩

/-- Invariants of states and histories: what each admitted step keeps, a whole run keeps. -/
theorem history_induction {step : σ → ε → σ × ω} {P : σ → List (ε × ω) → Prop}
    {G : List ε → ε → Prop} {s : σ} (h0 : P s [])
    (hstep : ∀ s h e, P s h → G (h.map Prod.fst) e →
      P (step s e).1 (h ++ [(e, (step s e).2)]))
    {es : List ε} (hes : Admits G es) : P (final step s es) (history step s es) := by
  induction es using List.reverseRecOn with
  | nil => exact h0
  | append_singleton es e ih =>
    rw [final_concat, history_concat]
    refine hstep _ _ e (ih hes.prefix) ?_
    rw [history_events]
    exact hes.last

/-- A relation between the states before and after a run, from one between the states
before and after each step. -/
theorem final_relates {step : σ → ε → σ × ω} {R : σ → σ → Prop} (hrefl : ∀ s, R s s)
    (htrans : ∀ {a b c}, R a b → R b c → R a c) {P : σ → Prop}
    {s : σ} (h0 : P s) {es : List ε}
    (hstep : ∀ s e, e ∈ es → P s → P (step s e).1 ∧ R s (step s e).1) :
    R s (final step s es) := by
  induction es generalizing s with
  | nil => exact hrefl s
  | cons e es ih =>
    obtain ⟨hP, hR⟩ := hstep s e (by simp) h0
    exact htrans hR (ih hP (fun s e' he' => hstep s e' (by simp [he'])))

end Shadownet.Foundation
