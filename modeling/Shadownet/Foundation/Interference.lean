import Shadownet.Foundation.Trace

/-!
# Runs as one observer sees them

An observer owns some of the events of a machine. The other events do not interfere with the
observer when its events are answered as if they were the only ones: `history_purge` reduces this
to one step, and `history_observed` compares two runs with the same events of the observer.
-/

namespace Shadownet.Foundation

variable {σ ε ω : Type*}

/-- The events of the observer, with their answers. -/
def observed (mine : ε → Bool) (h : List (ε × ω)) : List (ε × ω) := h.filter fun x => mine x.1

theorem observed_singleton (mine : ε → Bool) (e : ε) (a : ω) :
    observed mine [(e, a)] = if mine e then [(e, a)] else [] :=
  List.filter_cons

theorem observed_append (mine : ε → Bool) (h h' : List (ε × ω)) :
    observed mine (h ++ h') = observed mine h ++ observed mine h' := List.filter_append ..

section
variable {step : σ → ε → σ × ω} {mine : ε → Bool} {G : List ε → ε → Prop}
  {P : List ε → σ → σ → Prop} {s : σ}

/-- A relation between the state of a run and the state of the observer's events alone, that
events of others keep on one side and that events of the observer keep on both with the same
answer: then the observer sees its own run. -/
theorem history_purge (h0 : P [] s s)
    (hother : ∀ pre e, mine e = false → G pre e →
      P pre (final step s pre) (final step s (pre.filter mine)) →
      P (pre ++ [e]) (step (final step s pre) e).1 (final step s (pre.filter mine)))
    (hmine : ∀ pre e, mine e = true → G pre e →
      P pre (final step s pre) (final step s (pre.filter mine)) →
      (step (final step s pre) e).2 = (step (final step s (pre.filter mine)) e).2 ∧
        P (pre ++ [e]) (step (final step s pre) e).1
          (step (final step s (pre.filter mine)) e).1)
    {es : List ε} (hes : Admits G es) :
    observed mine (history step s es) = history step s (es.filter mine) ∧
      P es (final step s es) (final step s (es.filter mine)) := by
  induction es using List.reverseRecOn with
  | nil => exact ⟨rfl, h0⟩
  | append_singleton es e ih =>
    obtain ⟨hseen, hP⟩ := ih hes.prefix
    rw [history_concat, observed_append, hseen, observed_singleton, final_concat,
      List.filter_append, List.filter_cons, List.filter_nil]
    cases he : mine e with
    | false =>
      rw [if_neg (by simp), if_neg (by simp), List.append_nil, List.append_nil]
      exact ⟨rfl, hother es e he hes.last hP⟩
    | true =>
      obtain ⟨hanswer, hnext⟩ := hmine es e he hes.last hP
      rw [if_pos rfl, if_pos rfl, history_concat, final_concat, hanswer]
      exact ⟨rfl, hnext⟩

end

/-- Two runs with the same events of the observer, each seen as these events alone. -/
theorem history_observed {step : σ → ε → σ × ω} {mine : ε → Bool} {s : σ} {es fs : List ε}
    (hes : observed mine (history step s es) = history step s (es.filter mine))
    (hfs : observed mine (history step s fs) = history step s (fs.filter mine))
    (h : es.filter mine = fs.filter mine) :
    observed mine (history step s es) = observed mine (history step s fs) := by
  rw [hes, hfs, h]

end Shadownet.Foundation
