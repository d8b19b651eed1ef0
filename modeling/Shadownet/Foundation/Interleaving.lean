import Mathlib.Logic.Function.Basic
import Shadownet.Foundation.Trace

/-!
# Programs that call operations, and their interleavings

A `Prog` is a computation that stops at every call of an operation and goes on with the
answer. A pool of programs shares one state; a run takes one call of one program at a time,
in any order, and the environment may change the state in between (`Run`).

`Run.invariant` is the rule for safety over all interleavings. It asks for an invariant `I`
of the shared state and the trace, and for an assertion `T i` about what thread `i` still
has to do. A step must keep `I`, establish the assertion of the thread that took it, and
leave the assertions of the others alone.
-/

namespace Shadownet.Foundation

/-- A computation that calls operations `o : O` with answers in `A o` and returns an `α`. -/
inductive Prog (O : Type) (A : O → Type) (α : Type) where
  | ret (a : α)
  | call (o : O) (k : A o → Prog O A α)

namespace Prog

variable {O : Type} {A : O → Type} {α β : Type}

/-- One call. -/
def op (o : O) : Prog O A (A o) := .call o .ret

def bind : Prog O A α → (α → Prog O A β) → Prog O A β
  | .ret a, f => f a
  | .call o k, f => .call o fun a => (k a).bind f

instance : Monad (Prog O A) where
  pure := .ret
  bind := Prog.bind

theorem bind_bind {γ : Type} (x : Prog O A α) (f : α → Prog O A β) (g : β → Prog O A γ) :
    (x >>= f) >>= g = x >>= fun a => f a >>= g := by
  induction x with
  | ret a => rfl
  | call o k ih => exact congrArg (Prog.call o) (funext ih)

theorem bind_ret (x : Prog O A α) : x >>= Prog.ret = x := by
  induction x with
  | ret a => rfl
  | call o k ih => exact congrArg (Prog.call o) (funext ih)

instance : LawfulMonad (Prog O A) :=
  LawfulMonad.mk' (Prog O A) (fun x => bind_ret x) (fun _ _ => rfl) bind_bind

@[simp] theorem pure_eq (a : α) : (pure a : Prog O A α) = .ret a := rfl

@[simp] theorem ret_bind (a : α) (f : α → Prog O A β) : (Prog.ret a >>= f) = f a := rfl

@[simp] theorem op_bind (o : O) (f : A o → Prog O A β) : (op o >>= f) = .call o f := rfl

/-- The ways through a program: the calls with their answers, and the result. -/
inductive Path : Prog O A α → List ((o : O) × A o) → α → Prop
  | ret (a : α) : Path (.ret a) [] a
  | call (o : O) (k : A o → Prog O A α) (a : A o) (calls : List ((o : O) × A o)) (r : α)
      (h : Path (k a) calls r) : Path (.call o k) (⟨o, a⟩ :: calls) r

/-- The answers decide the result. -/
theorem Path.unique {p : Prog O A α} {calls : List ((o : O) × A o)} {r r' : α}
    (h : Path p calls r) (h' : Path p calls r') : r = r' := by
  induction h with
  | ret a =>
    cases h'
    rfl
  | call o k a calls r h ih =>
    cases h' with
    | call _ _ _ _ _ h' => exact ih h'

/-- When every operation has an answer, there is a way through. -/
theorem exists_path (hA : ∀ o, Nonempty (A o)) (p : Prog O A α) : ∃ calls r, Path p calls r := by
  induction p with
  | ret a => exact ⟨[], a, .ret a⟩
  | call o k ih =>
    obtain ⟨a⟩ := hA o
    obtain ⟨calls, r, h⟩ := ih a
    exact ⟨⟨o, a⟩ :: calls, r, .call o k a calls r h⟩

end Prog

/-- A call of thread `thread` with its answer. -/
structure Event (ι O : Type) (A : O → Type) where
  thread : ι
  op : O
  ans : A op

section
variable {ι O σ α : Type} {A : O → Type} [DecidableEq ι]

/-- The runs of a pool: the trace of the calls, the state and what is left of each program.
`handle s o a s'` says that `o` called in `s` may answer `a` and leave `s'`. -/
inductive Run (handle : σ → (o : O) → A o → σ → Prop) (env : σ → σ → Prop) (s₀ : σ)
    (pool₀ : ι → Prog O A α) : List (Event ι O A) → σ → (ι → Prog O A α) → Prop
  | start : Run handle env s₀ pool₀ [] s₀ pool₀
  | env {tr : List (Event ι O A)} {s s' : σ} {pool : ι → Prog O A α}
      (hr : Run handle env s₀ pool₀ tr s pool) (he : env s s') :
      Run handle env s₀ pool₀ tr s' pool
  | step {tr : List (Event ι O A)} {s s' : σ} {pool : ι → Prog O A α} {i : ι} {o : O}
      {k : A o → Prog O A α} {a : A o} (hr : Run handle env s₀ pool₀ tr s pool)
      (hc : pool i = .call o k) (hs : handle s o a s') :
      Run handle env s₀ pool₀ (tr ++ [⟨i, o, a⟩]) s' (Function.update pool i (k a))

variable {handle : σ → (o : O) → A o → σ → Prop} {env : σ → σ → Prop} {s₀ : σ}
  {pool₀ : ι → Prog O A α}

/-- Safety over all interleavings whose calls are admitted by `G`. -/
theorem Run.invariant {G : List (Event ι O A) → Event ι O A → Prop}
    {I : List (Event ι O A) → σ → Prop}
    {T : ι → List (Event ι O A) → σ → Prog O A α → Prop}
    (h0 : I [] s₀) (hT0 : ∀ i, T i [] s₀ (pool₀ i))
    (henv : ∀ tr s s', I tr s → env s s' → I tr s' ∧ ∀ i p, T i tr s p → T i tr s' p)
    (hstep : ∀ tr s s' i o k a, I tr s → G tr ⟨i, o, a⟩ → T i tr s (.call o k) →
      handle s o a s' → I (tr ++ [⟨i, o, a⟩]) s' ∧ T i (tr ++ [⟨i, o, a⟩]) s' (k a) ∧
        ∀ j p, j ≠ i → T j tr s p → T j (tr ++ [⟨i, o, a⟩]) s' p)
    {tr : List (Event ι O A)} {s : σ} {pool : ι → Prog O A α}
    (hr : Run handle env s₀ pool₀ tr s pool) (hG : Admits G tr) :
    I tr s ∧ ∀ i, T i tr s (pool i) := by
  induction hr with
  | start => exact ⟨h0, hT0⟩
  | env hr he ih =>
    obtain ⟨hI, hT⟩ := ih hG
    obtain ⟨hI', hT'⟩ := henv _ _ _ hI he
    exact ⟨hI', fun i => hT' i _ (hT i)⟩
  | @step tr s s' pool i o k a hr hc hs ih =>
    obtain ⟨hI, hT⟩ := ih hG.prefix
    have hTi : T i tr s (.call o k) := hc ▸ hT i
    obtain ⟨hI', hTi', hTj⟩ := hstep tr s s' i o k a hI hG.last hTi hs
    refine ⟨hI', fun j => ?_⟩
    by_cases hj : j = i
    · subst hj
      rw [Function.update_self]
      exact hTi'
    · rw [Function.update_of_ne hj]
      exact hTj j _ hj (hT j)

/-- A relation between the states of a run, from one for each call and each move of the
environment. -/
theorem Run.relates {R : σ → σ → Prop} (hrefl : ∀ s, R s s)
    (htrans : ∀ {a b c}, R a b → R b c → R a c) (henv : ∀ s s', env s s' → R s s')
    (hstep : ∀ s o a s', handle s o a s' → R s s')
    {tr : List (Event ι O A)} {s : σ} {pool : ι → Prog O A α}
    (hr : Run handle env s₀ pool₀ tr s pool) : R s₀ s := by
  induction hr with
  | start => exact hrefl _
  | env hr he ih => exact htrans ih (henv _ _ he)
  | step hr hc hs ih => exact htrans ih (hstep _ _ _ _ hs)

/-- A run whose calls meet a condition is a run. -/
theorem Run.mono {handle' : σ → (o : O) → A o → σ → Prop}
    (h : ∀ s o a s', handle s o a s' → handle' s o a s') {tr : List (Event ι O A)} {s : σ}
    {pool : ι → Prog O A α} (hr : Run handle env s₀ pool₀ tr s pool) :
    Run handle' env s₀ pool₀ tr s pool := by
  induction hr with
  | start => exact .start
  | env hr he ih => exact ih.env he
  | step hr hc hs ih => exact ih.step hc (h _ _ _ _ hs)

/-- A stretch of one program's own calls. -/
inductive Follows (handle : σ → (o : O) → A o → σ → Prop) :
    σ → Prog O A α → List ((o : O) × A o) → σ → Prog O A α → Prop
  | stop (s : σ) (p : Prog O A α) : Follows handle s p [] s p
  | call {s s₁ s' : σ} {o : O} {a : A o} {k : A o → Prog O A α} {p' : Prog O A α}
      {calls : List ((o : O) × A o)} (hs : handle s o a s₁)
      (h : Follows handle s₁ (k a) calls s' p') :
      Follows handle s (.call o k) (⟨o, a⟩ :: calls) s' p'

/-- A thread may take a stretch of calls in one go. -/
theorem Run.follow {tr : List (Event ι O A)} {s s' : σ} {pool : ι → Prog O A α} {i : ι}
    {p p' : Prog O A α} {calls : List ((o : O) × A o)}
    (hr : Run handle env s₀ pool₀ tr s pool) (hp : pool i = p)
    (hf : Follows handle s p calls s' p') :
    Run handle env s₀ pool₀ (tr ++ calls.map fun c => ⟨i, c.1, c.2⟩) s'
      (Function.update pool i p') := by
  induction hf generalizing tr pool with
  | stop s p =>
    rw [← hp, Function.update_eq_self, List.map_nil, List.append_nil]
    exact hr
  | call hs h ih =>
    have h1 := ih (hr.step hp hs) (Function.update_self ..)
    rw [Function.update_idem, List.append_assoc] at h1
    exact h1

/-- The calls of one thread. -/
def callsOf (i : ι) (tr : List (Event ι O A)) : List ((o : O) × A o) :=
  tr.filterMap fun e => if e.thread = i then some ⟨e.op, e.ans⟩ else none

theorem callsOf_append (i : ι) (tr tr' : List (Event ι O A)) :
    callsOf i (tr ++ tr') = callsOf i tr ++ callsOf i tr' := by
  simp [callsOf]

theorem mem_callsOf {i : ι} {tr : List (Event ι O A)} {o : O} {a : A o} :
    ⟨o, a⟩ ∈ callsOf i tr ↔ ⟨i, o, a⟩ ∈ tr := by
  simp only [callsOf, List.mem_filterMap, Option.ite_none_right_eq_some, Option.some.injEq,
    Sigma.mk.injEq]
  constructor
  · rintro ⟨⟨j, o', a'⟩, hm, rfl, rfl, ha⟩
    cases ha
    exact hm
  · intro hm
    exact ⟨_, hm, rfl, rfl, HEq.rfl⟩

/-- What a thread has called so far and a way through what is left of it are a way through
the program it started with. -/
theorem Run.path {tr : List (Event ι O A)} {s : σ} {pool : ι → Prog O A α} {i : ι}
    {rest : List ((o : O) × A o)} {r : α} (hr : Run handle env s₀ pool₀ tr s pool)
    (hp : Prog.Path (pool i) rest r) : Prog.Path (pool₀ i) (callsOf i tr ++ rest) r := by
  induction hr generalizing rest with
  | start => exact hp
  | env hr he ih => exact ih hp
  | @step tr s s' pool j o k a hr hc hs ih =>
    rw [callsOf_append, List.append_assoc]
    by_cases hj : i = j
    · subst hj
      rw [Function.update_self] at hp
      have hcall : Prog.Path (pool i) (⟨o, a⟩ :: rest) r := by
        rw [hc]
        exact .call o k a rest r hp
      simpa [callsOf] using ih hcall
    · rw [Function.update_of_ne hj] at hp
      simpa [callsOf, Ne.symm hj] using ih hp

/-- The same at a call the thread is about to make. -/
theorem Run.path_call {tr : List (Event ι O A)} {s : σ} {pool : ι → Prog O A α} {i : ι} {o : O}
    {k : A o → Prog O A α} {a : A o} {rest : List ((o : O) × A o)} {r : α}
    (hr : Run handle env s₀ pool₀ tr s pool) (hc : pool i = .call o k)
    (hp : Prog.Path (k a) rest r) : Prog.Path (pool₀ i) (callsOf i tr ++ ⟨o, a⟩ :: rest) r := by
  refine hr.path ?_
  rw [hc]
  exact .call o k a rest r hp

end

end Shadownet.Foundation
