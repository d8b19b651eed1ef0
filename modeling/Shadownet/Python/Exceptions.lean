import Shadownet.Foundation.Canonical
import Shadownet.Foundation.Outcome

/-!
# Python exceptions

The exception classes the SDK raises or catches, with their base classes. `reraise` is the
idiom `except C as exc: raise D(...) from exc`, the only way the modelled code handles an
exception: a success passes through it, and so does an exception of another class.
-/

namespace Shadownet.Python

open Foundation

inductive ExcClass where
  | typeError | keyError | attributeError | recursionError | osError | eofError | zlibError
  | valueError | binasciiError | unicodeEncodeError | validationError | jcsError
  | jsonDecodeError | unicodeDecodeError
  | shadownetError | invalidIdentifierError | multibaseDecodeError | cryptoSignatureError
  | pyJwtError | providerResolutionError
  | jwtError | envelopeError | credentialError | agentCardError | agentCardSignatureError
  | csrError | statusListError | shadownetWireError | parseError | signatureError |
    credsRequiredError
  | credsRejectedError | policyError | replayError | unknownRecipientError
  | rateLimitedError
  | overflowError | badGzipFile | httpError | invalidUrl
  | shadowAddressError | connectURIError | tlsPinMismatchError
  | transportError | transportRetryExhausted
  | shadownetX402Error | gateError | popError | paymentReplayError | budgetError
  | amountMismatchError | settlementError
  | other
  deriving DecidableEq, Repr

/-- The base classes of a class, itself and `Exception` left out. -/
def ExcClass.bases : ExcClass → List ExcClass
  | .binasciiError | .unicodeEncodeError | .validationError | .jcsError | .jsonDecodeError
  | .unicodeDecodeError => [.valueError]
  | .invalidIdentifierError | .multibaseDecodeError | .cryptoSignatureError | .envelopeError
  | .credentialError | .agentCardError | .csrError | .statusListError | .shadownetWireError
  | .providerResolutionError | .shadowAddressError | .connectURIError | .tlsPinMismatchError
  | .transportError | .transportRetryExhausted => [.shadownetError]
  | .badGzipFile => [.osError]
  | .jwtError => [.cryptoSignatureError, .shadownetError]
  | .agentCardSignatureError => [.agentCardError, .shadownetError]
  | .parseError | .signatureError | .credsRequiredError | .credsRejectedError | .policyError
  | .replayError | .unknownRecipientError | .rateLimitedError =>
    [.shadownetWireError, .shadownetError]
  | .shadownetX402Error => [.shadownetError]
  | .gateError | .paymentReplayError | .budgetError | .amountMismatchError | .settlementError =>
    [.shadownetX402Error, .shadownetError]
  | .popError => [.gateError, .shadownetX402Error, .shadownetError]
  | _ => []

/-- `issubclass(c, d)`. -/
def ExcClass.isA (c d : ExcClass) : Bool := c == d || c.bases.contains d

/-- A raised exception: its class and `str(exc)`. -/
structure Exc where
  cls : ExcClass
  msg : Text
  deriving DecidableEq, Repr

/-- What a Python function does: it returns a value or raises. -/
abbrev Py (α : Type) := Except Exc α

/-- `except (cs…) as exc: raise f(exc) from exc`. -/
def reraise {α : Type} (cs : List ExcClass) (f : Exc → Exc) : Py α → Py α
  | .ok a => .ok a
  | .error e => .error (if cs.any e.cls.isA then f e else e)

@[simp] theorem reraise_eq_ok {α : Type} {cs : List ExcClass} {f : Exc → Exc} {x : Py α}
    {a : α} : reraise cs f x = .ok a ↔ x = .ok a := by
  cases x with
  | error e => simp [reraise]
  | ok b => simp [reraise]

/-- Every exception of `x` has the class `c`. -/
def Raises {α : Type} (c : ExcClass) (x : Py α) : Prop := ∀ e, x = .error e → e.cls = c

namespace Raises

variable {α β : Type} {c : ExcClass}

theorem pure (a : α) : Raises c (Pure.pure a : Py α) := nofun

theorem throw (msg : Text) : Raises c (MonadExcept.throw (⟨c, msg⟩ : Exc) : Py α) := by
  intro e h
  rw [← Except.error.inj h]

theorem bind {x : Py α} {f : α → Py β} (hx : Raises c x) (hf : ∀ a, Raises c (f a)) :
    Raises c (x >>= f) := by
  cases x with
  | error e =>
    intro e' h
    rw [← Except.error.inj h]
    exact hx e rfl
  | ok a => exact hf a

theorem ite {p : Prop} [Decidable p] {x y : Py α} (hx : Raises c x) (hy : Raises c y) :
    Raises c (if p then x else y) := by
  split_ifs
  · exact hx
  · exact hy

/-- An exception that is caught becomes another one. -/
theorem reraise {cs : List ExcClass} {f : Exc → Exc} {x : Py α} {d : ExcClass}
    (hx : Raises d x) (hd : cs.any d.isA = true) (hf : ∀ e, (f e).cls = c) :
    Raises c (reraise cs f x) := by
  cases x with
  | ok a => nofun
  | error e =>
    intro e' h
    rw [← Except.error.inj h, hx e rfl, if_pos hd]
    exact hf e

theorem forM {l : List α} {f : α → Py Unit} (h : ∀ a ∈ l, Raises c (f a)) :
    Raises c (l.forM f) := by
  induction l with
  | nil => nofun
  | cons a l ih =>
    rw [List.forall_mem_cons] at h
    exact bind h.1 fun _ => ih h.2

theorem mapM {l : List α} {f : α → Py β} (h : ∀ a ∈ l, Raises c (f a)) :
    Raises c (l.mapM f) := by
  induction l with
  | nil =>
    rw [List.mapM_nil]
    exact pure []
  | cons a l ih =>
    rw [List.forall_mem_cons] at h
    rw [List.mapM_cons]
    exact bind h.1 fun _ => bind (ih h.2) fun _ => pure _

end Raises

section
variable {α β : Type} {c : ExcClass}

theorem raises_bind_iff {x : Py α} {f : α → Py β} (hx : Raises c x) :
    Raises c (x >>= f) ↔ ∀ a, x = .ok a → Raises c (f a) := by
  cases x with
  | error e =>
    refine iff_of_true (fun e' h => hx e' ?_) nofun
    rw [error_bind] at h
    rw [Except.error.inj h]
  | ok a =>
    refine ⟨?_, fun h => h a rfl⟩
    rintro h b ⟨⟩
    exact h

theorem raises_guard_iff {error : Text → Exc} (he : ∀ m, (error m).cls = c) {p : Prop}
    [Decidable p] {msg : Text} {x : Py α} :
    Raises c (if p then throw (error msg) else x) ↔ (¬ p → Raises c x) := by
  by_cases h : p
  · rw [if_pos h]
    refine iff_of_true (fun e' h' => ?_) fun hn => absurd h hn
    rw [← Except.error.inj h']
    exact he msg
  · rw [if_neg h]
    exact ⟨fun hx _ => hx, fun hx => hx h⟩

/-- A step that raises another class, or nothing. -/
theorem raises_bind_iff_of_step {x : Py α} {f : α → Py β} {p : Prop}
    (hok : p → ∃ a, x = .ok a) (herror : ¬ p → ∃ e, x = .error e ∧ e.cls ≠ c)
    (hf : ∀ a, Raises c (f a)) : Raises c (x >>= f) ↔ p := by
  by_cases hp : p
  · obtain ⟨a, rfl⟩ := hok hp
    exact iff_of_true (hf a) hp
  · obtain ⟨e, rfl, he⟩ := herror hp
    exact iff_of_false (fun hr => he (hr e rfl)) hp

theorem raises_reraise_all {cs : List ExcClass} {f : Exc → Exc} {x : Py α}
    (hx : ∀ e, x = .error e → cs.any e.cls.isA = true) (hf : ∀ e, (f e).cls = c) :
    Raises c (reraise cs f x) := by
  cases x with
  | ok a => nofun
  | error e =>
    intro e' h
    rw [← Except.error.inj h, if_pos (hx e rfl)]
    exact hf e

end

/-- The decimal digits of an integer in a formatted text. -/
def decimal (n : Int) : Text := intText n

end Shadownet.Python
