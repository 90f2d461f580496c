import VersionedObjects.Dynamic.Operations

/-!
# Operations that go alike

Two operations on two runtimes go alike when, from runtimes in a relation, both succeed with
related values, or both fail, or both nest too deep, and in every case the runtimes are in the
relation again. Operations put together from such operations go alike too.
-/

namespace VersionedObjects.Dynamic

/-- Two failures of the same kind. To misuse the store is like nothing else. -/
inductive Failure.Same : Failure → Failure → Prop where
  | eval (e e' : EvalError) : Same (.eval e) (.eval e')
  | exhausted : Same .exhausted .exhausted

/-- The results agree: related values or failures of the same kind, and related runtimes. -/
inductive Matches {α β : Type} (R : Runtime → Runtime → Prop) (Q : α → β → Prop) :
    EStateM.Result Failure Runtime α → EStateM.Result Failure Runtime β → Prop where
  | ok {a b r s} (value : Q a b) (runtimes : R r s) : Matches R Q (.ok a r) (.ok b s)
  | error {e e' r s} (failures : e.Same e') (runtimes : R r s) :
      Matches R Q (.error e r) (.error e' s)

/-- From related runtimes the operations give matching results. -/
def Alike {α β : Type} (R : Runtime → Runtime → Prop) (Q : α → β → Prop) (x : EvalM α)
    (y : EvalM β) : Prop :=
  ∀ r s, R r s → Matches R Q (x r) (y s)

variable {α β γ δ : Type} {R : Runtime → Runtime → Prop} {P : α → β → Prop} {Q : γ → δ → Prop}

/-! ## Composition -/

/-- What follows an operation that succeeded. -/
theorem bind_of_ok {ε σ : Type} {x : EStateM ε σ α} {k : α → EStateM ε σ γ} {r r' : σ} {a : α}
    (h : x r = .ok a r') : (x >>= k) r = k a r' := by
  change EStateM.bind x k r = k a r'
  rw [EStateM.bind, h]

/-- A sequence fails where its first part does. -/
theorem bind_of_error {ε σ : Type} {x : EStateM ε σ α} {k : α → EStateM ε σ γ} {r r' : σ} {e : ε}
    (h : x r = .error e r') : (x >>= k) r = .error e r' := by
  change EStateM.bind x k r = .error e r'
  rw [EStateM.bind, h]

/-- Sequences match if their first parts do, and then all that may come next. -/
theorem Matches.bind {x : EvalM α} {y : EvalM β} {k : α → EvalM γ} {l : β → EvalM δ}
    {r s : Runtime} (h : Matches R P (x r) (y s))
    (hk : ∀ a b r' s', P a b → R r' s' → Matches R Q (k a r') (l b s')) :
    Matches R Q ((x >>= k) r) ((y >>= l) s) := by
  cases hx : x r with
  | ok a r' =>
    cases hy : y s with
    | ok b s' =>
      rw [hx, hy] at h
      obtain ⟨hvalue, hruntimes⟩ := h
      rw [bind_of_ok hx, bind_of_ok hy]
      exact hk a b r' s' hvalue hruntimes
    | error e' s' => rw [hx, hy] at h; cases h
  | error e r' =>
    cases hy : y s with
    | ok b s' => rw [hx, hy] at h; cases h
    | error e' s' =>
      rw [hx, hy] at h
      obtain ⟨⟩ | ⟨hfailures, hruntimes⟩ := h
      rw [bind_of_error hx, bind_of_error hy]
      exact .error hfailures hruntimes

/-- Sequences are alike if their first parts are, and then all that may come next. -/
theorem Alike.bind {x : EvalM α} {y : EvalM β} {k : α → EvalM γ} {l : β → EvalM δ}
    (h : Alike R P x y) (hk : ∀ a b, P a b → Alike R Q (k a) (l b)) :
    Alike R Q (x >>= k) (y >>= l) :=
  fun r s hrs => (h r s hrs).bind fun a b r' s' hab => hk a b hab r' s'

/-- Where the values are the same, what follows goes alike for each. -/
theorem Alike.bind_eq {x y : EvalM α} {k : α → EvalM γ} {l : α → EvalM δ} (h : Alike R Eq x y)
    (hk : ∀ a, Alike R Q (k a) (l a)) : Alike R Q (x >>= k) (y >>= l) :=
  h.bind fun a _ hab => hab ▸ hk a

/-- To give related values is alike. -/
theorem alike_pure {a : α} {b : β} (h : P a b) : Alike R P (pure a) (pure b) :=
  fun _ _ hrs => .ok h hrs

/-- Evaluation errors need not be the same. -/
theorem alike_fail (e e' : EvalError) : Alike R P (fail e) (fail e') :=
  fun _ _ hrs => .error (.eval _ _) hrs

/-- To nest too deep is alike. -/
theorem alike_exhausted :
    Alike R P (throwThe Failure .exhausted) (throwThe Failure .exhausted) :=
  fun _ _ hrs => .error .exhausted hrs

/-- The same result is given or reported alike. -/
theorem alike_orFail {x : Except EvalError α} : Alike R Eq (orFail x) (orFail x) := by
  cases x with
  | ok a => exact alike_pure rfl
  | error e => exact alike_fail e e

end VersionedObjects.Dynamic
