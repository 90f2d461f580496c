import Mathlib.Data.List.Forall2

/-!
# Computations that may fail

A computation of several steps has a result where each of its steps has one, and the results of a
computation over a list belong to its items one by one.
-/

namespace VersionedObjects

variable {ε α β γ : Type}

/-- A sequence succeeds exactly when both of its steps do. -/
theorem bind_eq_ok_iff {x : Except ε α} {f : α → Except ε β} {b : β} :
    x >>= f = .ok b ↔ ∃ a, x = .ok a ∧ f a = .ok b := by
  cases x <;> simp [bind, Except.bind]

/-- Mapping the result leaves the errors as they are. -/
theorem map_eq_error_iff {x : Except ε α} {f : α → β} {e : ε} :
    x.map f = .error e ↔ x = .error e := by
  cases x <;> simp [Except.map]

/-- The option holds a value exactly when the computation gave it. -/
theorem toOption_eq_some_iff {x : Except ε α} {a : α} : x.toOption = some a ↔ x = .ok a := by
  cases x <;> simp [Except.toOption]

/-- By induction on the items, each of which has a result. -/
theorem mapM_eq_ok_iff {f : α → Except ε β} {items : List α} {results : List β} :
    items.mapM f = .ok results ↔ List.Forall₂ (fun a b => f a = .ok b) items results := by
  induction items generalizing results with
  | nil => simp [pure, Except.pure, eq_comm]
  | cons a rest ih =>
    simp only [List.mapM_cons, bind_eq_ok_iff, ih, List.forall₂_cons_left_iff]
    constructor
    · rintro ⟨b, hb, more, hmore, hresults⟩
      exact ⟨b, more, hb, hmore, (Except.ok.inj hresults).symm⟩
    · rintro ⟨b, more, hb, hmore, rfl⟩
      exact ⟨b, hb, more, hmore, rfl⟩

/-- Of two lists item by item each item of the first has one of the second. -/
theorem exists_mem_of_forall₂ {R : α → β → Prop} {items : List α} {results : List β}
    (h : List.Forall₂ R items results) : ∀ a ∈ items, ∃ b ∈ results, R a b := by
  induction h with
  | nil => exact List.forall_mem_nil _
  | @cons a b _ _ hab _ ih =>
    refine List.forall_mem_cons.mpr ⟨⟨b, List.mem_cons_self, hab⟩, fun a ha => ?_⟩
    obtain ⟨b, hb, hab⟩ := ih a ha
    exact ⟨b, List.mem_cons_of_mem _ hb, hab⟩

/-- What is known of each result is known of all. -/
theorem map_eq_of_mapM {f : α → Except ε β} {observe : β → γ} {expected : α → γ}
    (hf : ∀ a b, f a = .ok b → observe b = expected a) {items : List α} {results : List β}
    (h : items.mapM f = .ok results) : results.map observe = items.map expected := by
  have hall := (mapM_eq_ok_iff.mp h).imp hf
  clear h
  induction hall with
  | nil => rfl
  | cons hb _ ih => rw [List.map_cons, List.map_cons, hb, ih]

/-! ## Computations that have a result -/

/-- The computation has a result. -/
def Succeeds (x : Except ε α) : Prop :=
  ∃ a, x = .ok a

/-- A plain value succeeds. -/
theorem succeeds_ok (a : α) : Succeeds (.ok a : Except ε α) :=
  ⟨a, rfl⟩

/-- A sequence of computations that succeed succeeds. -/
theorem Succeeds.bind {x : Except ε α} {f : α → Except ε β} (hx : Succeeds x)
    (hf : ∀ a, Succeeds (f a)) : Succeeds (x >>= f) := by
  obtain ⟨a, rfl⟩ := hx
  exact hf a

/-- What is computed from a result has a result. -/
theorem Succeeds.map {x : Except ε α} (hx : Succeeds x) (f : α → β) :
    Succeeds (x >>= fun a => .ok (f a)) :=
  hx.bind fun a => succeeds_ok (f a)

/-- A choice between two computations that succeed succeeds. -/
theorem succeeds_ite {c : Prop} [Decidable c] {x y : Except ε α} (hx : Succeeds x)
    (hy : Succeeds y) : Succeeds (if c then x else y) := by
  split
  · exact hx
  · exact hy

/-- By induction on the items. -/
theorem succeeds_mapM {f : α → Except ε β} {items : List α} (h : ∀ a ∈ items, Succeeds (f a)) :
    Succeeds (items.mapM f) := by
  induction items with
  | nil => exact succeeds_ok []
  | cons a rest ih =>
    rw [List.forall_mem_cons] at h
    rw [List.mapM_cons]
    exact h.1.bind fun b => (ih h.2).bind fun more => succeeds_ok (b :: more)

end VersionedObjects
