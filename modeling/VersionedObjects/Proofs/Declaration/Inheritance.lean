import Mathlib.Logic.Relation
import VersionedObjects.Declaration.ClassDecl

/-!
# Inheritance

A class of a module inherits from its superclass, by name and whether or not the module declares
it. Where no class inherits from itself, not even through others, inheritance has no cycles.
-/

namespace VersionedObjects

namespace Declaration.Module

/-- What is found by a name is a class of the module that bears it. -/
theorem mem_of_class? {m : Module} {name : String} {c : ClassDecl} (h : m.class? name = some c) :
    c ∈ m.classes ∧ c.name = name :=
  ⟨List.mem_of_find?_eq_some h, by simpa using List.find?_some h⟩

/-- The module has a class of a name that inherits from another name. -/
def Inherits (m : Module) (name base : String) : Prop :=
  ∃ c ∈ m.classes, c.name = name ∧ ∃ type, c.superclass? = some type ∧ type.name = base

/-- No class inherits from itself, whether directly or through others. -/
def Acyclic (m : Module) : Prop :=
  ∀ name, ¬ Relation.TransGen m.Inherits name name

/-- Inheritance that goes down some scale has no cycles. -/
theorem acyclic_of_rank {m : Module} (rank : String → Nat)
    (h : ∀ c ∈ m.classes, ∀ type ∈ c.superclass?, rank type.name < rank c.name) : m.Acyclic := by
  have hstep {a b : String} (hab : m.Inherits a b) : rank b < rank a := by
    obtain ⟨c, hc, rfl, type, htype, rfl⟩ := hab
    exact h c hc type htype
  have hdown {a b : String} (hab : Relation.TransGen m.Inherits a b) : rank b < rank a := by
    induction hab with
    | single hab => exact hstep hab
    | tail _ hbc ih => exact Nat.lt_trans (hstep hbc) ih
  exact fun name hcycle => Nat.lt_irrefl _ (hdown hcycle)

end Declaration.Module

end VersionedObjects
