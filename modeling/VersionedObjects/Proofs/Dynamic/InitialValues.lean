import VersionedObjects.Dynamic.Construction
import VersionedObjects.Proofs.Associations
import VersionedObjects.Proofs.Dynamic.Counterpart

/-!
# Initial values

What an instance stores when it is made: the initial values of those properties that no record
holds. A plain class stores, beside what its counterpart stores, the initial values of the framed
properties.
-/

namespace VersionedObjects.Dynamic

open Declaration Framing

/-- The properties that a class stores outside of records. -/
def storedProperties (c : LoadedClass) : List Property :=
  c.decl.properties.filter fun p => (c.slot? p.name).isNone && p.hasBackingField

/-- The initial values of properties by name. -/
def initialValues (ps : List Property) : Association Value :=
  ps.map fun p => (p.name, initialValue p)

/-- A name has the initial value of the first property with this name. -/
theorem get?_initialValues (ps : List Property) (name : String) :
    (initialValues ps).get? name = (ps.find? (·.name == name)).map initialValue := by
  rw [initialValues, Association.get?, List.find?_map, Option.map_map]
  rfl

/-- By induction on the properties, each of which gives its initial value. -/
theorem mapM_eq_initialValues {f : Property → Except EvalError (String × Value)}
    {ps : List Property} (h : ∀ p ∈ ps, f p = .ok (p.name, initialValue p)) :
    ps.mapM f = .ok (initialValues ps) := by
  induction ps with
  | nil => rfl
  | cons p rest ih =>
    rw [List.forall_mem_cons] at h
    rw [List.mapM_cons, h.1, ih h.2]
    rfl

/-- A class without plain fields, with different names for its stored properties and constants for
their initializers, stores their initial values. -/
theorem storedValues_eq {c : LoadedClass} (hhidden : ∀ field ∈ c.decl.fields, field.isHidden = true)
    (hnodup : ((storedProperties c).map (·.name)).Nodup)
    (hconstant : ∀ p ∈ storedProperties c, ∀ e ∈ p.initializer, isConstant e = true)
    (locals : Association Value) :
    storedValues c locals = .ok (initialValues (storedProperties c)) := by
  have hplain : c.decl.fields.filter (!·.isHidden) = [] := by
    rw [List.filter_eq_nil_iff]
    intro field hfield
    simp [hhidden field hfield]
  have hpairs : Association.ofPairs (initialValues (storedProperties c)) =
      initialValues (storedProperties c) := by
    apply Association.ofPairs_eq_self
    rw [initialValues, List.map_map]
    exact hnodup
  unfold storedValues
  dsimp only
  rw [hplain, ← storedProperties, mapM_eq_initialValues]
  · exact congrArg Except.ok hpairs
  · intro p hp
    cases hinitializer : p.initializer with
    | none => simp [initialValue, hinitializer, pure, Except.pure]
    | some e =>
      have he := constant_eq locals e (hconstant p hp e hinitializer)
      simp [initialValue, hinitializer, he, bind, Except.bind, pure, Except.pure]

namespace Counterpart

variable {c plain : LoadedClass} {recordType : TypeExpr} {ps : List Property}

/-- A class stores those of the plain class's properties that have no slot. -/
theorem storedProperties_eq (h : Counterpart c plain recordType ps) :
    storedProperties c = plain.decl.properties.filter fun p =>
      (c.slot? p.name).isNone && p.hasBackingField := by
  rw [storedProperties, h.properties, List.filter_map]
  have hkept : ∀ p ∈ plain.decl.properties.filter
      ((fun p => (c.slot? p.name).isNone && p.hasBackingField) ∘ hostProperty recordType ps),
      hostProperty recordType ps p = id p := by
    intro p hp
    obtain ⟨-, hstored⟩ := List.mem_filter.mp hp
    simp only [Function.comp_apply, hostProperty_name, Bool.and_eq_true,
      Option.isNone_iff_eq_none] at hstored
    exact h.hostProperty_of_slot?_none hstored.1
  rw [List.map_congr_left hkept, List.map_id]
  refine List.filter_congr fun p _ => ?_
  rw [Function.comp_apply, hostProperty_name]
  cases hslot : c.slot? p.name with
  | none => rw [h.hostProperty_of_slot?_none hslot]
  | some k => rfl

/-- A plain class stores every property that has a backing field. -/
theorem storedProperties_plain (h : Counterpart c plain recordType ps) :
    storedProperties plain = plain.decl.properties.filter (·.hasBackingField) := by
  simp [storedProperties, h.slot?_plain]

/-- Properties without slots have the same initial values in both classes, and those with slots
have theirs in the plain class. -/
theorem storedValues_eq (h : Counterpart c plain recordType ps) (locals : Association Value) :
    ∃ fields plainFields, storedValues c locals = .ok fields ∧
      storedValues plain locals = .ok plainFields ∧
      (∀ name, plain.decl.property? name = none →
        fields.get? name = none ∧ plainFields.get? name = none) ∧
      (∀ name, c.slot? name = none → fields.get? name = plainFields.get? name) ∧
      ∀ p ∈ ps, plainFields.get? p.name = some (initialValue p) := by
  have hstored := h.storedProperties_eq
  have hplain := h.storedProperties_plain
  have hdistinct (keep : Property → Bool) :
      ((plain.decl.properties.filter keep).map (·.name)).Nodup :=
    h.plain_distinct.sublist (List.filter_sublist.map _)
  have hconstant (keep : Property → Bool) : ∀ p ∈ plain.decl.properties.filter keep,
      ∀ e ∈ p.initializer, isConstant e = true :=
    fun p hp => h.plain_constant p (List.mem_filter.mp hp).1
  have hunnamed (keep : Property → Bool) {name : String}
      (hname : plain.decl.property? name = none) :
      (initialValues (plain.decl.properties.filter keep)).get? name = none := by
    rw [get?_initialValues, Option.map_eq_none_iff, List.find?_eq_none]
    exact fun p hp => List.find?_eq_none.mp hname p (List.mem_filter.mp hp).1
  refine ⟨_, _, Dynamic.storedValues_eq h.hidden (hstored ▸ hdistinct _) (hstored ▸ hconstant _) _,
    Dynamic.storedValues_eq ?_ (hplain ▸ hdistinct _) (hplain ▸ hconstant _) _, ?_, ?_, ?_⟩
  · rw [h.plain_sourced.fields]
    nofun
  · rw [hstored, hplain]
    exact fun name hname => ⟨hunnamed _ hname, hunnamed _ hname⟩
  · intro name hslot
    have hsame : (fun p : Property =>
        decide (((c.slot? p.name).isNone && p.hasBackingField) = true ∧ (p.name == name) = true)) =
        fun p => decide (p.hasBackingField = true ∧ (p.name == name) = true) := by
      funext p
      by_cases hp : p.name = name <;> simp [hp, hslot]
    rw [hstored, hplain, get?_initialValues, get?_initialValues, List.find?_filter,
      List.find?_filter, hsame]
  · intro p hp
    have hmem : p ∈ plain.decl.properties.filter (·.hasBackingField) :=
      List.mem_filter.mpr ⟨h.framable.mem p hp, h.framable.backed p hp⟩
    rw [hplain, get?_initialValues, find?_eq_some_of_mem (hdistinct _) hmem]
    rfl

end Counterpart

end VersionedObjects.Dynamic
