import VersionedObjects.Proofs.Dynamic.InitialValues
import VersionedObjects.Proofs.Dynamic.RecordAccess
import VersionedObjects.Proofs.Store.MakingSites

/-!
# Filling the first record

The initializer block of a framed class stores the initial values of its framed properties into the
only record of the new object, one after the other, and then announces the object.
-/

namespace VersionedObjects.Dynamic

open Declaration Framing
open Store (Generation ManagerId ObjectId World)

/-! ## The fresh record -/

namespace Counterpart

variable {c plain : LoadedClass} {recordType : TypeExpr} {ps : List Property} {name : String}
  {k : Nat}

/-- A slot belongs to a framed property. -/
theorem exists_of_slot? (h : Counterpart c plain recordType ps) (hslot : c.slot? name = some k) :
    ∃ p, ps[k]? = some p ∧ p.name = name := by
  rw [LoadedClass.slot?, h.layout] at hslot
  exact Option.map_eq_some_iff.mp (name_of_position? hslot)

/-- Each framed property has a slot. -/
theorem exists_slot? (h : Counterpart c plain recordType ps) {p : Property} (hp : p ∈ ps) :
    ∃ k, c.slot? p.name = some k := by
  rw [← Option.isSome_iff_exists, LoadedClass.slot?, h.layout, Option.isSome_iff_ne_none, ne_eq,
    position?_layoutOf_eq_none_iff]
  exact fun hnot => hnot (List.mem_map_of_mem hp)

/-- Framed properties of one name are the same. -/
theorem eq_of_name (h : Counterpart c plain recordType ps) {p q : Property} (hp : p ∈ ps)
    (hq : q ∈ ps) (hname : p.name = q.name) : p = q :=
  List.inj_on_of_nodup_map h.framable.nodup hp hq hname

/-- In a fresh record a slot has the value that fresh properties of its type have. -/
theorem slot_freshRecord (h : Counterpart c plain recordType ps) {p : Property} (hp : p ∈ ps)
    (hslot : c.slot? p.name = some k) : c.freshRecord.slot k = Value.zeroOf p.type := by
  obtain ⟨q, hq, hname⟩ := h.exists_of_slot? hslot
  obtain rfl := h.eq_of_name (List.mem_of_getElem? hq) hp hname
  simp [LoadedClass.freshRecord, h.layout, layoutOf, Slots.ofTypes, Slots.slot, hq]

end Counterpart

/-! ## Filling -/

/-- The record has the initial values of the framed properties, apart from properties whose
initializers are still to be stored. -/
def Filled (c : LoadedClass) (ps remaining : List Property) (slots : Slots) : Prop :=
  ∀ p ∈ ps, ∀ k, c.slot? p.name = some k →
    slots.slot k = initialValue p ∨ p ∈ remaining ∧ p.initializer.isSome = true

section

variable {c plain : LoadedClass} {recordType : TypeExpr} {ps : List Property}

/-- A fresh record stands for a counterpart whose framed properties are all still to be filled. -/
theorem filled_freshRecord (h : Counterpart c plain recordType ps) :
    Filled c ps ps c.freshRecord := by
  intro p hp k hslot
  cases hinitializer : p.initializer with
  | none => exact .inl (by rw [h.slot_freshRecord hp hslot, initialValue, hinitializer]; rfl)
  | some e => exact .inr ⟨hp, rfl⟩

/-- The initializer of the next property is stored. -/
theorem Filled.store (h : Counterpart c plain recordType ps) {q : Property}
    {remaining : List Property} {slots : Slots} (hfilled : Filled c ps (q :: remaining) slots)
    (hq : q ∈ ps) {k : Nat} (hslot : c.slot? q.name = some k) :
    Filled c ps remaining (slots.store k (initialValue q)) := by
  intro p hp l hl
  rw [Slots.slot_store]
  by_cases hkl : l = k
  · subst hkl
    obtain rfl := h.eq_of_name hp hq (h.slot?_injective hl hslot)
    exact .inl (if_pos rfl)
  · rw [if_neg hkl]
    refine (hfilled p hp l hl).imp_right fun ⟨hmem, hsome⟩ => ⟨?_, hsome⟩
    rcases List.mem_cons.mp hmem with rfl | hmem
    · exact absurd (Option.some.inj (hl.symm.trans hslot)) hkl
    · exact hmem

/-- A property without an initializer has its initial value already. -/
theorem Filled.skip {q : Property} {remaining : List Property} {slots : Slots}
    (hfilled : Filled c ps (q :: remaining) slots) (hq : q.initializer = none) :
    Filled c ps remaining slots := by
  intro p hp k hslot
  refine (hfilled p hp k hslot).imp_right fun ⟨hmem, hsome⟩ => ⟨?_, hsome⟩
  rcases List.mem_cons.mp hmem with rfl | hmem
  · rw [hq] at hsome
    cases hsome
  · exact hmem

end

/-! ## Running the initializer block -/

section

variable {c plain : LoadedClass} {recordType : TypeExpr} {ps : List Property} {calls : Calls}
  {sc : Scope} {r : Runtime} {m : ManagerId} {o : ObjectId} {g : Generation} {slots : Slots}

/-- The assignment of a constant to a slot of the first record. -/
theorem exec_initialStore (hobject : (r.inst sc.self).object = some o)
    (hsole : r.world.Sole m o g slots) {name : String} {k : Nat}
    (hslot : (r.inst sc.self).cls.slot? name = some k) (locals : Association Value) {e : Expr}
    (he : isConstant e = true) :
    exec calls sc locals (.assign (firstRecordField recordType name) e) r =
      .ok (none, locals) { r with world := r.world.store o g (·.store k (constantValue e)) } := by
  have hvalue : evalValue calls sc locals e r = .ok (constantValue e) r := by
    unfold evalValue
    rw [bind_of_ok (eval_constant calls sc locals e he r)]
    rfl
  have hfirst : (r.world.object o).chain.first? =
      some { generation := g, base := none, value := slots } := by
    rw [hsole.chain]
    rfl
  rw [exec, bind_of_ok hvalue,
    bind_of_ok (assign_firstRecordField hobject hslot recordType hfirst (constantValue e))]
  rfl

/-- By induction on the properties that remain: each with an initializer is stored. -/
theorem runAll_initialStores (calls : Calls) (locals : Association Value)
    (h : Counterpart c plain recordType ps) {remaining : List Property}
    (hremaining : ∀ p ∈ remaining, p ∈ ps) (hobject : (r.inst sc.self).object = some o)
    (hcls : (r.inst sc.self).cls = c) (hsole : r.world.Sole m o g slots)
    (hfilled : Filled c ps remaining slots) (rest : List Stmt) :
    ∃ w slots, World.Fills o r.world w ∧ w.Sole m o g slots ∧ Filled c ps [] slots ∧
      runAll calls sc locals (remaining.flatMap (Rule.initialStore recordType) ++ rest) r =
        runAll calls sc locals rest { r with world := w } := by
  induction remaining generalizing r slots with
  | nil => exact ⟨_, _, .refl o _, hsole, hfilled, rfl⟩
  | cons q remaining ih =>
    rw [List.forall_mem_cons] at hremaining
    rw [List.flatMap_cons, List.append_assoc]
    cases hinitializer : q.initializer with
    | none =>
      have hnone : Rule.initialStore recordType q = [] := by
        rw [Rule.initialStore, hinitializer]
        rfl
      rw [hnone, List.nil_append]
      exact ih hremaining.2 hobject hcls hsole (hfilled.skip hinitializer)
    | some e =>
      have hconstant : isConstant e = true :=
        h.plain_constant q (h.framable.mem q hremaining.1) e hinitializer
      have hvalue : initialValue q = constantValue e := by
        rw [initialValue, hinitializer]
        rfl
      obtain ⟨k, hslot⟩ := h.exists_slot? hremaining.1
      have hsome : Rule.initialStore recordType q =
          [.assign (firstRecordField recordType q.name) e] := by
        rw [Rule.initialStore, hinitializer]
        rfl
      let change : Slots → Slots := (·.store k (constantValue e))
      have hstored : Filled c ps remaining (slots.store k (constantValue e)) :=
        hvalue ▸ hfilled.store h hremaining.1 hslot
      obtain ⟨w, slots', hfills, hsole', hfilled', hrun⟩ :=
        ih (r := { r with world := r.world.store o g change }) hremaining.2 hobject hcls
          (hsole.store change).1 hstored
      refine ⟨w, slots', (World.fills_store hsole change).trans hfills, hsole', hfilled', ?_⟩
      rw [hsome, List.singleton_append, runAll,
        bind_of_ok (exec_initialStore hobject hsole (hcls ▸ hslot) locals hconstant)]
      exact hrun

/-- What follows the record chain in the initializer block fills the first record. -/
theorem runAll_chainBlock (calls : Calls) (locals : Association Value)
    (h : Counterpart c plain recordType ps) (hobject : (r.inst sc.self).object = some o)
    (hcls : (r.inst sc.self).cls = c) (hsole : r.world.Sole m o g c.freshRecord) :
    ∃ w slots, World.Fills o r.world w ∧ w.Sole m o g slots ∧ Filled c ps [] slots ∧
      runAll calls sc locals
        (ps.flatMap (Rule.initialStore recordType) ++ [.notifyCreated]) r =
          .ok () { r with world := w } := by
  obtain ⟨w, slots, hfills, hfilled, hslots, hrun⟩ := runAll_initialStores calls locals h
    (fun _ hp => hp) hobject hcls hsole (filled_freshRecord h) [.notifyCreated]
  refine ⟨w.notifyCreated o, slots, hfills.trans (World.fills_notifyCreated w o),
    hfilled.notifyCreated, hslots, ?_⟩
  have hobject' : sc.object { r with world := w } = .ok o { r with world := w } :=
    object_apply hobject
  rw [hrun, runAll, exec, bind_assoc, bind_of_ok hobject']
  rfl

end

end VersionedObjects.Dynamic
