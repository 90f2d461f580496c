import VersionedObjects.Dynamic.Loading
import VersionedObjects.Proofs.Dynamic.Counterpart
import VersionedObjects.Proofs.Framing.FramedModule

/-!
# Loaded framed and plain classes

A module and the same module without the marks that ask for framing load into tables that hold
counterparts under the same names.
-/

namespace VersionedObjects.Dynamic

open Declaration Framing
open Store (ManagerId)

/-! ## Classes -/

/-- A class as a text can declare it, with different names for its properties and constants for
its initializers. -/
structure Regular (c : ClassDecl) : Prop where
  sourced : c.Sourced
  distinct : DistinctProperties c
  constant : ∀ p ∈ c.properties, ∀ e ∈ p.initializer, isConstant e = true

/-- The marker of framed classes is no superclass. -/
theorem superclass?_host {c host record : ClassDecl} {recordType : TypeExpr} {ps : List Property}
    (h : FramesInto c recordType ps host record) : host.superclass? = c.superclass? := by
  simp [ClassDecl.superclass?, h.host_supertypes, List.find?_append, TypeExpr.named, TypeExpr.name]

/-- A class that a text can declare is one without its mark as well. -/
theorem unmarked_sourced {c : ClassDecl} (h : c.Sourced) : (unmarked c).Sourced := by
  refine ⟨?_, h.properties⟩
  rw [unmarked, h.eq_declared]

/-- A class that is loaded as it is. -/
def plainClass (c : ClassDecl) : LoadedClass :=
  { decl := c, record := none, layout := [] }

/-- A class that a text can declare is loaded as a plain one. -/
theorem ofModule_plain (m : Module) {c : ClassDecl} (hc : c.Sourced) :
    LoadedClass.ofModule m c = .ok (plainClass c) := by
  rw [LoadedClass.ofModule, ClassDecl.field?, hc.fields]
  rfl

/-- A plain class has itself, without the mark, as its counterpart. -/
theorem counterpart_plain {c : ClassDecl} (hc : Regular c) (recordType : TypeExpr) :
    Counterpart (plainClass c) (plainClass (unmarked c)) recordType [] where
  layout := rfl
  isFramed _ := rfl
  properties := by
    rw [hostProperty, List.map_nil, Rule.onNames_nil, List.map_id]
    rfl
  superclass := rfl
  constructors := hc.sourced.constructors
  hidden := by
    rw [plainClass, hc.sourced.fields]
    intro field hfield
    cases hfield
  initializers := hc.sourced.initializers
  framable := ⟨nofun, List.nodup_nil, nofun⟩
  plain_sourced := unmarked_sourced hc.sourced
  plain_distinct := hc.distinct
  plain_constant := hc.constant
  plain_layout := rfl
  plain_record := rfl

section

variable {c host record : ClassDecl} {recordType : TypeExpr} {ps : List Property}

/-- The host of a class, loaded with its record type. -/
def framedClass (host record : ClassDecl) (ps : List Property) : LoadedClass :=
  { decl := host, record := some record, layout := layoutOf ps }

/-- A host is loaded with the record type that it was framed into. -/
theorem ofModule_host {m : Module} (hc : c.Sourced) (h : FramesInto c recordType ps host record)
    (hm : m.class? record.name = some record) :
    LoadedClass.ofModule m host = .ok (framedClass host record ps) := by
  have hlayout : LoadedClass.layoutOf (some record) = layoutOf ps := by
    have hfields : record.fields.map (fun f => (f.name, f.type)) = layoutOf ps := by
      rw [h.record_fields, List.map_map]
      rfl
    rw [LoadedClass.layoutOf, Option.elim_some, hfields]
    apply Association.ofPairs_eq_self
    rw [layoutOf, List.map_map]
    exact h.framable.nodup
  rw [LoadedClass.ofModule, ClassDecl.field?, h.host_fields, hc.fields]
  simp only [List.nil_append, List.find?_cons, beq_self_eq_true]
  rw [← h.record_name, hm]
  dsimp only
  rw [hlayout]
  rfl

/-- A framed class has the plain class that it was made of as its counterpart. -/
theorem counterpart_framed (hc : Regular c) (h : FramesInto c recordType ps host record) :
    Counterpart (framedClass host record ps) (plainClass (unmarked c)) recordType ps where
  layout := rfl
  isFramed := nofun
  properties := h.host_properties
  superclass := (superclass?_host h : host.superclass? = c.superclass?)
  constructors := h.host_constructors.trans hc.sourced.constructors
  hidden := by
    intro field hfield
    rw [framedClass, h.host_fields, hc.sourced.fields, List.nil_append,
      List.mem_singleton] at hfield
    rw [hfield]
  initializers := by
    rw [framedClass, h.host_initializers, hc.sourced.initializers]
    rfl
  framable := ⟨h.framable.mem, h.framable.nodup, h.framable.backed⟩
  plain_sourced := unmarked_sourced hc.sourced
  plain_distinct := hc.distinct
  plain_constant := hc.constant
  plain_layout := rfl
  plain_record := rfl

end

/-! ## Tables -/

/-- The tables have counterparts under the same names. -/
structure ClassTable.Counterparts (table plain : ClassTable) : Prop where
  keys : table.keys = plain.keys
  found : ∀ name c, table.get? name = some c → ∃ d recordType ps, plain.get? name = some d ∧
    Counterpart c d recordType ps

namespace ClassTable.Counterparts

variable {table plain : ClassTable}

/-- Both tables have classes of the same names. -/
theorem has_eq (h : table.Counterparts plain) (name : String) :
    Association.has table name = Association.has plain name := by
  have hiff : Association.has table name = false ↔ Association.has plain name = false := by
    rw [Association.has_eq_false_iff, Association.has_eq_false_iff]
    rw [show table.map (·.1) = plain.map (·.1) from h.keys]
  cases hname : Association.has table name with
  | false => exact (hiff.mp hname).symm
  | true =>
    cases hplain : Association.has plain name with
    | false => rw [hiff.mpr hplain] at hname; cases hname
    | true => rfl

/-- What is missing in the one table is missing in the other one. -/
theorem get?_eq_none (h : table.Counterparts plain) (name : String)
    (hname : table.get? name = none) : plain.get? name = none := by
  have hhas := h.has_eq name
  rw [Association.has_eq_isSome_get?, Association.has_eq_isSome_get?, hname] at hhas
  simpa using hhas.symm

/-- Counterparts may be put into both tables. -/
theorem put (h : table.Counterparts plain) (name : String) {c d : LoadedClass}
    {recordType : TypeExpr} {ps : List Property} (hc : Counterpart c d recordType ps) :
    ClassTable.Counterparts (Association.put table name c) (Association.put plain name d) := by
  refine ⟨?_, fun other e he => ?_⟩
  · cases hname : Association.has table name with
    | true =>
      rw [Association.keys_put_of_has c hname,
        Association.keys_put_of_has d (h.has_eq name ▸ hname)]
      exact h.keys
    | false =>
      rw [Association.keys_put_of_not_has c hname,
        Association.keys_put_of_not_has d (h.has_eq name ▸ hname), h.keys]
  · by_cases hother : other = name
    · subst hother
      rw [Association.get?_put_self] at he ⊢
      cases he
      exact ⟨d, recordType, ps, rfl, hc⟩
    · rw [Association.get?_put_of_ne c hother] at he
      rw [Association.get?_put_of_ne d hother]
      exact h.found other e he

end ClassTable.Counterparts

/-- A declared class is loaded first, and then the others. -/
theorem load_declared {m : Module} {c : ClassDecl} (horigin : c.origin = .declared)
    {d : LoadedClass} (hd : LoadedClass.ofModule m c = .ok d) (table : ClassTable)
    (rest : List ClassDecl) :
    (table.load m (c :: rest)).2 = (ClassTable.load (Association.put table c.name d) m rest).2 := by
  have hdeclared : (c.origin != .declared) = false := by
    rw [horigin]
    rfl
  rw [ClassTable.load, hdeclared, hd]
  rfl

/-- A record type is not loaded by itself. -/
theorem load_record {record : ClassDecl} (horigin : record.origin ≠ .declared) (m : Module)
    (table : ClassTable) (rest : List ClassDecl) :
    table.load m (record :: rest) = table.load m rest := by
  have hgenerated : (record.origin != .declared) = true := by
    cases h : record.origin with
    | declared => exact absurd h horigin
    | recordOf i => rfl
  rw [ClassTable.load, if_pos hgenerated]

/-- By induction on the classes; each is loaded beside its counterpart, and record types are not
loaded. -/
theorem load_counterparts {m plainModule : Module} {classes out : List ClassDecl}
    {framed : List FramedClass} (h : Frames classes out framed)
    (hclasses : ∀ c ∈ classes, Regular c)
    (hrecords : ∀ t ∈ framed, m.class? t.record.name = some t.record)
    {table plain : ClassTable} (htables : table.Counterparts plain) :
    ClassTable.Counterparts (table.load m out).2
      (plain.load plainModule (classes.map unmarked)).2 := by
  induction h generalizing table plain with
  | nil => exact htables
  | kept c _ ih =>
    rw [List.forall_mem_cons] at hclasses
    have hc := hclasses.1.sourced
    have hu := unmarked_sourced hc
    rw [List.map_cons, load_declared hc.origin (ofModule_plain m hc),
      load_declared hu.origin (ofModule_plain plainModule hu)]
    exact ih hclasses.2 hrecords (htables.put c.name (counterpart_plain hclasses.1 default))
  | @framed classes out framed c t ps hinto _ ih =>
    rw [List.forall_mem_cons] at hclasses hrecords
    have hc := hclasses.1.sourced
    have hu := unmarked_sourced hc
    rw [List.map_cons, load_declared (hinto.host_origin.trans hc.origin)
      (ofModule_host hc hinto hrecords.1), load_record hinto.record_origin,
      load_declared hu.origin (ofModule_plain plainModule hu), hinto.host_name]
    exact ih hclasses.2 hrecords.2 (htables.put c.name (counterpart_framed hclasses.1 hinto))

/-! ## Texts -/

/-- A text that is loaded has been framed without errors. -/
theorem loadSource_ok {r r' : Runtime} {m : ManagerId} {source : String} {module : Module}
    (hparse : Grammar.parseModule source = .ok module) {summary : Summary}
    (h : r.loadSource m source = (.ok summary, r')) :
    (Pipeline.standard.transform module).1.summary.errors = [] ∧
      r' = r.setTable m ((r.table m).load (Pipeline.standard.transform module).1.module
        (Pipeline.standard.transform module).1.module.classes).2 := by
  rw [Runtime.loadSource, hparse] at h
  dsimp only [Runtime.loadModule] at h
  cases herrors : (Pipeline.standard.transform module).1.summary.errors with
  | cons e rest =>
    rw [herrors] at h
    cases h
  | nil =>
    rw [herrors] at h
    dsimp only [Runtime.loadFramed] at h
    refine ⟨rfl, ?_⟩
    split at h
    · next heq =>
      obtain ⟨-, rfl⟩ := Prod.mk.inj h
      exact (Prod.mk.inj heq).2.symm
    · cases h

/-- A text that is framed without errors, and then loaded. -/
theorem loadSource_eq {r : Runtime} {m : ManagerId} {source : String} {module : Module}
    (hparse : Grammar.parseModule source = .ok module)
    (herrors : (Pipeline.standard.transform module).1.summary.errors = []) {names : List String}
    (hload : ((r.table m).load (Pipeline.standard.transform module).1.module
      (Pipeline.standard.transform module).1.module.classes).1 = .ok names) :
    r.loadSource m source = (.ok (Pipeline.standard.transform module).1.summary,
      r.setTable m ((r.table m).load (Pipeline.standard.transform module).1.module
        (Pipeline.standard.transform module).1.module.classes).2) := by
  rw [Runtime.loadSource, hparse]
  dsimp only [Runtime.loadModule]
  rw [herrors]
  dsimp only [Runtime.loadFramed]
  rw [hload]

end VersionedObjects.Dynamic
