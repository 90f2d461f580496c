import VersionedObjects.Proofs.Dynamic.AccessorSafety
import VersionedObjects.Proofs.Framing.GuardedClasses

/-!
# Careless modules

Classes that are loaded from a text write records in the setters of framed properties, which ask
for a frame first. Other code of a class writes records for one of two reasons: the getter of a
framed property assigns `field`, or the record type of the class is hidden by another class of that
name. Main statement: `careless_of_unguarded`.
-/

namespace VersionedObjects.Dynamic

open Declaration Framing

/-! ## Loaded classes -/

/-- A class is one of those that are loaded when a module is. -/
def LoadedFrom (m : Module) (c : LoadedClass) : Prop :=
  let out := (Pipeline.standard.transform m).1.module
  ∃ decl ∈ out.classes, decl.origin = .declared ∧ LoadedClass.ofModule out decl = .ok c

/-- The loaded classes of the first manager, and those of all instances, are of some kind. -/
structure Runtime.Only (P : LoadedClass → Prop) (r : Runtime) : Prop where
  table : ∀ entry ∈ r.table 0, P entry.2
  instances : ∀ part ∈ r.instances, P part.cls

section

variable {P : LoadedClass → Prop} {m : Module}

/-- A change of the store leaves the classes alone. -/
theorem Runtime.Only.of_world {r : Runtime} (hr : r.Only P) (w : Store.World Slots) :
    Runtime.Only P { r with world := w } :=
  ⟨hr.table, hr.instances⟩

/-- Running code loads no class, so what holds of all classes holds of them later. -/
theorem Runtime.Only.of_continues {r later : Runtime} (hr : r.Only P) (h : later.Continues r) :
    later.Only P where
  table := by
    rw [Runtime.table, h.tables]
    exact hr.table
  instances part hpart := by
    rcases h.classes part hpart with ⟨old, hold, hcls⟩ | ⟨entry, hentry, hcls⟩
    · exact hcls ▸ hr.instances old hold
    · exact hcls ▸ hr.table entry hentry

/-- By induction on the classes that are left. -/
theorem forall_load {table : ClassTable} (htable : ∀ entry ∈ table, P entry.2)
    {classes : List ClassDecl} (hclasses : ∀ decl ∈ classes, decl.origin = .declared →
      ∀ c, LoadedClass.ofModule m decl = .ok c → P c) :
    ∀ entry ∈ (table.load m classes).2, P entry.2 := by
  induction classes generalizing table with
  | nil => exact htable
  | cons decl rest ih =>
    rw [List.forall_mem_cons] at hclasses
    rw [ClassTable.load]
    split
    · exact ih htable hclasses.2
    · next hdeclared =>
      split
      · exact htable
      · next c hload =>
        have horigin : decl.origin = .declared := by
          cases h : decl.origin with
          | declared => rfl
          | recordOf i => exact absurd (congrArg (· != Origin.declared) h) hdeclared
        exact ih (Association.forall_put htable decl.name (hclasses.1 horigin c hload)) hclasses.2

/-- A class found in a table that was set stood in that table. -/
theorem mem_of_mem_setTable {r : Runtime} {table : ClassTable} {entry : String × LoadedClass}
    (h : entry ∈ (r.setTable 0 table).table 0) : entry ∈ table := by
  rw [Runtime.table, Runtime.setTable] at h
  cases htables : r.tables with
  | nil => rw [htables] at h; cases h
  | cons _ _ => rwa [htables] at h

/-- Loading a module adds classes of the module alone. -/
theorem Runtime.Only.loadModule {r : Runtime} (hr : r.Only P) (hm : ∀ c, LoadedFrom m c → P c) :
    (r.loadModule 0 m).2.Only P := by
  have hload : (r.loadFramed 0 (Pipeline.standard.transform m).1.module).2.Only P := by
    refine ⟨fun entry hentry => ?_, hr.instances⟩
    exact forall_load hr.table (fun decl hdecl horigin c hc => hm c ⟨decl, hdecl, horigin, hc⟩)
      entry (mem_of_mem_setTable hentry)
  unfold Runtime.loadModule
  dsimp only
  split
  · exact hr
  · split
    · next h => rwa [h] at hload
    · next h => rwa [h] at hload

end

/-- A loaded class keeps its declaration. -/
theorem decl_of_ofModule {m : Module} {decl : ClassDecl} {c : LoadedClass}
    (h : LoadedClass.ofModule m decl = .ok c) : c.decl = decl := by
  unfold LoadedClass.ofModule at h
  split at h
  · cases h; rfl
  · split at h
    · cases h; rfl
    · cases h

/-! ## Unguarded classes -/

/-- What makes a class of a text write records where no frame is asked for. It is framed, and the
getter of a framed property assigns `field`, or its record type is hidden by another class of that
name. -/
inductive Careless (m : Module) (c : LoadedClass) : Prop
  | getter {t : FramedClass} {d : ClassDecl} {name : String}
      (ht : t ∈ (Pipeline.standard.transform m).1.transformed) (hc : c.decl = t.host)
      (hd : d ∈ m.classes) (hname : d.name = t.host.name) (hframed : name ∈ t.framed)
      (hassigns : name ∈ d.assigningGetters)
  | hidden {t : FramedClass} (ht : t ∈ (Pipeline.standard.transform m).1.transformed)
      (hc : c.decl = t.host)
      (h : (Pipeline.standard.transform m).1.module.class? t.record.name ≠ some t.record)

/-- Where framed properties have slots, an unguarded class has a getter that is to blame. -/
theorem exists_of_unguarded {c : LoadedClass} {framed blamed : List String}
    (h : c.decl.Guarded framed blamed)
    (hslots : ∀ name ∈ framed, (c.slot? name).isSome = true) (hcode : c.Unguarded) :
    ∃ name ∈ framed, name ∈ blamed := by
  rcases hcode with hwrites | ⟨hp, haccessor, hwrites⟩ | ⟨hp, hslot, haccessor, hwrites⟩
  · have hbody : c.constructor.body = [] := by
      rw [LoadedClass.constructor, h.constructors]
      rfl
    rw [hbody, List.append_nil] at hwrites
    obtain ⟨stmt, hstmt, hwrite⟩ := List.any_eq_true.mp hwrites
    rw [h.initializers stmt hstmt] at hwrite
    cases hwrite
  · obtain ⟨stmt, hstmt, hwrite⟩ := List.any_eq_true.mp hwrites
    exact ⟨_, (h.properties _ hp).getter _ haccessor stmt hstmt hwrite⟩
  · obtain ⟨stmt, hstmt, hwrite⟩ := List.any_eq_true.mp hwrites
    have hsome := hslots _ ((h.properties _ hp).setter _ haccessor stmt hstmt hwrite)
    rw [hslot] at hsome
    cases hsome

/-- A framed class that is loaded with its record type has a slot for each field of it. -/
theorem isSome_position?_layoutOf {record : ClassDecl} {name : String}
    (h : name ∈ record.fields.map (·.name)) :
    ((LoadedClass.layoutOf (some record)).position? name).isSome = true := by
  have hhas : (LoadedClass.layoutOf (some record)).has name = true := by
    rw [LoadedClass.layoutOf, Association.has_ofPairs, List.map_map]
    exact h
  rwa [Association.position?, List.findIdx?_isSome]

/-- The classes of a text are guarded where no getter and no name is careless. -/
theorem careless_of_unguarded {source : String} {m : Module}
    (hm : Grammar.parseModule source = .ok m) {c : LoadedClass} (hc : LoadedFrom m c)
    (hcode : c.Unguarded) : Careless m c := by
  have hclasses : ∀ d ∈ m.classes, ∀ framed, d.Guarded framed d.assigningGetters := fun d hd =>
    (Grammar.sourced_of_parseModule hm d hd).guarded fun _ hp =>
      Grammar.sourced_initializer hm hd hp
  have hrule : .installRecordField ∈ Pipeline.standard.rules := by
    rw [Pipeline.usual_standard.rules]
    decide
  obtain ⟨decl, hdecl, horigin, hload⟩ := hc
  have hsame := decl_of_ofModule hload
  rcases Pipeline.emerges_transformClasses hrule (Facts.analyze m) (List.Subset.refl _) hclasses
    (fun _ hmem => by cases hmem) decl hdecl with hkept | ⟨t, ht, rfl | rfl, d, hd, hname, hguarded⟩
  · obtain ⟨_, hframed, -⟩ :=
      exists_of_unguarded (hsame ▸ hkept) (fun _ hmem => by cases hmem) hcode
    cases hframed
  · by_cases hfound : (Pipeline.standard.transform m).1.module.class? t.record.name = some t.record
    · obtain ⟨field, hfield, hchain⟩ := hguarded.chain
      simp only [LoadedClass.ofModule, hfield, hchain, hfound] at hload
      cases hload
      have hslots : ∀ name ∈ t.framed,
          ((LoadedClass.layoutOf (some t.record)).position? name).isSome = true :=
        fun _ hmem => isSome_position?_layoutOf (hguarded.fields ▸ hmem)
      obtain ⟨name, hframed, hassigns⟩ := exists_of_unguarded hguarded.host hslots hcode
      exact .getter ht rfl hd hname hframed hassigns
    · exact .hidden ht hsame hfound
  · exact absurd horigin hguarded.origin

end VersionedObjects.Dynamic
