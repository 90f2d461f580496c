import VersionedObjects.Proofs.Dynamic.AnnouncedParts
import VersionedObjects.Proofs.Dynamic.CarelessModules
import VersionedObjects.Proofs.Framing.ClassByClass

/-!
# Classes that announce their instances

Framing gives a class an initializer block that builds the record chain first and announces the
object last. The classes of a text have no blocks and no record fields of their own, so of the
loaded ones those that keep a record chain are those that were framed, and announce their instances.
Main statement: `heralds_loadSource`.
-/

namespace VersionedObjects.Dynamic

open Declaration Framing
open Store (ManagerId)

/-- The block that framing gives a class comes first and announces the object. -/
theorem heralds_of_hostOf {c : LoadedClass} {d : ClassDecl} {recordType : TypeExpr}
    {ps : List Property} (h : c.decl = hostOf d recordType ps) : c.Heralds := by
  intro _
  have hchain : chainBlock? c.decl =
      some (ps.flatMap (Rule.initialStore recordType) ++ [.notifyCreated]) := by
    rw [h]
    rfl
  rw [hchain, Option.getD_some, List.any_append]
  exact Bool.or_true _

/-- A class that is loaded as the text declares it keeps no record chain. -/
theorem heralds_of_sourced {m : Module} {d : ClassDecl} (hd : d.Sourced) {c : LoadedClass}
    (h : LoadedClass.ofModule m d = .ok c) : c.Heralds := by
  rw [ofModule_plain m hd] at h
  cases h
  exact nofun

/-- What is loaded from a text that is framed without errors. -/
theorem heralds_of_loadedFrom {source : String} {module : Module}
    (hparse : Grammar.parseModule source = .ok module)
    (herrors : (Pipeline.standard.transform module).1.summary.errors = []) {c : LoadedClass}
    (hc : LoadedFrom module c) : c.Heralds := by
  obtain ⟨decl, hdecl, horigin, hload⟩ := hc
  generalize (Pipeline.standard.transform module).1.module = out at hload
  suffices hpieces : ∃ pieces : List (List ClassDecl),
      (Pipeline.standard.transform module).1.module.classes = pieces.flatten ∧
        ∀ piece ∈ pieces, ∀ decl ∈ piece, decl.origin = .declared →
          ∀ c, LoadedClass.ofModule out decl = .ok c → c.Heralds by
    obtain ⟨pieces, hclasses, hall⟩ := hpieces
    rw [hclasses] at hdecl
    obtain ⟨piece, hpiece, hmem⟩ := List.mem_flatten.mp hdecl
    exact hall piece hpiece decl hmem horigin c hload
  refine Pipeline.exists_pieces_of_transform (fun d hd => ?_) (fun d hd stats i t ht => ?_) herrors
  · refine List.forall_mem_singleton.mpr fun _ c hc => ?_
    exact heralds_of_sourced (Grammar.sourced_of_parseModule hparse d hd) hc
  · have hrules : { Pipeline.standard with stats }.rules = Rule.all := Pipeline.usual_standard.rules
    obtain ⟨ps, baseRecord, hframes⟩ := Pipeline.framesAs_of_transformClass hrules ht
    obtain rfl := hframes.eq
    refine List.forall_mem_cons.mpr ⟨fun _ c hc => heralds_of_hostOf (decl_of_ofModule hc), ?_⟩
    exact List.forall_mem_singleton.mpr nofun

/-! ## Tables -/

/-- All loaded classes announce their instances. -/
def Runtime.Heralds (r : Runtime) : Prop :=
  ∀ table ∈ r.tables, ∀ entry ∈ table, entry.2.Heralds

/-- The classes in the tables of a heralding runtime herald their instances. -/
theorem Runtime.Heralds.table {r : Runtime} (h : r.Heralds) (m : ManagerId) :
    ∀ entry ∈ r.table m, entry.2.Heralds := by
  rw [Runtime.table]
  cases htable : r.tables[m]? with
  | none => exact List.forall_mem_nil _
  | some table => exact h table (List.mem_of_getElem? htable)

/-- A table of heralding classes may be set. -/
theorem Runtime.Heralds.setTable {r : Runtime} (h : r.Heralds) (m : ManagerId)
    {table : ClassTable} (htable : ∀ entry ∈ table, entry.2.Heralds) :
    (r.setTable m table).Heralds := fun other hother => by
  rcases List.mem_or_eq_of_mem_set hother with hold | rfl
  · exact h other hold
  · exact htable

/-- Loading a text, also one that cannot be loaded to its end, changes only the table of the
manager, and all loaded classes announce their instances as before. -/
theorem heralds_loadSource {r : Runtime} (h : r.Heralds) (m : ManagerId) (source : String) :
    (r.loadSource m source).2.Heralds ∧ (r.loadSource m source).2.world = r.world ∧
      (r.loadSource m source).2.instances = r.instances ∧
      (r.loadSource m source).2.tables.length = r.tables.length := by
  rw [Runtime.loadSource]
  cases hparse : Grammar.parseModule source with
  | error e => exact ⟨h, rfl, rfl, rfl⟩
  | ok module =>
    dsimp only [Runtime.loadModule]
    cases herrors : (Pipeline.standard.transform module).1.summary.errors with
    | cons e rest => exact ⟨h, rfl, rfl, rfl⟩
    | nil =>
      have htable := forall_load (h.table m) fun decl hdecl horigin c hc =>
        heralds_of_loadedFrom hparse herrors ⟨decl, hdecl, horigin, hc⟩
      dsimp only [Runtime.loadFramed]
      split
      all_goals
        next hload =>
        obtain ⟨-, rfl⟩ := Prod.mk.inj hload
        exact ⟨h.setTable m htable, rfl, rfl, List.length_set⟩

end VersionedObjects.Dynamic
