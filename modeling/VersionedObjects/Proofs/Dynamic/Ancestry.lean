import VersionedObjects.Proofs.Declaration.Inheritance
import VersionedObjects.Proofs.Dynamic.LoadedTables

/-!
# Paths of superclasses

Where inheritance has no cycles, the path of superclasses of a loaded class has no more classes
than the module declares.
-/

namespace VersionedObjects

namespace Dynamic

open Declaration Framing

/-! ## Superclasses -/

/-- The class from which a class inherits, if it is loaded. -/
def LoadedClass.superclassIn (c : LoadedClass) (table : ClassTable) : Option LoadedClass :=
  c.decl.superclass?.bind fun type => table.get? type.name

/-- Counterparts inherit from counterparts. -/
theorem superclassIn_counterpart {table plainTable : ClassTable}
    (htables : table.Counterparts plainTable) {c plain : LoadedClass} {recordType : TypeExpr}
    {ps : List Property} (hc : Counterpart c plain recordType ps) :
    (c.superclassIn table = none → plain.superclassIn plainTable = none) ∧
      ∀ d, c.superclassIn table = some d → ∃ e recordType ps,
        plain.superclassIn plainTable = some e ∧ Counterpart d e recordType ps := by
  unfold LoadedClass.superclassIn
  rw [← hc.superclass]
  cases c.decl.superclass? with
  | none => exact ⟨fun _ => rfl, nofun⟩
  | some type => exact ⟨htables.get?_eq_none type.name, htables.found type.name⟩

/-! ## The length of paths -/

/-- The path of superclasses, the class included, has at most a number of classes. -/
def EndsWithin (table : ClassTable) : Nat → LoadedClass → Prop
  | 0, _ => False
  | n + 1, c => ∀ d, c.superclassIn table = some d → EndsWithin table n d

/-- The table has the classes of a module, and they inherit as the module says. -/
structure ClassTable.Represents (table : ClassTable) (m : Module) : Prop where
  length : table.length = m.classes.length
  found : ∀ c ∈ m.classes, ∃ d, table.get? c.name = some d
  declared : ∀ name d, table.get? name = some d →
    ∃ c ∈ m.classes, c.name = name ∧ d.decl.superclass? = c.superclass?

/-- By induction on the length that is left: the classes visited so far differ, so there are not
more of them than the module has. -/
theorem endsWithin_of_visited {table : ClassTable} {m : Module} (htable : table.Represents m)
    (hacyclic : m.Acyclic) {n : Nat} {visited : List String} (hnodup : visited.Nodup)
    (hvisited : visited ⊆ m.classes.map (·.name)) {name : String}
    (hpath : ∀ v ∈ visited, Relation.TransGen m.Inherits v name)
    (hn : visited.length + n = m.classes.length + 1) {d : LoadedClass}
    (hd : table.get? name = some d) : EndsWithin table n d := by
  induction n generalizing visited name d with
  | zero =>
    have hle := hnodup.length_le_of_subset hvisited
    rw [List.length_map] at hle
    omega
  | succ n ih =>
    intro e he
    obtain ⟨c, hc, hname, hsuper⟩ := htable.declared name d hd
    obtain ⟨type, htype, he⟩ := Option.bind_eq_some_iff.mp he
    have hstep : m.Inherits name type.name := ⟨c, hc, hname, type, hsuper ▸ htype, rfl⟩
    have hnew : name ∉ visited := fun hmem => hacyclic name (hpath name hmem)
    refine ih (List.nodup_cons.mpr ⟨hnew, hnodup⟩) ?_ ?_ (by simp; omega) he
    · intro v hv
      rcases List.mem_cons.mp hv with rfl | hv
      · exact List.mem_map.mpr ⟨c, hc, hname⟩
      · exact hvisited hv
    · intro v hv
      rcases List.mem_cons.mp hv with rfl | hv
      · exact .single hstep
      · exact (hpath v hv).tail hstep

/-- No path of superclasses is longer than there are classes. -/
theorem endsWithin_of_acyclic {table : ClassTable} {m : Module} (htable : table.Represents m)
    (hacyclic : m.Acyclic) {name : String} {d : LoadedClass} (hd : table.get? name = some d) :
    EndsWithin table (table.length + 1) d :=
  endsWithin_of_visited htable hacyclic List.nodup_nil (List.nil_subset _) nofun
    (by rw [htable.length, List.length_nil, Nat.zero_add]) hd

/-! ## The classes of a module -/

/-- The table of plain classes. -/
def plainTable (classes : List ClassDecl) : ClassTable :=
  classes.map fun c => (c.name, plainClass (unmarked c))

/-- Unmarked classes with names of their own are appended to the table one after another. -/
theorem load_unmarked {m : Module} {classes : List ClassDecl} (hclasses : ∀ c ∈ classes, c.Sourced)
    {table : ClassTable} (hnodup : (table.keys ++ classes.map (·.name)).Nodup) :
    (table.load m (classes.map unmarked)).2 = table ++ plainTable classes := by
  induction classes generalizing table with
  | nil => exact (List.append_nil table).symm
  | cons c rest ih =>
    rw [List.forall_mem_cons] at hclasses
    have hc := unmarked_sourced hclasses.1
    have hnew : Association.has table c.name = false := by
      rw [Association.has_eq_false_iff]
      exact fun hmem => (List.nodup_append.mp hnodup).2.2 _ hmem _ (by simp) rfl
    have hput : Association.put table c.name (plainClass (unmarked c)) =
        table ++ [(c.name, plainClass (unmarked c))] := by
      simp [Association.put, hnew]
    have hkeys : (Association.keys (table ++ [(c.name, plainClass (unmarked c))]) ++
        rest.map (·.name)).Nodup := by
      simpa [Association.keys] using hnodup
    rw [List.map_cons, load_declared hc.origin (ofModule_plain m hc)]
    change (ClassTable.load (Association.put table c.name _) m _).2 = _
    rw [hput, ih hclasses.2 hkeys, plainTable, plainTable, List.map_cons, List.append_assoc]
    rfl

/-- Counterparts of the classes of a module represent the module. -/
theorem represents_of_counterparts {table : ClassTable} {m : Module}
    (h : table.Counterparts (plainTable m.classes)) : table.Represents m := by
  refine ⟨?_, fun c hc => ?_, fun name d hd => ?_⟩
  · have hkeys := congrArg List.length h.keys
    simpa [Association.keys, plainTable] using hkeys
  · rw [← Option.isSome_iff_exists, ← Association.has_eq_isSome_get?, h.has_eq]
    exact List.any_eq_true.mpr ⟨_, List.mem_map.mpr ⟨c, hc, rfl⟩, by simp⟩
  · obtain ⟨e, _, _, he, hcounterpart⟩ := h.found name d hd
    obtain ⟨entry, hentry, rfl⟩ := Option.map_eq_some_iff.mp he
    obtain ⟨c, hc, rfl⟩ := List.mem_map.mp (List.mem_of_find?_eq_some hentry)
    have hname : c.name = name := by simpa using List.find?_some hentry
    exact ⟨c, hc, hname, hcounterpart.superclass⟩

end Dynamic

end VersionedObjects
