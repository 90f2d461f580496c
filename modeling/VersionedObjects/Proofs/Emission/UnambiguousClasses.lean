import Mathlib.Data.List.Lattice
import Mathlib.Data.List.Pairwise
import VersionedObjects.Proofs.Emission.ItemNames

/-!
# Classes whose generated members do not clash

Generated members are named after properties in snake case, beside names that every class brings
with it. Which classes get members of different names, all of them fit for members, is given here
by their properties.
-/

namespace VersionedObjects.Emission

open Declaration
open Framing (isIdentifier DistinctProperties)

/-! ## Accessors -/

variable {ps : List Property}

/-- The accessors of a property are its getter and, if it can be set, its setter. -/
theorem mem_accessorNames {p : Property} {name : String} :
    name ∈ accessorNames p ↔
      name = identifier p.name ∨ isSettable p = true ∧ name = setterName p.name := by
  unfold accessorNames
  cases isSettable p <;> simp

/-- The accessors of properties have different names where the getters have, and no getter has the
name of a setter. -/
theorem nodup_flatMap_accessorNames (hps : (ps.map (·.name)).Nodup) :
    (ps.flatMap accessorNames).Nodup ↔
      (∀ p ∈ ps, ∀ q ∈ ps, identifier p.name = identifier q.name → p.name = q.name) ∧
        ∀ p ∈ ps, isSettable p = true → ∀ q ∈ ps, identifier q.name ≠ setterName p.name := by
  rw [List.nodup_flatMap]
  constructor
  · rintro ⟨hown, hothers⟩
    have hsymm : Std.Symm (Function.onFun List.Disjoint accessorNames) :=
      ⟨fun _ _ hdisjoint => List.Disjoint.symm hdisjoint⟩
    have hdisjoint {p q : Property} (hp : p ∈ ps) (hq : q ∈ ps) (hne : p ≠ q) :
        List.Disjoint (accessorNames p) (accessorNames q) := hothers.forall hp hq hne
    refine ⟨fun p hp q hq hsame => ?_, fun p hp hset q hq hsame => ?_⟩
    · by_contra hne
      exact hdisjoint hp hq (fun h => hne (congrArg _ h)) (mem_accessorNames.mpr (.inl rfl))
        (mem_accessorNames.mpr (.inl hsame))
    · by_cases hpq : p = q
      · subst hpq
        have hboth := hown p hp
        simp [accessorNames, hset, hsame] at hboth
      · exact hdisjoint hp hq hpq (mem_accessorNames.mpr (.inr ⟨hset, rfl⟩))
          (mem_accessorNames.mpr (.inl hsame.symm))
  · rintro ⟨hgetters, hsetters⟩
    refine ⟨fun p hp => ?_, (hps.of_map _).pairwise_of_forall_ne fun p hp q hq hne => ?_⟩
    · cases hset : isSettable p with
      | false => simp [accessorNames, hset]
      | true => simpa [accessorNames, hset] using hsetters p hp hset p hp
    · have hname : p.name ≠ q.name := fun h => hne (List.inj_on_of_nodup_map hps hp hq h)
      intro name hinP hinQ
      rcases mem_accessorNames.mp hinP with rfl | ⟨hsetP, rfl⟩ <;>
        rcases mem_accessorNames.mp hinQ with hsame | ⟨hsetQ, hsame⟩
      · exact hname (hgetters p hp q hq hsame)
      · exact hsetters q hq hsetQ p hp hsame
      · exact hsetters p hp hsetP q hq hsame.symm
      · exact hname (hgetters p hp q hq (identifier_eq_of_setterName_eq hsame))

/-- The accessors have names fit for members where the getters have. -/
theorem forall_mem_flatMap_accessorNames (hps : ∀ p ∈ ps, isIdentifier p.name = true) :
    (∀ name ∈ ps.flatMap accessorNames, isMemberName name = true) ↔
      ∀ p ∈ ps, snakeCase p.name ∉ unescapedWords := by
  simp only [List.forall_mem_flatMap, mem_accessorNames]
  refine forall₂_congr fun p hp => ?_
  rw [← isMemberName_identifier_iff (hps p hp)]
  constructor
  · exact fun h => h _ (.inl rfl)
  · rintro hgetter name (rfl | ⟨-, rfl⟩)
    · exact hgetter
    · exact isMemberName_setterName (hps p hp)

/-! ## Classes -/

/-- The names of generated members are free of clashes: no property has as its snake case a word
without an escape, getters differ from each other and from setters and constructors, and what the
structure stores differs from what it brings with it. -/
structure Unambiguous (m : Module) (c : ClassDecl) : Prop where
  words : ∀ p ∈ c.properties, snakeCase p.name ∉ unescapedWords
  getters : ∀ p ∈ c.properties, ∀ q ∈ c.properties,
    identifier p.name = identifier q.name → p.name = q.name
  setters : ∀ p ∈ c.properties, isSettable p = true → ∀ q ∈ c.properties,
    identifier q.name ≠ setterName p.name
  constructors : ∀ p ∈ c.properties, identifier p.name ∉ constructorNames c
  storage : ∀ member ∈ storedMembers c (recordIn? m c), identifier member.name ∉ partNames m c

variable {m : Module} {c : ClassDecl}

/-- What makes a class unambiguous, said of its properties. -/
theorem unambiguous_iff : Unambiguous m c ↔
    (∀ p ∈ c.properties, snakeCase p.name ∉ unescapedWords) ∧
    ((∀ p ∈ c.properties, ∀ q ∈ c.properties,
        identifier p.name = identifier q.name → p.name = q.name) ∧
      ∀ p ∈ c.properties, isSettable p = true → ∀ q ∈ c.properties,
        identifier q.name ≠ setterName p.name) ∧
    (∀ p ∈ c.properties, identifier p.name ∉ constructorNames c) ∧
    ∀ member ∈ storedMembers c (recordIn? m c), identifier member.name ∉ partNames m c :=
  ⟨fun h => ⟨h.words, ⟨h.getters, h.setters⟩, h.constructors, h.storage⟩,
    fun ⟨hwords, ⟨hgetters, hsetters⟩, hconstructors, hstorage⟩ =>
      ⟨hwords, hgetters, hsetters, hconstructors, hstorage⟩⟩

instance (m : Module) (c : ClassDecl) : Decidable (Unambiguous m c) :=
  decidable_of_iff _ unambiguous_iff.symm

/-- The names of constructors are clear. -/
theorem clearNames_constructorNames (c : ClassDecl) : ClearNames (constructorNames c) := by
  unfold constructorNames
  cases c.isFramed <;> decide

/-- The names of the parts of a structure are clear. -/
theorem clearNames_partNames (m : Module) (c : ClassDecl) : ClearNames (partNames m c) := by
  unfold partNames
  cases c.isFramed <;> cases (superclassIn? m c).isSome <;> decide

/-- Names that are clear by themselves are clear together unless they share one. -/
theorem clearNames_append_iff {names more : List String} (hnames : ClearNames names) :
    ClearNames (names ++ more) ↔ ClearNames more ∧ ∀ name ∈ more, name ∉ names := by
  rw [ClearNames, List.nodup_append, List.forall_mem_append]
  constructor
  · rintro ⟨⟨-, hmore, hdisjoint⟩, -, hfit⟩
    exact ⟨⟨hmore, hfit⟩, fun name hmem hfirst => hdisjoint name hfirst name hmem rfl⟩
  · rintro ⟨⟨hmore, hfit⟩, hdisjoint⟩
    exact ⟨⟨hnames.1, hmore, fun a ha b hb hab => hdisjoint b hb (hab ▸ ha)⟩, hnames.2, hfit⟩

/-- No setter has the name of a constructor. -/
theorem setterName_notMem_constructorNames (name : String) (c : ClassDecl) :
    setterName name ∉ constructorNames c := by
  have hnames : ∀ other ∈ constructorNames c, other.toList.head? ≠ some 's' := by
    unfold constructorNames
    cases c.isFramed <;> decide
  intro hmem
  exact hnames _ hmem (by rw [toList_setterName]; rfl)

/-- The names of functions are clear exactly if those of the properties do not meet. -/
theorem clearNames_functionNames_iff (hc : PropertiesOnly c) :
    ClearNames (functionNames c) ↔
      (∀ p ∈ c.properties, snakeCase p.name ∉ unescapedWords) ∧
      ((∀ p ∈ c.properties, ∀ q ∈ c.properties,
          identifier p.name = identifier q.name → p.name = q.name) ∧
        ∀ p ∈ c.properties, isSettable p = true → ∀ q ∈ c.properties,
          identifier q.name ≠ setterName p.name) ∧
      ∀ p ∈ c.properties, identifier p.name ∉ constructorNames c := by
  have hfree : (∀ name ∈ c.properties.flatMap accessorNames, name ∉ constructorNames c) ↔
      ∀ p ∈ c.properties, identifier p.name ∉ constructorNames c := by
    simp only [List.forall_mem_flatMap, mem_accessorNames]
    refine forall₂_congr fun p _ => ⟨fun h => h _ (.inl rfl), ?_⟩
    rintro hgetter name (rfl | ⟨-, rfl⟩)
    · exact hgetter
    · exact setterName_notMem_constructorNames p.name c
  rw [functionNames, clearNames_append_iff (clearNames_constructorNames c), ClearNames,
    nodup_flatMap_accessorNames hc.properties, forall_mem_flatMap_accessorNames hc.identifiers,
    hfree]
  tauto

/-- What a structure stores are properties of its class. -/
theorem names_storedMembers_sublist (hc : PropertiesOnly c) (record : Option ClassDecl) :
    ((storedMembers c record).map (·.name)).Sublist (c.properties.map (·.name)) := by
  have hplain : c.fields.filter (!·.isHidden) = [] := by
    rw [List.filter_eq_nil_iff]
    intro f hf
    simp [hc.fields f hf]
  rw [storedMembers, hplain, List.map_nil, List.nil_append, List.map_map]
  exact List.filter_sublist.map _

/-- The fields that some of the properties of a class become, in the structure of the class or in
its record type. -/
theorem Unambiguous.clearNames_map_identifier (h : Unambiguous m c) (hc : PropertiesOnly c)
    {names : List String} (hnames : names.Nodup) (hsub : names ⊆ c.properties.map (·.name)) :
    ClearNames (names.map identifier) := by
  constructor
  · refine List.Nodup.map_on (fun a ha b hb hab => ?_) hnames
    obtain ⟨p, hp, rfl⟩ := List.mem_map.mp (hsub ha)
    obtain ⟨q, hq, rfl⟩ := List.mem_map.mp (hsub hb)
    exact h.getters p hp q hq hab
  · intro name hname
    obtain ⟨a, ha, rfl⟩ := List.mem_map.mp hname
    obtain ⟨p, hp, rfl⟩ := List.mem_map.mp (hsub ha)
    exact (isMemberName_identifier_iff (hc.identifiers p hp)).mpr (h.words p hp)

/-- **Members of a class.** The fields of the structure of a class and its functions have different
names that are fit for members, just where the class is unambiguous. -/
theorem clearNames_iff_unambiguous (hc : PropertiesOnly c) :
    ClearNames (fieldNames m c) ∧ ClearNames (functionNames c) ↔ Unambiguous m c := by
  rw [clearNames_functionNames_iff hc, fieldNames,
    clearNames_append_iff (clearNames_partNames m c), List.forall_mem_map]
  constructor
  · rintro ⟨⟨-, hstorage⟩, hwords, ⟨hgetters, hsetters⟩, hconstructors⟩
    exact ⟨hwords, hgetters, hsetters, hconstructors, hstorage⟩
  · intro h
    have hsub := names_storedMembers_sublist hc (recordIn? m c)
    have hstored := h.clearNames_map_identifier hc (hc.properties.sublist hsub) hsub.subset
    rw [List.map_map] at hstored
    exact ⟨⟨hstored, h.storage⟩, h.words, ⟨h.getters, h.setters⟩, h.constructors⟩

/-- The items of a declared class have members of different names that are fit for members, just
where the class is unambiguous. -/
theorem forall_clearNames_iff_unambiguous (hc : PropertiesOnly c) (horigin : c.origin = .declared)
    {config : EmitConfig} {items : List Item} (h : classItems config m c = .ok items) :
    (∀ item ∈ items, ClearNames item.memberNames) ↔ Unambiguous m c := by
  obtain ⟨more, hnames, hmore⟩ := memberNames_of_classItems hc horigin h
  rw [← clearNames_iff_unambiguous hc, ← List.forall_mem_map, hnames, List.forall_mem_cons,
    List.forall_mem_cons]
  exact and_congr_right fun _ => and_iff_left hmore

/-- A record type has slots for some of the properties of a class, and methods of different
names. -/
structure RecordOf (host record : ClassDecl) : Prop where
  origin : record.origin ≠ .declared
  slots : (record.fields.map (·.name)).Nodup
  subset : record.fields.map (·.name) ⊆ host.properties.map (·.name)
  methods : (record.methods.map (·.name)).Nodup

/-- The members of a record type do not clash where those of its class do not. -/
theorem RecordOf.forall_clearNames {host record : ClassDecl} (hrecord : RecordOf host record)
    (hhost : PropertiesOnly host) (h : Unambiguous m host) {config : EmitConfig}
    {items : List Item} (hitems : classItems config m record = .ok items) :
    ∀ item ∈ items, ClearNames item.memberNames := by
  unfold classItems at hitems
  split at hitems
  · obtain ⟨functions, hnames, hfunctions⟩ := memberNames_of_recordItems hrecord.methods hitems
    have hslots := h.clearNames_map_identifier hhost hrecord.slots hrecord.subset
    rw [List.map_map] at hslots
    rw [← List.forall_mem_map, hnames, List.forall_mem_cons, List.forall_mem_singleton]
    exact ⟨hslots, hfunctions⟩
  · next horigin => exact absurd horigin hrecord.origin

end VersionedObjects.Emission
