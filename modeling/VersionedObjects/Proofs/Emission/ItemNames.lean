import VersionedObjects.Emission.Class
import VersionedObjects.Proofs.Computations
import VersionedObjects.Proofs.Emission.MemberNames
import VersionedObjects.Proofs.Framing.ClassByClass

/-!
# The members of emitted items

A class that is emitted becomes a few items. The names of their members are given here in closed
form: those of the getters and setters of its properties, of the stored ones as fields, and the
names that the structure and its constructors bring with them.
-/

namespace VersionedObjects.Emission

open Declaration

/-- The fields of a structure, or the functions of a block, by name. -/
def Item.memberNames : Item → List String
  | .structure _ _ fields => fields.map (·.name)
  | .block _ _ functions => functions.map (·.name)

/-- The members of a structure are its fields. -/
@[simp] theorem memberNames_structure (lines : List String) (name : String)
    (fields : List StructField) :
    (Item.structure lines name fields).memberNames = fields.map (·.name) :=
  rfl

/-- The members of a block are its functions. -/
@[simp] theorem memberNames_block (header : String) (type : Option (String × String))
    (functions : List Function) :
    (Item.block header type functions).memberNames = functions.map (·.name) :=
  rfl

/-- The block that leads to the base has one function. -/
@[simp] theorem memberNames_derefBlock (name base : String) :
    (derefBlock name base).memberNames = ["deref"] :=
  rfl

/-- The block that prints has one function. -/
@[simp] theorem memberNames_debugBlock (name : String) :
    (debugBlock name).memberNames = ["fmt"] :=
  rfl

/-- The block that makes a default has one function. -/
@[simp] theorem memberNames_defaultBlock (name : String) :
    (defaultBlock name).memberNames = ["default"] :=
  rfl

/-! ## Accessors and methods -/

/-- The property gets a setter. -/
def isSettable (p : Property) : Bool :=
  p.mutable && (p.setter.isSome || p.hasBackingField)

/-- The names of the accessors of a property. -/
def accessorNames (p : Property) : List String :=
  identifier p.name :: if isSettable p then [setterName p.name] else []

/-- The accessors of a property have the names that go with it. -/
theorem names_of_accessors {s : Scope} {receiver : String} {p : Property}
    {functions : List Function} (h : accessors s receiver p = .ok functions) :
    functions.map (·.name) = accessorNames p := by
  unfold accessors at h
  obtain ⟨get, -, h⟩ := bind_eq_ok_iff.mp h
  have hsettable : (!p.mutable || (p.setter.isNone && !p.hasBackingField)) = !isSettable p := by
    rw [isSettable]
    cases p.mutable <;> cases p.setter <;> simp
  rw [hsettable] at h
  cases hset : isSettable p with
  | false =>
    simp only [hset, Bool.not_false, if_true] at h
    cases h
    simp [accessorNames, hset]
  | true =>
    simp only [hset, Bool.not_true, Bool.false_eq_true, if_false] at h
    obtain ⟨_, -, h⟩ := bind_eq_ok_iff.mp h
    cases h
    simp [accessorNames, hset, setterName]

/-- Where all methods belong to interfaces the members of a class are its accessors. -/
theorem names_of_members {c : ClassDecl} (hmethods : ∀ m ∈ c.methods, m.implements.isSome = true)
    {s : Scope} {receiver : String} {functions : List Function}
    (h : members c s receiver = .ok functions) :
    functions.map (·.name) = c.properties.flatMap accessorNames := by
  have hnone : c.methods.filter (·.implements.isNone) = [] := by
    rw [List.filter_eq_nil_iff]
    intro m hm
    simp [Option.isSome_iff_ne_none.mp (hmethods m hm)]
  unfold members at h
  rw [hnone] at h
  obtain ⟨accessors, haccessors, h⟩ := bind_eq_ok_iff.mp h
  cases h
  have hnames : accessors.map (·.map (·.name)) = c.properties.map accessorNames :=
    map_eq_of_mapM (fun _ _ => names_of_accessors) haccessors
  rw [List.reverse_nil, List.append_nil, List.map_flatten, hnames, List.flatMap_def]

/-! ## Classes -/

/-- The names that a structure brings with it. -/
def partNames (m : Module) (c : ClassDecl) : List String :=
  (if c.isFramed then ["frame_record"] else []) ++
    if (superclassIn? m c).isSome then ["base"] else []

/-- The names of the constructors of a class that declares none. -/
def constructorNames (c : ClassDecl) : List String :=
  if c.isFramed then ["new", "new_in"] else ["new"]

/-- The class that the record chain of a class names as its record type. -/
def recordIn? (m : Module) (c : ClassDecl) : Option ClassDecl :=
  (c.field? recordField).bind fun chain => m.class? chain.type.name

/-- The names of the fields of the structure of a class. -/
def fieldNames (m : Module) (c : ClassDecl) : List String :=
  partNames m c ++ (storedMembers c (recordIn? m c)).map (identifier ·.name)

/-- The names of the functions of a class that declares properties only. -/
def functionNames (c : ClassDecl) : List String :=
  constructorNames c ++ c.properties.flatMap accessorNames

/-- The fields of a structure are its base, if there is one, and what is stored. -/
theorem names_of_structFields (base : Option ClassDecl) (stored : List Parameter) :
    (structFields base stored).map (·.name) =
      (if base.isSome then ["base"] else []) ++ stored.map (identifier ·.name) := by
  cases base <;> simp [structFields]

/-- A framed class has two constructors, and initializers of the chain. -/
theorem names_of_framedConstructors {c : ClassDecl} (hconstructors : c.constructors = [])
    {stored : List Parameter} {base : Option ClassDecl} {s : Scope} {functions : List Function}
    (h : framedConstructors c stored base s = .ok functions) :
    functions.map (·.name) = ["new", "new_in"] ∧ c.initializers ≠ [] := by
  unfold framedConstructors at h
  rw [hconstructors] at h
  obtain ⟨⟨initial, rest⟩, hchain, h⟩ := bind_eq_ok_iff.mp h
  obtain ⟨baseLines, -, h⟩ := bind_eq_ok_iff.mp h
  obtain ⟨storedLines, -, h⟩ := bind_eq_ok_iff.mp h
  obtain ⟨body, -, h⟩ := bind_eq_ok_iff.mp h
  cases h
  refine ⟨rfl, fun hnone => ?_⟩
  rw [chainStart, hnone] at hchain
  cases hchain

/-- A plain class has one constructor. -/
theorem name_of_plainConstructor {c : ClassDecl} {stored : List Parameter}
    {base : Option ClassDecl} {s : Scope} {function : Function}
    (h : plainConstructor c stored base s = .ok function) : function.name = "new" := by
  unfold plainConstructor at h
  obtain ⟨baseLines, -, h⟩ := bind_eq_ok_iff.mp h
  obtain ⟨storedLines, -, h⟩ := bind_eq_ok_iff.mp h
  obtain ⟨body, -, h⟩ := bind_eq_ok_iff.mp h
  cases h
  rfl

/-- The functions of the frame interface by the name of their method. -/
theorem name_of_framedFunction {s : Scope} {recordType : String} {m : Method}
    {function : Function} (h : framedFunction s recordType m = .ok function) :
    (m.name = firstFrameRecord ∧ function.name = "first_frame_record") ∨
      (m.name = prependFrameRecord ∧ function.name = "prepend_frame_record") := by
  unfold framedFunction at h
  split at h
  · next hfirst =>
    refine .inl ⟨hfirst, ?_⟩
    split at h
    · obtain ⟨_, -, h⟩ := bind_eq_ok_iff.mp h
      cases h
      rfl
    · cases h
  split at h
  · next hprepend =>
    refine .inr ⟨hprepend, ?_⟩
    dsimp only at h
    split at h
    · obtain ⟨_, -, h⟩ := bind_eq_ok_iff.mp h
      cases h
      rfl
    · obtain ⟨_, -, h⟩ := bind_eq_ok_iff.mp h
      cases h
      rfl
    · cases h
  · cases h

/-- No two names are the same, and each is fit for a member. -/
def ClearNames (names : List String) : Prop :=
  names.Nodup ∧ ∀ name ∈ names, isMemberName name = true

instance (names : List String) : Decidable (ClearNames names) :=
  inferInstanceAs (Decidable (_ ∧ _))

/-- The class declares properties only, and what framing has added to it is hidden or belongs to the
interface of framed classes. -/
structure PropertiesOnly (c : ClassDecl) : Prop where
  properties : Framing.DistinctProperties c
  identifiers : ∀ p ∈ c.properties, Framing.isIdentifier p.name = true
  fields : ∀ f ∈ c.fields, f.isHidden = true
  constructors : c.constructors = []
  methods : Framing.HasFramedMethods c
  initializers : c.field? recordField = none → c.initializers = []

variable {config : EmitConfig} {m : Module} {c : ClassDecl} {items : List Item}

/-- The functions of the framed interface have clear names. -/
theorem clearNames_of_framedFunctions (hc : PropertiesOnly c) {s : Scope} {recordType : String}
    {functions : List Function}
    (h : (c.methods.filter (·.implements == some framedMarker)).mapM
      (framedFunction s recordType) = .ok functions) :
    ClearNames (functions.map (·.name)) := by
  let emitted (name : String) : String :=
    if name = firstFrameRecord then "first_frame_record" else "prepend_frame_record"
  have hnames : functions.map (·.name) =
      ((c.methods.filter (·.implements == some framedMarker)).map (·.name)).map emitted := by
    rw [List.map_map]
    refine map_eq_of_mapM (fun m function hfunction => ?_) h
    rcases name_of_framedFunction hfunction with ⟨hm, hname⟩ | ⟨hm, hname⟩
    · simp [emitted, hm, hname]
    · simp [emitted, hm, hname, firstFrameRecord, prependFrameRecord]
  have hinterface : ∀ name ∈ (c.methods.filter (·.implements == some framedMarker)).map (·.name),
      name = firstFrameRecord ∨ name = prependFrameRecord := by
    intro name hname
    obtain ⟨m, hm, rfl⟩ := List.mem_map.mp hname
    obtain ⟨function, -, hfunction⟩ := exists_mem_of_forall₂ (mapM_eq_ok_iff.mp h) m hm
    exact (name_of_framedFunction hfunction).imp And.left And.left
  rw [hnames]
  constructor
  · refine List.Nodup.map_on (fun a ha b hb hab => ?_)
      (hc.methods.2.sublist (List.filter_sublist.map _))
    rcases hinterface a ha with rfl | rfl <;> rcases hinterface b hb with rfl | rfl <;>
      first | rfl | exact absurd hab (by decide)
  · intro name hname
    obtain ⟨a, ha, rfl⟩ := List.mem_map.mp hname
    rcases hinterface a ha with rfl | rfl <;> decide

/-- A framed class: the structure, the block of its functions, and items that every framed class
has alike. -/
theorem memberNames_of_framedItems (hc : PropertiesOnly c) (hframed : c.isFramed = true)
    (h : framedItems config m c = .ok items) :
    ∃ more, items.map (·.memberNames) = fieldNames m c :: functionNames c :: more ∧
      ∀ names ∈ more, ClearNames names := by
  unfold framedItems at h
  dsimp only at h
  split at h
  · cases h
  · next record hrecord =>
    obtain ⟨constructors, hconstructors, h⟩ := bind_eq_ok_iff.mp h
    obtain ⟨functions, hmembers, h⟩ := bind_eq_ok_iff.mp h
    obtain ⟨framed, hframedFunctions, h⟩ := bind_eq_ok_iff.mp h
    obtain ⟨hnames, hinitializers⟩ := names_of_framedConstructors hc.constructors hconstructors
    have hin : recordIn? m c = some record := by
      cases hchain : c.field? recordField with
      | none => exact absurd (hc.initializers hchain) hinitializers
      | some chain =>
        rw [hchain] at hrecord
        rw [recordIn?, hchain]
        exact hrecord
    cases h
    refine ⟨(superclassIn? m c).toList.map (fun _ => ["deref"]) ++
      (if config.deriveDebug then [["fmt"]] else []) ++ [framed.map (·.name)] ++
      (if c.constructors.all (·.isZeroArg) then [["default"]] else []), ?_, ?_⟩
    · have hfields : fieldNames m c = "frame_record" ::
          (structFields (superclassIn? m c) (storedMembers c (some record))).map (·.name) := by
        rw [names_of_structFields, fieldNames, partNames, hin, if_pos hframed]
        rfl
      have hfunctions : functionNames c = (constructors ++ functions).map (·.name) := by
        rw [functionNames, constructorNames, if_pos hframed, List.map_append, hnames,
          names_of_members (fun m hm => by rw [hc.methods.1 m hm]; rfl) hmembers]
      rw [hfields, hfunctions]
      simp [Function.comp_def, apply_ite (List.map Item.memberNames)]
    · have hderef : ClearNames ["deref"] := by decide
      have hdebug : ClearNames ["fmt"] := by decide
      have hdefault : ClearNames ["default"] := by decide
      have hinterface := clearNames_of_framedFunctions hc hframedFunctions
      have hoptional (b : Bool) {fixed : List String} (hfixed : ClearNames fixed) :
          ∀ names ∈ if b then [fixed] else [], ClearNames names := by
        cases b
        · exact List.forall_mem_nil _
        · exact List.forall_mem_singleton.mpr hfixed
      simp only [List.forall_mem_append, List.forall_mem_singleton]
      exact ⟨⟨⟨List.forall_mem_map.mpr fun _ _ => hderef, hoptional _ hdebug⟩, hinterface⟩,
        hoptional _ hdefault⟩

/-- A class that is not framed: the structure, the block of its functions, and the block that
leads to the superclass. -/
theorem memberNames_of_plainItems (hc : PropertiesOnly c) (hframed : c.isFramed = false)
    (h : plainItems config m c = .ok items) :
    ∃ more, items.map (·.memberNames) = fieldNames m c :: functionNames c :: more ∧
      ∀ names ∈ more, ClearNames names := by
  unfold plainItems at h
  obtain ⟨constructor, hconstructor, h⟩ := bind_eq_ok_iff.mp h
  obtain ⟨functions, hmembers, h⟩ := bind_eq_ok_iff.mp h
  cases h
  have hnone : recordIn? m c = none := by
    obtain ⟨-, hchain⟩ : _ ∧ (c.field? recordField).isSome = false :=
      Bool.or_eq_false_iff.mp hframed
    have hchain : c.field? recordField = none := by simpa using hchain
    rw [recordIn?, hchain, Option.bind_none]
  have hfields : fieldNames m c =
      (structFields (superclassIn? m c) (storedMembers c none)).map (·.name) := by
    rw [names_of_structFields, fieldNames, partNames, hnone, hframed]
    rfl
  have hfunctions : functionNames c = (constructor :: functions).map (·.name) := by
    rw [functionNames, constructorNames, hframed, List.map_cons,
      name_of_plainConstructor hconstructor,
      names_of_members (fun m hm => by rw [hc.methods.1 m hm]; rfl) hmembers]
    rfl
  refine ⟨(superclassIn? m c).toList.map fun _ => ["deref"], ?_, ?_⟩
  · rw [hfields, hfunctions]
    simp [Function.comp_def]
  · exact List.forall_mem_map.mpr fun _ _ => by decide

/-- A function of a record has the name of its method, which is fit for a member. -/
theorem name_of_recordFunction {s : Scope} {m : Method} {function : Function}
    (h : recordFunction s m = .ok function) :
    function.name = m.name ∧ isMemberName m.name = true := by
  unfold recordFunction at h
  split at h
  · next hcreate =>
    obtain ⟨_, -, h⟩ := bind_eq_ok_iff.mp h
    cases h
    exact ⟨hcreate.symm, hcreate ▸ by decide⟩
  · next hassign =>
    dsimp only at h
    obtain ⟨_, -, h⟩ := bind_eq_ok_iff.mp h
    cases h
    exact ⟨hassign.symm, hassign ▸ by decide⟩
  · cases h

/-- A record type: the structure of its fields, and the block of its methods. -/
theorem memberNames_of_recordItems (hmethods : (c.methods.map (·.name)).Nodup)
    (h : recordItems config c = .ok items) :
    ∃ names, items.map (·.memberNames) = [c.fields.map (identifier ·.name), names] ∧
      ClearNames names := by
  unfold recordItems at h
  obtain ⟨functions, hfunctions, h⟩ := bind_eq_ok_iff.mp h
  cases h
  have hnames := map_eq_of_mapM (fun _ _ hfunction => (name_of_recordFunction hfunction).1)
    hfunctions
  refine ⟨functions.map (·.name), by simp [Function.comp_def], ?_, ?_⟩
  · rw [hnames]
    exact hmethods.sublist (List.filter_sublist.map _)
  · rw [hnames]
    intro name hname
    obtain ⟨m, hm, rfl⟩ := List.mem_map.mp hname
    obtain ⟨function, -, hfunction⟩ := exists_mem_of_forall₂ (mapM_eq_ok_iff.mp hfunctions) m hm
    exact (name_of_recordFunction hfunction).2

/-- A declared class is emitted as its structure, the block of its functions, and items whose
members never clash. -/
theorem memberNames_of_classItems (hc : PropertiesOnly c) (horigin : c.origin = .declared)
    (h : classItems config m c = .ok items) :
    ∃ more, items.map (·.memberNames) = fieldNames m c :: functionNames c :: more ∧
      ∀ names ∈ more, ClearNames names := by
  unfold classItems at h
  rw [horigin] at h
  dsimp only at h
  split at h
  · next hframed => exact memberNames_of_framedItems hc hframed h
  · next hframed => exact memberNames_of_plainItems hc (by simpa using hframed) h

end VersionedObjects.Emission
