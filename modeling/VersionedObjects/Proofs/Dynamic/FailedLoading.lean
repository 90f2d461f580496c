import VersionedObjects.Proofs.Dynamic.LoadedTables
import VersionedObjects.Proofs.Framing.RecordNames
import VersionedObjects.Proofs.Grammar.Sourced

/-!
# Loading that fails

Classes are loaded one by one, up to the first whose record type the module does not have. The
classes before it stay loaded. Only a class that had its record chain before the module was framed
can lack its record type, so a text, which cannot declare one, is loaded as a whole or not at all.
Main statement: `failed_loading`.
-/

namespace VersionedObjects.Dynamic

open Declaration Framing
open Store (ManagerId)

/-! ## One class -/

/-- The field for the record chain of a class, if the module does not have the record type. -/
def orphan? (m : Module) (c : ClassDecl) : Option Field :=
  (c.field? recordField).filter fun field => (m.class? field.type.name).isNone

/-- Why a class cannot be loaded without its record type. -/
def missingRecord (c : ClassDecl) (field : Field) : EvalError :=
  .load (c.name ++ " is framed but " ++ field.type.name ++ " is missing")

/-- A class with the record type that the module has for it. -/
def loadedAs (m : Module) (c : ClassDecl) : LoadedClass :=
  let record := (c.field? recordField).bind fun field => m.class? field.type.name
  { decl := c, record, layout := LoadedClass.layoutOf record }

/-- A class can be loaded unless it lacks its record type. -/
theorem ofModule_eq (m : Module) (c : ClassDecl) : LoadedClass.ofModule m c =
    match orphan? m c with
    | some field => .error (missingRecord c field)
    | none => .ok (loadedAs m c) := by
  rw [LoadedClass.ofModule, orphan?, loadedAs]
  cases c.field? recordField with
  | none => rfl
  | some field =>
    rw [Option.filter_some, Option.bind_some]
    dsimp only
    cases m.class? field.type.name with
    | none => rfl
    | some record => rfl

/-! ## Classes in order -/

/-- The classes of a module that are loaded. -/
def declaredIn (classes : List ClassDecl) : List ClassDecl :=
  classes.filter fun c => c.origin = .declared

/-- The table after loaded classes were put into it in order. -/
def ClassTable.putAll (table : ClassTable) (loaded : List LoadedClass) : ClassTable :=
  loaded.foldl (fun table c => Association.put table c.name c) table

/-- The last of the loaded classes that has a name. -/
def lastNamed? (loaded : List LoadedClass) (name : String) : Option LoadedClass :=
  loaded.reverse.find? (·.name == name)

/-- After classes are put into a table, a name means the last of them that has it, or else what it
meant before. -/
theorem get?_putAll (table : ClassTable) (loaded : List LoadedClass) (name : String) :
    (table.putAll loaded).get? name = (lastNamed? loaded name).or (table.get? name) := by
  induction loaded generalizing table with
  | nil => rfl
  | cons c rest ih =>
    rw [ClassTable.putAll, List.foldl_cons, ← ClassTable.putAll, ih, lastNamed?, lastNamed?,
      List.reverse_cons, List.find?_append, Option.or_assoc]
    congr 1
    by_cases hname : c.name = name
    · subst hname
      rw [Association.get?_put_self]
      simp
    · rw [Association.get?_put_of_ne c (Ne.symm hname)]
      simp [hname]

section First

variable {table : ClassTable} {m : Module} {c : ClassDecl} {rest : List ClassDecl}

/-- A class that lacks its record type ends the loading. -/
theorem load_orphan (horigin : c.origin = .declared) {field : Field}
    (horphan : orphan? m c = some field) :
    table.load m (c :: rest) = (.error (missingRecord c field), table) := by
  rw [ClassTable.load, horigin, ofModule_eq, horphan]
  rfl

/-- After a class that does not lack it, the loading fails as it fails for the other classes. -/
theorem load_loadable_eq_error_iff (horigin : c.origin = .declared) (horphan : orphan? m c = none)
    {later : ClassTable} {e : EvalError} :
    table.load m (c :: rest) = (.error e, later) ↔
      ClassTable.load (Association.put table c.name (loadedAs m c)) m rest = (.error e, later) := by
  have hload : table.load m (c :: rest) =
      ((ClassTable.load (Association.put table c.name (loadedAs m c)) m rest).1.map (c.name :: ·),
        (ClassTable.load (Association.put table c.name (loadedAs m c)) m rest).2) := by
    rw [ClassTable.load, horigin, ofModule_eq, horphan]
    rfl
  have hmap {names : Except EvalError (List String)} :
      names.map (c.name :: ·) = .error e ↔ names = .error e := by
    cases names <;> simp [Except.map]
  rw [hload, Prod.mk.injEq, hmap, ← Prod.mk.injEq]

end First

/-- By induction on the classes: the first class that lacks its record type ends the loading. -/
theorem load_eq_error_iff {table later : ClassTable} {m : Module} {classes : List ClassDecl}
    {e : EvalError} : table.load m classes = (.error e, later) ↔
      ∃ before c after field, declaredIn classes = before ++ c :: after ∧
        (∀ b ∈ before, orphan? m b = none) ∧ orphan? m c = some field ∧
        e = missingRecord c field ∧ later = table.putAll (before.map (loadedAs m)) := by
  induction classes generalizing table with
  | nil =>
    constructor
    · intro h
      cases h
    · rintro ⟨before, c, after, field, hsplit, -⟩
      simp [declaredIn] at hsplit
  | cons decl rest ih =>
    by_cases horigin : decl.origin = .declared
    · have hdeclared : declaredIn (decl :: rest) = decl :: declaredIn rest := by
        simp [declaredIn, horigin]
      rw [hdeclared]
      cases horphan : orphan? m decl with
      | some field =>
        rw [load_orphan horigin horphan]
        constructor
        · intro h
          cases h
          exact ⟨[], decl, declaredIn rest, field, rfl, List.forall_mem_nil _, horphan, rfl, rfl⟩
        · rintro ⟨before, c, after, other, hsplit, hbefore, hother, rfl, rfl⟩
          cases before with
          | nil =>
            obtain ⟨rfl, -⟩ := List.cons.inj hsplit
            obtain rfl := Option.some.inj (horphan.symm.trans hother)
            rfl
          | cons b before =>
            obtain ⟨rfl, -⟩ := List.cons.inj hsplit
            rw [hbefore decl List.mem_cons_self] at horphan
            cases horphan
      | none =>
        rw [load_loadable_eq_error_iff horigin horphan, ih]
        constructor
        · rintro ⟨before, c, after, field, hsplit, hbefore, hc, he, hlater⟩
          exact ⟨decl :: before, c, after, field, by rw [hsplit]; rfl,
            List.forall_mem_cons.mpr ⟨horphan, hbefore⟩, hc, he, hlater⟩
        · rintro ⟨before, c, after, field, hsplit, hbefore, hc, he, hlater⟩
          cases before with
          | nil =>
            obtain ⟨rfl, -⟩ := List.cons.inj hsplit
            rw [horphan] at hc
            cases hc
          | cons b before =>
            obtain ⟨rfl, hrest⟩ := List.cons.inj hsplit
            exact ⟨before, c, after, field, hrest, (List.forall_mem_cons.mp hbefore).2, hc, he,
              hlater⟩
    · have hdropped : declaredIn (decl :: rest) = declaredIn rest := by
        simp [declaredIn, horigin]
      rw [hdropped, load_record horigin, ih]

/-- Loading fails if some class that is loaded lacks its record type. -/
theorem exists_load_eq_error_iff (table : ClassTable) (m : Module) (classes : List ClassDecl) :
    (∃ e, (table.load m classes).1 = .error e) ↔
      ∃ c ∈ declaredIn classes, (orphan? m c).isSome = true := by
  constructor
  · rintro ⟨e, he⟩
    obtain ⟨before, c, after, field, hsplit, -, hc, -⟩ :=
      load_eq_error_iff.mp (Prod.ext he rfl : table.load m classes = (.error e, _))
    exact ⟨c, hsplit ▸ by simp, hc ▸ rfl⟩
  · rintro ⟨c, hmem, hc⟩
    obtain ⟨first, hfirst⟩ : ∃ first, (declaredIn classes).find? (orphan? m · |>.isSome) =
        some first := by
      rw [← Option.isSome_iff_exists, List.find?_isSome]
      exact ⟨c, hmem, hc⟩
    obtain ⟨horphan, before, after, hsplit, hbefore⟩ := List.find?_eq_some_iff_append.mp hfirst
    obtain ⟨field, hfield⟩ := Option.isSome_iff_exists.mp horphan
    exact ⟨_, congrArg Prod.fst (load_eq_error_iff.mpr ⟨before, first, after, field, hsplit,
      fun b hb => by simpa using hbefore b hb, hfield, rfl, rfl⟩)⟩

/-! ## Framed modules -/

/-- Only a class that had its record chain before can lack its record type. -/
theorem mem_of_orphan? {rules : List Rule} {suffix : String} {i : Nat}
    {classes out : List ClassDecl} {framed : List FramedClass}
    (h : Expands rules suffix i classes out framed) {m : Module}
    (hout : ∀ d ∈ out, d ∈ m.classes) {d : ClassDecl} (hd : d ∈ declaredIn out) {field : Field}
    (horphan : orphan? m d = some field) : d ∈ classes := by
  obtain ⟨hfield, hmissing⟩ := Option.filter_eq_some_iff.mp horphan
  rw [declaredIn, List.mem_filter, decide_eq_true_eq] at hd
  obtain ⟨hd, horigin⟩ := hd
  induction h with
  | nil => exact hd
  | kept c _ ih =>
    rcases List.mem_cons.mp hd with rfl | hd
    · exact List.mem_cons_self
    · exact List.mem_cons_of_mem _ (ih (fun e he => hout e (List.mem_cons_of_mem _ he)) hd)
  | @framed i classes out framed c t ht _ ih =>
    rcases List.mem_cons.mp hd with rfl | hd
    · -- The record type of a host comes right behind it.
      have hrecord : t.record ∈ m.classes :=
        hout _ (List.mem_cons_of_mem _ List.mem_cons_self)
      have hname : t.record.name = field.type.name := by
        rw [ht.record_name, ht.chain_type field hfield]
        rfl
      rw [Module.class?, Option.isNone_iff_eq_none, List.find?_eq_none] at hmissing
      exact absurd (beq_iff_eq.mpr hname) (hmissing _ hrecord)
    rcases List.mem_cons.mp hd with rfl | hd
    · rw [ht.record_origin] at horigin
      cases horigin
    · exact List.mem_cons_of_mem _ (ih (fun e he =>
        hout e (List.mem_cons_of_mem _ (List.mem_cons_of_mem _ he))) hd)

namespace Runtime

/-- Loading fails at the first declared class that lacks its record type; the classes before it are
in the table, the later of one name in place of the earlier. -/
theorem loadFramed_eq_error_iff {r later : Runtime} {m : ManagerId} {module : Module}
    {e : EvalError} : r.loadFramed m module = (.error e, later) ↔
      ∃ before c after field, declaredIn module.classes = before ++ c :: after ∧
        (∀ b ∈ before, orphan? module b = none) ∧ orphan? module c = some field ∧
        e = missingRecord c field ∧
        later = r.setTable m ((r.table m).putAll (before.map (loadedAs module))) := by
  rw [loadFramed]
  dsimp only
  constructor
  · intro h
    obtain ⟨he, rfl⟩ := Prod.mk.inj h
    obtain ⟨before, c, after, field, hsplit, hbefore, hc, herror, htable⟩ :=
      load_eq_error_iff.mp (Prod.ext he rfl)
    exact ⟨before, c, after, field, hsplit, hbefore, hc, herror,
      congrArg (r.setTable m) htable⟩
  · rintro ⟨before, c, after, field, hsplit, hbefore, hc, rfl, rfl⟩
    rw [load_eq_error_iff.mpr ⟨before, c, after, field, hsplit, hbefore, hc, rfl, rfl⟩]

/-- A module is not framed, and nothing is loaded, or it is framed without an error and one of its
own classes lacks its record type. -/
theorem of_loadModule_error {r later : Runtime} {m : ManagerId} {module : Module}
    {e : ProgramError} (h : r.loadModule m module = (.error e, later)) :
    (∃ error, e = .framing error) ∧ later = r ∨
      let out := (Pipeline.standard.transform module).1.module
      ∃ error, e = .eval error ∧ r.loadFramed m out = (.error error, later) ∧
        ∃ c ∈ module.classes, (orphan? out c).isSome = true := by
  unfold loadModule at h
  dsimp only at h
  split at h
  · cases h
    exact .inl ⟨⟨_, rfl⟩, rfl⟩
  · split at h
    · cases h
    · next error r' hload =>
      cases h
      obtain ⟨before, c, after, field, hsplit, -, hc, -⟩ := loadFramed_eq_error_iff.mp hload
      obtain ⟨added, framed, hadded, -, hexpands⟩ := Pipeline.expands_transformClasses
        Pipeline.standard module (Facts.analyze module)
        { module := {}, transformed := [], summary := {} } module.classes
      rw [List.nil_append] at hadded
      have hout : (Pipeline.standard.transform module).1.module.classes = added := hadded
      have hmem : c ∈ declaredIn added := by
        rw [← hout, hsplit]
        simp
      exact .inr ⟨error, rfl, hload, c, mem_of_orphan? hexpands (fun d hd => hout ▸ hd) hmem hc,
        hc ▸ rfl⟩

/-- A text is loaded as a whole or not at all. -/
theorem eq_of_loadSource_error {r later : Runtime} {m : ManagerId} {source : String}
    {e : ProgramError} (h : r.loadSource m source = (.error e, later)) : later = r := by
  unfold loadSource at h
  split at h
  · next module hparse =>
    rcases of_loadModule_error h with ⟨-, hsame⟩ | ⟨error, -, -, c, hc, horphan⟩
    · exact hsame
    · -- A text declares no fields.
      have hsourced := Grammar.sourced_of_parseModule hparse c hc
      rw [orphan?, ClassDecl.field?, hsourced.fields] at horphan
      cases horphan
  · cases h
    rfl

/-- The table of a manager is the one that was set. -/
theorem table_setTable {r : Runtime} {m : ManagerId} (hm : m < r.tables.length)
    (table : ClassTable) : (r.setTable m table).table m = table := by
  simp [Runtime.table, setTable, hm]

end Runtime

/-! ## What is left of a failed attempt -/

/-- **Loading that fails.** A text that cannot be loaded changes nothing, and neither do
declarations that cannot be framed. A framed module is loaded up to the first declared class that
lacks its record type, and fails just where there is one; in declarations that is a class whose
record chain was declared with it. The classes before it are in the table then, so the loaded
classes are what they were just where each of those was loaded already. -/
theorem failed_loading {r : Runtime} {m : ManagerId} (hm : m < r.tables.length) :
    (∀ source e later, r.loadSource m source = (.error e, later) → later = r) ∧
    (∀ module e later, r.loadModule m module = (.error e, later) →
      (∃ error, e = .framing error) ∧ later = r ∨
        let out := (Pipeline.standard.transform module).1.module
        ∃ error, e = .eval error ∧ r.loadFramed m out = (.error error, later) ∧
          ∃ c ∈ module.classes, (orphan? out c).isSome = true) ∧
    (∀ module, (∃ e later, r.loadFramed m module = (.error e, later)) ↔
      ∃ c ∈ declaredIn module.classes, (orphan? module c).isSome = true) ∧
    ∀ module e later, r.loadFramed m module = (.error e, later) →
      ∃ before c after field, declaredIn module.classes = before ++ c :: after ∧
        (∀ b ∈ before, orphan? module b = none) ∧ orphan? module c = some field ∧
        e = missingRecord c field ∧
        later = r.setTable m ((r.table m).putAll (before.map (loadedAs module))) ∧
        (∀ name, (later.table m).get? name =
          (lastNamed? (before.map (loadedAs module)) name).or ((r.table m).get? name)) ∧
        ((∀ name, (later.table m).get? name = (r.table m).get? name) ↔
          ∀ name b, lastNamed? (before.map (loadedAs module)) name = some b →
            (r.table m).get? name = some b) := by
  refine ⟨fun _ _ _ => Runtime.eq_of_loadSource_error, fun _ _ _ => Runtime.of_loadModule_error,
    fun module => ?_, fun module e later h => ?_⟩
  · rw [← exists_load_eq_error_iff (r.table m)]
    constructor
    · rintro ⟨e, later, h⟩
      exact ⟨e, congrArg Prod.fst h⟩
    · rintro ⟨e, h⟩
      exact ⟨e, _, Prod.ext h rfl⟩
  · obtain ⟨before, c, after, field, hsplit, hbefore, hc, rfl, rfl⟩ :=
      Runtime.loadFramed_eq_error_iff.mp h
    have hget (name : String) := get?_putAll (r.table m) (before.map (loadedAs module)) name
    refine ⟨before, c, after, field, hsplit, hbefore, hc, rfl, rfl, fun name => ?_, ?_⟩
    · rw [Runtime.table_setTable hm, hget]
    · rw [Runtime.table_setTable hm]
      refine forall_congr' fun name => ?_
      rw [hget]
      cases lastNamed? (before.map (loadedAs module)) name with
      | none => simp
      | some b => simp [eq_comm]

/-- A class without a record chain comes before one that has a chain and no record type. -/
def widowedModule : Module :=
  ⟨[{ name := "A" }, { name := "B", fields := [{ name := recordField, type := .named "Nope" }] },
    { name := "C" }]⟩

/-- The class before the one that cannot be loaded is loaded, although loading fails. -/
theorem loaded_before_failure :
    (¬ ∀ (r : Runtime) (m : ManagerId) (module : Module) (e : ProgramError) (later : Runtime),
      r.loadModule m module = (.error e, later) →
        ∀ name, (later.table m).get? name = (r.table m).get? name) ∧
    ¬ ∀ (r : Runtime) (m : ManagerId) (module : Module) (e : EvalError) (later : Runtime),
      r.loadFramed m module = (.error e, later) →
        ∀ name, (later.table m).get? name = (r.table m).get? name := by
  let r : Runtime := ({} : Runtime).addManager {}
  constructor
  · intro h
    have hsame := h r 0 widowedModule (.eval (.load "B is framed but Nope is missing")) _
      (Prod.ext rfl rfl) "A"
    exact absurd (congrArg Option.isSome hsame) (by decide)
  · intro h
    have hsame := h r 0 widowedModule (.load "B is framed but Nope is missing") _
      (Prod.ext rfl rfl) "A"
    exact absurd (congrArg Option.isSome hsame) (by decide)

/-- The first attempt leaves the class before the one that cannot be loaded, and the second one
changes nothing any more. -/
theorem failed_loading_twice :
    let r : Runtime := ({} : Runtime).addManager {}
    let once := (r.loadFramed 0 widowedModule).2
    let twice := (once.loadFramed 0 widowedModule).2
    (once.table 0).get? "A" = some (loadedAs widowedModule { name := "A" }) ∧
      ∀ name, (twice.table 0).get? name = (once.table 0).get? name := by
  intro r once twice
  obtain ⟨-, -, -, hfailed⟩ := failed_loading (show 0 < once.tables.length by decide)
  obtain ⟨before, c, after, field, hsplit, hbefore, hc, -, -, -, hiff⟩ :=
    hfailed widowedModule (.load "B is framed but Nope is missing") twice (Prod.ext rfl rfl)
  have hloaded : (once.table 0).get? "A" = some (loadedAs widowedModule { name := "A" }) := rfl
  refine ⟨hloaded, hiff.mpr fun name b hb => ?_⟩
  -- The class that fails is the second one, so the one before it is the first.
  obtain rfl : before = [{ name := "A" }] := by
    rcases before with - | ⟨first, - | ⟨second, before⟩⟩
    · obtain ⟨rfl, -⟩ := List.cons.inj hsplit
      cases hc
    · obtain ⟨rfl, -⟩ := List.cons.inj hsplit
      rfl
    · obtain ⟨-, hrest⟩ := List.cons.inj hsplit
      obtain ⟨rfl, -⟩ := List.cons.inj hrest
      cases hbefore _ (List.mem_cons_of_mem _ List.mem_cons_self)
  obtain rfl : b = loadedAs widowedModule { name := "A" } :=
    List.mem_singleton.mp (List.mem_of_find?_eq_some hb)
  have hname : (loadedAs widowedModule { name := "A" }).name = name := by
    simpa using List.find?_some hb
  obtain rfl : "A" = name := hname
  exact hloaded

end VersionedObjects.Dynamic
