import VersionedObjects.Proofs.Framing.FramedAgain
import VersionedObjects.Proofs.Framing.Redirected

/-!
# Storage that moves into records

A framed class keeps nothing of its framed properties to itself: their values live in the fields
of the record type, accessors go through records, and initializers are stored into the first
record. The class is otherwise as it was. Where a class declares several properties of a name, it
is the first of them that moves, mutable or not. Main statement: `Pipeline.storage_moved`.
-/

namespace VersionedObjects.Framing

open Declaration

/-! ## One property -/

/-- The accessor that a property without a getter has. -/
def plainGetter : Accessor :=
  { body := [.return .backing] }

/-- The accessor that a mutable property without a setter has. -/
def plainSetter : Accessor :=
  { param := some "value", body := [.assign .backing (.name "value")] }

/-- A property of a host beside that of its class: its value lives in records. -/
structure MovedInto (recordType : TypeExpr) (p host : Property) : Prop where
  name : host.name = p.name
  type : host.type = p.type
  mutable : host.mutable = p.mutable
  initializer : host.initializer = none
  getter : ∃ body, host.getter = some { body } ∧
    List.Forall₂ (ReplacesIn (readableField recordType p.name) (writableField recordType p.name))
      (p.getter.getD plainGetter).body body
  setter : p.mutable = true → ∃ body,
    host.setter = some { param := (p.setter.getD plainSetter).param, body } ∧
    List.Forall₂ (ReplacesIn (readableField recordType p.name) (writableField recordType p.name))
      (p.setter.getD plainSetter).body body
  /-- A property that is not mutable is given no setter. -/
  setter_val : p.mutable = false → host.setter = p.setter

/-- A property without its initializer and with redirected accessors has moved into the record. -/
theorem movedInto_redirectProperty (recordType : TypeExpr) (p : Property) :
    MovedInto recordType p
      (Rule.redirectProperty recordType (Rule.withoutInitializer p)) := by
  have hbody := replacesIn_redirectStmts (readableField recordType p.name)
    (writableField recordType p.name)
  obtain ⟨name, type, mutable, initializer, getter, setter⟩ := p
  refine
    { name := rfl, type := rfl, mutable := rfl, initializer := rfl
      getter := ?_, setter := fun hvar => ?_, setter_val := fun hval => ?_ }
  · cases getter with
    | none => exact ⟨_, rfl, hbody plainGetter.body⟩
    | some getter => exact ⟨_, rfl, hbody getter.body⟩
  · cases hvar
    cases setter with
    | none => exact ⟨_, rfl, hbody plainSetter.body⟩
    | some setter => exact ⟨_, rfl, hbody setter.body⟩
  · cases hval
    rfl

/-- Properties of a host beside those of its class: the first property of each name is moved and
every other one is as it was. -/
inductive MovesFirsts (recordType : TypeExpr) :
    List String → List Property → List Property → Prop where
  | nil {names} : MovesFirsts recordType names [] []
  | moved {names p host ps hosts} : p.name ∈ names → MovedInto recordType p host →
      MovesFirsts recordType (names.erase p.name) ps hosts →
      MovesFirsts recordType names (p :: ps) (host :: hosts)
  | kept {names p ps hosts} : p.name ∉ names → MovesFirsts recordType names ps hosts →
      MovesFirsts recordType names (p :: ps) (p :: hosts)

/-- By induction on the properties, with the names of which none was met yet. -/
theorem movesFirsts_changeFirsts (recordType : TypeExpr) (names : List String)
    (ps : List Property) :
    MovesFirsts recordType names ps
      (Rule.changeFirsts (Rule.redirectProperty recordType ∘ Rule.withoutInitializer) names
        ps) := by
  induction ps generalizing names with
  | nil => exact .nil
  | cons p rest ih =>
    rw [Rule.changeFirsts]
    split
    · next hmem =>
      exact .moved (by simpa using hmem) (movedInto_redirectProperty recordType p) (ih _)
    · next hmem => exact .kept (by simpa using hmem) (ih names)

/-! ## One class -/

/-- The storage of the framed properties of a class is moved into records. -/
structure MovesStorage (m : Module) (c : ClassDecl) (recordType : TypeExpr) (t : FramedClass) :
    Prop where
  /-- The framed properties are those of the facts, each once. -/
  framed_nodup : t.framed.Nodup
  framed_sublist : t.framed.Sublist (classFacts m c).properties
  framed_complete : (classFacts m c).properties ⊆ t.framed
  record_name : t.record.name = recordType.name
  record_fields : List.Forall₂
    (fun name field => ∃ q, c.property? name = some q ∧ field = { name, type := q.type })
    t.framed t.record.fields
  /-- Records are assigned slot by slot. -/
  record_assign : (t.record.method? "assign").map (·.body) = some (t.framed.map fun name =>
    .assign (.member .this name) (.member (.cast (.name "other") recordType) name))
  properties : MovesFirsts recordType t.framed c.properties t.host.properties
  /-- Nothing is left of the stored values, also where a name is declared again. -/
  detached : ∀ q ∈ t.host.properties, q.name ∈ t.framed → q.initializer = none ∧
    q.getter.isSome = true ∧ (∀ getter ∈ q.getter, getter.usesBacking = false) ∧
    ∀ setter ∈ q.setter, setter.usesBacking = false
  setters : DistinctProperties c → ∀ q ∈ t.host.properties, q.name ∈ t.framed →
    q.setter.isSome = true
  /-- The first record is made, filled and announced ahead of everything else. -/
  initializers : t.host.initializers =
    (.assign chainExpr (.newChain (.newRecord recordType)) ::
      (t.framed.filterMap fun name => ((c.property? name).bind (·.initializer)).map fun value =>
        .assign (firstRecordField recordType name) value) ++ [.notifyCreated]) :: c.initializers
  rest : t.host = { c with
    properties := t.host.properties
    initializers := t.host.initializers
    supertypes := c.supertypes ++ [.named framedMarker]
    fields := c.fields ++ [{ name := recordField, type := recordType, isHidden := true }]
    methods := c.methods ++ missingOperations c recordType }

/-- The slots of the record are those of the named properties, in order and with their types. -/
theorem forall₂_recordSlot {c : ClassDecl} {ps : List Property}
    (hfound : ∀ p ∈ ps, c.property? p.name = some p) :
    List.Forall₂
      (fun name field => ∃ q, c.property? name = some q ∧ field = { name, type := q.type })
      (ps.map (·.name)) (ps.map Rule.recordSlot) := by
  rw [List.forall₂_map_left_iff, List.forall₂_map_right_iff, List.forall₂_same]
  exact fun p hp => ⟨p, hfound p hp, rfl⟩

/-- The stores in front of the first initializer are one for each property that had a value. -/
theorem flatMap_initialStore {c : ClassDecl} (recordType : TypeExpr) {ps : List Property}
    (hfound : ∀ p ∈ ps, c.property? p.name = some p) :
    ps.flatMap (Rule.initialStore recordType) =
      (ps.map (·.name)).filterMap fun name =>
        ((c.property? name).bind (·.initializer)).map fun value =>
          .assign (firstRecordField recordType name) value := by
  induction ps with
  | nil => rfl
  | cons p rest ih =>
    rw [List.forall_mem_cons] at hfound
    rw [List.flatMap_cons, List.map_cons, List.filterMap_cons, ih hfound.2, hfound.1,
      Option.bind_some]
    cases hinitializer : p.initializer <;> simp [Rule.initialStore, hinitializer]

namespace Pipeline

/-- Framing a class moves its storage into the record. -/
theorem FramesAs.movesStorage {p : Pipeline} {m : Module} {i : Nat} {c : ClassDecl}
    {ps : List Property} {base : ClassDecl} {t : FramedClass}
    (h : p.FramesAs m (classFacts m c).properties i c ps base t) :
    MovesStorage m c (.named (c.name ++ p.recordSuffix)) t := by
  have hdetached := h.detached
  obtain rfl := h.eq
  exact
    { framed_nodup := h.selects.nodup
      framed_sublist := h.selects.sublist
      framed_complete := fun name hname => by
        obtain ⟨q, hq, rfl, -⟩ := exists_mutable_of_mem_classFacts hname
        exact h.selects.complete _ hname (List.find?_isSome.mpr ⟨q, hq, by simp⟩)
      record_name := rfl
      record_fields := forall₂_recordSlot h.selects.found
      record_assign := rfl
      properties := movesFirsts_changeFirsts ..
      detached := fun q hq hname => by
        obtain ⟨hinitializer, hreach⟩ := hdetached q hq hname
        exact ⟨hinitializer, Rule.reachesBacking_eq_false_iff.mp hreach⟩
      setters := fun hc q hq hname => by
        obtain ⟨old, hvar, rfl⟩ := h.selects.exists_mutable_of_mem_hostOf hc
          (fun name => exists_mutable_of_mem_classFacts) hq hname
        simp [Rule.redirectProperty, Rule.withoutInitializer, hvar]
      initializers := by
        rw [← flatMap_initialStore _ h.selects.found]
        rfl
      rest := rfl }

/-! ## The classes of a module -/

/-- By induction on the classes: what is framed was a class. -/
theorem exists_transformClass_of_mem {m : Module} {facts : Facts} {p : Pipeline} {out : Outcome}
    {classes : List ClassDecl} {t : FramedClass}
    (h : t ∈ (transformClasses m facts p out classes).1.transformed) :
    t ∈ out.transformed ∨ ∃ c ∈ classes, ∃ stats i,
      (transformClass { p with stats } m ((facts.get? c.name).getD {}) i c).1 = .ok (some t) := by
  induction classes generalizing p out with
  | nil => exact .inl h
  | cons c rest ih =>
    obtain ⟨stats, hnext⟩ :=
      p.transformClass_snd m ((facts.get? c.name).getD {}) out.module.classes.length c
    unfold transformClasses at h
    dsimp only at h
    rw [hnext] at h
    have hlater {next : Outcome}
        (h : t ∈ (transformClasses m facts { p with stats } next rest).1.transformed) :
        t ∈ next.transformed ∨ ∃ d ∈ c :: rest, ∃ stats i,
          (transformClass { p with stats } m ((facts.get? d.name).getD {}) i d).1 =
            .ok (some t) := by
      obtain hmem | ⟨d, hd, hframed⟩ := ih h
      · exact .inl hmem
      · exact .inr ⟨d, List.mem_cons_of_mem c hd, hframed⟩
    split at h
    · next u hu =>
      rcases hlater h with hmem | hframed
      · rcases List.mem_append.mp hmem with hold | hnew
        · exact .inl hold
        · obtain rfl := List.mem_singleton.mp hnew
          exact .inr ⟨c, List.mem_cons_self, p.stats, _, hu⟩
      · exact .inr hframed
    · exact (hlater h).imp_left id
    · exact (hlater h).imp_left id

/-- **Moved storage.** Whatever the environment, the base and the suffix of a pipeline of all
rules: each class that it frames in a module, its classes having different names, has the storage
of its framed properties moved into a record type, which stands behind it, and nothing else of it
is changed. -/
theorem storage_moved {p : Pipeline} (hp : p.rules = Rule.all) {m : Module}
    (hm : (m.classes.map (·.name)).Nodup) :
    ∀ t ∈ (p.transform m).1.transformed,
      [t.host, t.record] <:+: (p.transform m).1.module.classes ∧
      ∃ c ∈ m.classes, MovesStorage m c (.named (c.name ++ p.recordSuffix)) t := by
  intro t ht
  obtain ⟨added, framed, hadded, hframed, hexpands⟩ := expands_transformClasses p m
    (Facts.analyze m) { module := {}, transformed := [], summary := {} } m.classes
  rw [List.nil_append] at hadded hframed
  obtain ⟨-, -, -, front, back, -, -, -, hout, -⟩ := hexpands.split_of_mem (hframed ▸ ht)
  refine ⟨⟨front, back, ?_⟩, ?_⟩
  · rw [transform, transformWith, hadded, hout]
    simp
  · obtain hnone | ⟨c, hc, stats, i, hframes⟩ := exists_transformClass_of_mem ht
    · cases hnone
    · rw [get?_analyze hm hc, Option.getD_some] at hframes
      obtain ⟨ps, base, hframes⟩ := framesAs_of_transformClass (p := { p with stats }) hp hframes
      exact ⟨c, hc, hframes.movesStorage⟩

/-- A class of three properties: a mutable one with accessors that use the stored value within a
list and a path, one that is not mutable, and a mutable one without accessors. -/
def tray : Module :=
  let path : Expr := .member .backing "head"
  let size : Property :=
    { name := "size", type := .named "Int", mutable := true
      initializer := some (.literal (.int 1))
      getter := some { body := [.return (.list [.backing, path])] }
      setter := some { param := some "next", body :=
        [.assign .backing (.name "next"), .assign path (.list [.backing])] } }
  let label : Property := { name := "label", type := .named "String", mutable := false }
  let count : Property := { name := "count", type := .named "Int", mutable := true }
  ⟨[{ name := "Tray", annotations := [framedMark], properties := [size, label, count] }]⟩

/-- Two properties of the class move. -/
theorem storage_moved_tray :
    standard.rules = Rule.all ∧ (tray.classes.map (·.name)).Nodup ∧
    ∃ t ∈ (standard.transform tray).1.transformed, t.framed = ["size", "count"] ∧
      [t.host, t.record] <:+: (standard.transform tray).1.module.classes ∧
      ∃ c ∈ tray.classes, MovesStorage tray c (.named (c.name ++ standard.recordSuffix)) t := by
  have hm : (tray.classes.map (·.name)).Nodup := by decide
  have hframed : (standard.transform tray).1.transformed.map (·.framed) = [["size", "count"]] := by
    rw [standard_eq]
    decide +kernel
  have hmem : ["size", "count"] ∈ (standard.transform tray).1.transformed.map (·.framed) :=
    hframed ▸ List.mem_singleton_self _
  obtain ⟨t, ht, hnames⟩ := List.mem_map.mp hmem
  obtain ⟨hplace, hmoves⟩ := storage_moved usual_standard.rules hm t ht
  exact ⟨usual_standard.rules, hm, t, ht, hnames, hplace, hmoves⟩

/-- A class that declares a property twice: first with a value that is not mutable, and then as
mutable and computed. -/
def twins : Module :=
  let stored : Property :=
    { name := "size", type := .named "Int", mutable := false
      initializer := some (.literal (.int 1)) }
  let computed : Property :=
    { name := "size", type := .named "Int", mutable := true
      getter := some { body := [.return (.literal (.int 2))] } }
  ⟨[{ name := "Box", annotations := [framedMark], properties := [stored, computed] }]⟩

/-- It is the mutable property that is to be framed, and the other one that moves: its value goes
into the record type, and no property of the name has a setter. -/
theorem val_moved :
    (twins.classes.map (·.name)).Nodup ∧
    let out := (standard.transform twins).1
    out.summary.errors = [] ∧
    (out.transformed.map fun t => (t.framed, t.record.fields.map (·.name))) =
      [(["size"], ["size"])] ∧
    (out.transformed.map fun t =>
      t.host.properties.map fun q => (q.name, q.mutable, q.setter.isSome)) =
        [[("size", false, false), ("size", true, false)]] := by
  rw [standard_eq]
  decide +kernel

end Pipeline

end VersionedObjects.Framing
