import VersionedObjects.Proofs.Framing.ClassByClass

/-!
# Framing what is framed

What comes out of framing leaves nothing to frame: hosts bear the record chain, record types bear
no mark, and a class that had nothing to frame still has nothing, because it has at least the
ancestors that it had, and they own the same properties. The record types may make ancestors of
names that led nowhere before; they only add to what is owned. Main statement:
`Pipeline.transform_framed`.
-/

namespace VersionedObjects.Framing

open Declaration

/-! ## Classes that resemble others -/

/-- A class has of another what the facts of a module are drawn from. -/
structure Resembles (c d : ClassDecl) : Prop where
  name : d.name = c.name
  annotations : d.annotations = c.annotations
  superclass : d.superclass? = c.superclass?
  properties : d.properties.map (fun p => (p.name, p.mutable)) =
    c.properties.map fun p => (p.name, p.mutable)
  framed : c.isFramed = true → d.isFramed = true

namespace Resembles

variable {c d e : ClassDecl}

/-- Every class resembles itself. -/
theorem refl (c : ClassDecl) : Resembles c c :=
  ⟨rfl, rfl, rfl, rfl, id⟩

/-- Resemblance passes along a line of edits. -/
theorem trans (h : Resembles c d) (h' : Resembles d e) : Resembles c e :=
  ⟨h'.name.trans h.name, h'.annotations.trans h.annotations, h'.superclass.trans h.superclass,
    h'.properties.trans h.properties, h'.framed ∘ h.framed⟩

/-- A class that resembles a framed class is framed or about to be. -/
theorem isOrWillBeFramed (h : Resembles c d) (hc : isOrWillBeFramed c = true) :
    isOrWillBeFramed d = true := by
  rw [Framing.isOrWillBeFramed, ClassDecl.hasMark, Bool.or_eq_true] at hc ⊢
  rw [h.annotations]
  exact hc.imp_right h.framed

/-- Every property has one of its name and mutability in a class that resembles its own. -/
theorem exists_property (h : Resembles c d) {p : Property} (hp : p ∈ c.properties) :
    ∃ q ∈ d.properties, q.name = p.name ∧ q.mutable = p.mutable := by
  have hmem : (p.name, p.mutable) ∈ d.properties.map fun p => (p.name, p.mutable) :=
    h.properties ▸ List.mem_map_of_mem hp
  obtain ⟨q, hq, hsame⟩ := List.mem_map.mp hmem
  exact ⟨q, hq, (Prod.mk.inj hsame).1, (Prod.mk.inj hsame).2⟩

end Resembles

/-- A change of one property that keeps names and mutability is none to the facts. -/
theorem map_modifyProperty {f : Property → Property} (hname : ∀ p, (f p).name = p.name)
    (hmutable : ∀ p, (f p).mutable = p.mutable) (name : String) (properties : List Property) :
    (Rule.modifyProperty name f properties).map (fun p => (p.name, p.mutable)) =
      properties.map fun p => (p.name, p.mutable) := by
  induction properties with
  | nil => rfl
  | cons p rest ih =>
    rw [Rule.modifyProperty]
    split
    · simp [hname, hmutable]
    · rw [List.map_cons, ih, List.map_cons]

/-- A class with at least the supertypes and fields of a framed one is framed. -/
theorem isFramed_of_subset {c d : ClassDecl} (hsupertypes : c.supertypes ⊆ d.supertypes)
    (hfields : c.fields ⊆ d.fields) (h : c.isFramed = true) : d.isFramed = true := by
  simp only [ClassDecl.isFramed, ClassDecl.hasSupertype, ClassDecl.field?, Bool.or_eq_true,
    List.any_eq_true, List.find?_isSome] at h ⊢
  rcases h with ⟨type, hmem, hname⟩ | ⟨field, hmem, hname⟩
  · exact .inl ⟨type, hsupertypes hmem, hname⟩
  · exact .inr ⟨field, hfields hmem, hname⟩

/-- An edited host resembles the class it was made from. -/
theorem HostEdit.resembles {c d : ClassDecl} (h : HostEdit c d) : Resembles c d := by
  cases h with
  | property name f hname hmutable =>
    exact ⟨rfl, rfl, rfl, map_modifyProperty hname hmutable name c.properties, id⟩
  | field field =>
    exact ⟨rfl, rfl, rfl, rfl,
      isFramed_of_subset (List.Subset.refl _) (List.subset_append_left ..)⟩
  | methods => exact ⟨rfl, rfl, rfl, rfl, id⟩
  | initializer => exact ⟨rfl, rfl, rfl, rfl, id⟩
  | marker =>
    refine ⟨rfl, rfl, ?_, rfl,
      isFramed_of_subset (List.subset_append_left ..) (List.Subset.refl _)⟩
    simp [ClassDecl.superclass?, List.find?_append, TypeExpr.named, TypeExpr.name]

/-- By induction on the changes. -/
theorem HostEdits.resembles {c d : ClassDecl} (h : HostEdits c d) : Resembles c d := by
  induction h with
  | refl => exact .refl c
  | tail _ hedit ih => exact ih.trans hedit.resembles

/-! ## What a class is given by its ancestors -/

/-- Every class of a module resembles one of the same name in another module. -/
def Module.Covers (m' m : Module) : Prop :=
  ∀ name c, m.class? name = some c → ∃ d, m'.class? name = some d ∧ Resembles c d

/-- By induction on the number of ancestors that are left: the same names are followed. -/
theorem exists_ancestor {m m' : Module} (hcovers : Module.Covers m' m) {fuel fuel' : Nat}
    (hfuel : fuel ≤ fuel') (seen : List String) (next : Option String) :
    ∀ a ∈ ancestorsFrom m fuel seen next,
      ∃ b ∈ ancestorsFrom m' fuel' seen next, Resembles a b := by
  induction fuel generalizing fuel' seen next with
  | zero => simp [ancestorsFrom]
  | succ fuel ih =>
    obtain ⟨fuel', rfl⟩ : ∃ k, fuel' = k + 1 := ⟨fuel' - 1, by omega⟩
    cases next with
    | none => simp [ancestorsFrom]
    | some name =>
      rw [ancestorsFrom, ancestorsFrom]
      split
      · exact nofun
      cases hclass : m.class? name with
      | none => exact nofun
      | some c =>
        obtain ⟨d, hd, hresembles⟩ := hcovers name c hclass
        rw [hd]
        dsimp only
        rw [hresembles.superclass]
        intro a ha
        rcases List.mem_cons.mp ha with rfl | ha
        · exact ⟨d, List.mem_cons_self, hresembles⟩
        · obtain ⟨b, hb, hab⟩ := ih (Nat.le_of_succ_le_succ hfuel) _ _ a ha
          exact ⟨b, List.mem_cons_of_mem _ hb, hab⟩

/-- The inherited framed names are those of the `var` properties of the framed ancestors. -/
theorem mem_inheritedFramed {m : Module} {c : ClassDecl} {name : String} :
    name ∈ inheritedFramed m c ↔ ∃ a ∈ ancestors m c, isOrWillBeFramed a = true ∧
      ∃ p ∈ a.properties, p.mutable = true ∧ p.name = name := by
  simp [inheritedFramed, and_assoc]
  tauto

/-- In a module that covers another one, framed ancestors own at least what they owned there. -/
theorem inheritedFramed_subset {m m' : Module} (hcovers : Module.Covers m' m)
    (hlength : m.classes.length ≤ m'.classes.length) (c : ClassDecl) :
    inheritedFramed m c ⊆ inheritedFramed m' c := by
  intro name hname
  obtain ⟨a, ha, hframed, p, hp, hmutable, rfl⟩ := mem_inheritedFramed.mp hname
  obtain ⟨b, hb, hab⟩ := exists_ancestor hcovers hlength _ _ a ha
  obtain ⟨q, hq, hqname, hqmutable⟩ := hab.exists_property hp
  exact mem_inheritedFramed.mpr
    ⟨b, hb, hab.isOrWillBeFramed hframed, q, hq, hqmutable.trans hmutable, hqname⟩

/-- A class of which nothing is to be framed has nothing to frame in such a module either. -/
theorem properties_classFacts_eq_nil {m m' : Module} (hcovers : Module.Covers m' m)
    (hlength : m.classes.length ≤ m'.classes.length) {c : ClassDecl}
    (h : (classFacts m c).properties = []) : (classFacts m' c).properties = [] := by
  unfold classFacts at h ⊢
  split
  · rfl
  · next hcond =>
    rw [if_neg hcond] at h
    simp only [List.map_eq_nil_iff, List.filter_eq_nil_iff, Bool.and_eq_true, Bool.not_eq_true',
      List.contains_eq_mem, decide_eq_false_iff_not, not_and, not_not] at h ⊢
    exact fun p hp hmutable => inheritedFramed_subset hcovers hlength c (h p hp hmutable)

namespace Pipeline

/-! ## What keeps a class as it is -/

/-- A class of which nothing is to be framed has no draft. -/
theorem draft?_eq_none (p : Pipeline) (m : Module) {facts : ClassFacts} (i : Nat) {c : ClassDecl}
    (h : facts.properties = []) : p.draft? m facts i c = .ok none := by
  unfold draft?
  rw [h]
  split <;> rfl

/-- A class without a draft is one of which nothing is to be framed. -/
theorem properties_eq_nil_of_draft? {p : Pipeline} {m : Module} {i : Nat} {c : ClassDecl}
    (h : p.draft? m (classFacts m c) i c = .ok none) : (classFacts m c).properties = [] := by
  unfold draft? at h
  split at h
  · next hcond =>
    unfold classFacts at hcond ⊢
    split
    · rfl
    · next hmarked =>
      rw [if_neg hmarked] at hcond
      simp_all
  · cases hselect : selectProperties c [] (classFacts m c).properties with
    | error e => rw [hselect] at h; cases h
    | ok framed =>
      rw [hselect] at h
      change (if framed.isEmpty then _ else _) = _ at h
      split at h
      · next hempty =>
        -- a property to frame is declared by the class, and would have been selected
        obtain rfl := List.isEmpty_iff.mp hempty
        obtain ⟨ps, hnil, hps⟩ := selects_of_selectProperties hselect
        refine List.eq_nil_iff_forall_not_mem.mpr fun name hname => ?_
        have hdeclared : (c.property? name).isSome = true := by
          unfold classFacts at hname
          split at hname
          · cases hname
          · obtain ⟨p, hp, rfl⟩ := List.mem_map.mp hname
            exact List.find?_isSome.mpr ⟨p, List.mem_of_mem_filter hp, by simp⟩
        have hmem := hps.complete name hname hdeclared
        rw [← hnil] at hmem
        cases hmem
      · cases hname : checkName c.name c.name with
        | error e => rw [hname] at h; cases h
        | ok _ =>
          rw [hname] at h
          dsimp only [bind, Except.bind] at h
          split at h <;> cases h

/-- A class stays as it is just because it has no draft: a draft becomes a host or fails. -/
theorem draft?_of_transformClass {p : Pipeline} {m : Module} {facts : ClassFacts} {i : Nat}
    {c : ClassDecl} (h : (p.transformClass m facts i c).1 = .ok none) :
    p.draft? m facts i c = .ok none := by
  unfold transformClass at h
  split at h
  · cases h
  · next hdraft => exact hdraft
  · dsimp only at h
    split at h
    · cases h
    · split at h <;> cases h

/-- Classes that have no draft are passed by. By induction on those that are left. -/
theorem transformClasses_eq {p : Pipeline} {m : Module} {facts : Facts} {out : Outcome}
    {classes : List ClassDecl}
    (h : ∀ c ∈ classes, ∀ i, p.draft? m ((facts.get? c.name).getD {}) i c = .ok none) :
    transformClasses m facts p out classes =
      ({ out with
          module := ⟨out.module.classes ++ classes⟩
          summary := { out.summary with
            seen := out.summary.seen + classes.length
            skipped := out.summary.skipped + classes.length } }, p) := by
  induction classes generalizing out with
  | nil => simp [transformClasses]
  | cons c rest ih =>
    rw [List.forall_mem_cons] at h
    rw [transformClasses]
    simp only [transformClass, h.1, ih h.2, List.length_cons, List.append_assoc,
      List.singleton_append, Nat.add_assoc, Nat.add_comm 1]

/-! ## The module that comes out -/

/-- What a class becomes: itself where nothing of it is to be framed, or else a host that
resembles it and bears the record chain, and a record type without marks. -/
inductive Becomes (m : Module) (c : ClassDecl) : List ClassDecl → Prop where
  | same : (classFacts m c).properties = [] → Becomes m c [c]
  | framed {host record : ClassDecl} : Resembles c host → host.isFramed = true →
      record.annotations = [] → Becomes m c [host, record]

/-- Where the names of classes differ, a class is found by its name. -/
theorem class?_eq_some_of_mem {m : Module} (hnames : (m.classes.map (·.name)).Nodup)
    {c : ClassDecl} (hc : c ∈ m.classes) : m.class? c.name = some c := by
  cases hfound : m.class? c.name with
  | none => exact absurd (List.find?_eq_none.mp hfound c hc) (by simp)
  | some d =>
    have hname : d.name = c.name := by simpa using List.find?_some hfound
    rw [List.inj_on_of_nodup_map hnames (List.mem_of_find?_eq_some hfound) hc hname]

/-- Where the names of classes differ, each class has its own facts. -/
theorem get?_analyze {m : Module} (hnames : (m.classes.map (·.name)).Nodup) {c : ClassDecl}
    (hc : c ∈ m.classes) : (Facts.analyze m).get? c.name = some (classFacts m c) := by
  have hkeys : ((m.classes.map fun c => (c.name, classFacts m c)).map (·.1)).Nodup := by
    simpa [Function.comp_def] using hnames
  have hfound := class?_eq_some_of_mem hnames hc
  rw [Module.class?] at hfound
  rw [Facts.analyze, Association.ofPairs_eq_self hkeys, Association.get?, List.find?_map,
    Option.map_map]
  simp only [Function.comp_def, hfound, Option.map_some]

/-- After a transformation without errors each class stands in its place as what it has become. -/
theorem becomes_of_transform {p : Pipeline} (hp : .installRecordField ∈ p.rules) {m : Module}
    (hnames : (m.classes.map (·.name)).Nodup)
    (hok : (p.transform m).1.summary.errors = []) :
    ∃ pieces, (p.transform m).1.module.classes = pieces.flatten ∧
      List.Forall₂ (Becomes m) m.classes pieces := by
  refine forall₂_transformClasses (fun c hc stats i h => ?_) (fun c hc stats i t h => ?_) hok
  · rw [get?_analyze hnames hc, Option.getD_some] at h
    exact .same (properties_eq_nil_of_draft? (draft?_of_transformClass h))
  · have hat := framedAt_of_transformClass h
    obtain ⟨hedits, d, fields, -, hrecord⟩ := hostEdits_of_transformClass h
    refine .framed hedits.resembles ?_ (by rw [hrecord])
    rw [ClassDecl.isFramed, hat.chain hp, Bool.or_true]

section

variable {m : Module} {classes : List ClassDecl} {pieces : List (List ClassDecl)}

/-- By induction on the classes, none of which is lost. -/
theorem length_le_of_becomes (h : List.Forall₂ (Becomes m) classes pieces) :
    classes.length ≤ pieces.flatten.length := by
  induction h with
  | nil => exact Nat.le_refl 0
  | @cons c piece _ _ hbecomes _ ih =>
    have hpiece : 0 < piece.length := by cases hbecomes <;> simp
    rw [List.length_cons, List.flatten_cons, List.length_append]
    omega

/-- By induction on the classes. -/
theorem exists_resembles_of_becomes (h : List.Forall₂ (Becomes m) classes pieces) :
    ∀ c ∈ classes, ∃ d ∈ pieces.flatten, Resembles c d := by
  induction h with
  | nil => nofun
  | @cons c piece _ _ hbecomes _ ih =>
    refine List.forall_mem_cons.mpr ⟨?_, fun e he => ?_⟩
    · cases hbecomes with
      | same => exact ⟨c, by simp, .refl c⟩
      | @framed host => exact ⟨host, by simp, ‹Resembles c host›⟩
    · obtain ⟨d, hd, hresembles⟩ := ih e he
      exact ⟨d, List.mem_append_right _ hd, hresembles⟩

/-- By induction on the classes: of those that come out nothing is to be framed. -/
theorem properties_eq_nil_of_becomes (h : List.Forall₂ (Becomes m) classes pieces) {m' : Module}
    (hcovers : Module.Covers m' m) (hlength : m.classes.length ≤ m'.classes.length) :
    ∀ d ∈ pieces.flatten, (classFacts m' d).properties = [] := by
  induction h with
  | nil => nofun
  | @cons c piece _ _ hbecomes _ ih =>
    refine List.forall_mem_append.mpr ⟨?_, ih⟩
    cases hbecomes with
    | same hnone =>
      exact List.forall_mem_singleton.mpr (properties_classFacts_eq_nil hcovers hlength hnone)
    | framed _ hframed hrecord =>
      refine List.forall_mem_cons.mpr ⟨?_, List.forall_mem_singleton.mpr ?_⟩
      · simp [classFacts, hframed]
      · simp [classFacts, ClassDecl.hasMark, hrecord]

end

/-- **Framing again.** A module that was framed without errors into classes of different names is
left exactly as it is by every further framing, by the pipeline that framed it or by any other:
from the facts of what came out no class is framed and none fails, and the pipeline has nothing
to count. -/
theorem transform_framed {p : Pipeline} (hp : .installRecordField ∈ p.rules) {m : Module}
    (hok : (p.transform m).1.summary.errors = [])
    (hnames : ((p.transform m).1.module.classes.map (·.name)).Nodup) (q : Pipeline) :
    let framed := (p.transform m).1.module
    q.transform framed =
      ({ module := framed
         transformed := []
         summary := { seen := framed.classes.length, skipped := framed.classes.length } }, q) := by
  intro framed
  obtain ⟨added, _, hadded, -, hexpands⟩ := expands_transformClasses p m (Facts.analyze m)
    { module := {}, transformed := [], summary := {} } m.classes
  rw [List.nil_append] at hadded
  have hsource : (m.classes.map (·.name)).Nodup := by
    have hperm := hexpands.names_perm
    rw [← hadded] at hperm
    exact (List.nodup_append.mp (hperm.nodup_iff.mp hnames)).1
  obtain ⟨pieces, hpieces, hbecomes⟩ := becomes_of_transform hp hsource hok
  have hlength : m.classes.length ≤ framed.classes.length :=
    hpieces ▸ length_le_of_becomes hbecomes
  have hcovers : Module.Covers framed m := by
    intro name c hc
    obtain ⟨d, hd, hresembles⟩ :=
      exists_resembles_of_becomes hbecomes c (List.mem_of_find?_eq_some hc)
    have hname : d.name = name := by
      simpa [hresembles.name] using List.find?_some hc
    exact ⟨d, hname ▸ class?_eq_some_of_mem hnames (hpieces ▸ hd), hresembles⟩
  have hnone : ∀ c ∈ framed.classes, ∀ i,
      q.draft? framed (((Facts.analyze framed).get? c.name).getD {}) i c = .ok none := by
    intro c hc i
    rw [get?_analyze hnames hc, Option.getD_some]
    exact draft?_eq_none q framed i
      (properties_eq_nil_of_becomes hbecomes hcovers hlength c (hpieces ▸ hc))
  rw [transform, transformWith, transformClasses_eq hnone]
  simp

/-- Three classes marked to be framed that declare the same property: a box, a crate whose
superclass is the box and owns the property, and a label whose superclass is declared nowhere but
is what the record type of the box will be called. -/
def boxKin : Module :=
  let size : Property :=
    { name := "size", type := .named "Int", mutable := true
      initializer := some (.literal (.int 1)) }
  let marked (name : String) (supertypes : List TypeExpr) : ClassDecl :=
    { name, annotations := [framedMark], supertypes, properties := [size] }
  ⟨[marked "Box" [], marked "Crate" [.named "Box"], marked "Label" [.named "BoxRecord"]]⟩

/-- The box and the label are framed and the crate is not; framed again they stay as they are,
although the record type of the box is now an ancestor of the label. -/
theorem transform_framed_boxKin :
    let framed := (standard.transform boxKin).1.module
    .installRecordField ∈ standard.rules ∧
    (standard.transform boxKin).1.summary.errors = [] ∧
    framed.classes.map (·.name) = ["Box", "BoxRecord", "Crate", "Label", "LabelRecord"] ∧
    standard.transform framed =
      ({ module := framed, transformed := [], summary := { seen := 5, skipped := 5 } },
        standard) := by
  intro framed
  have hrule : .installRecordField ∈ standard.rules := by
    rw [usual_standard.rules]
    decide
  have hok : (standard.transform boxKin).1.summary.errors = [] := by
    rw [standard_eq]
    decide +kernel
  have hnames : framed.classes.map (·.name) =
      ["Box", "BoxRecord", "Crate", "Label", "LabelRecord"] := by
    change (standard.transform boxKin).1.module.classes.map (·.name) = _
    rw [standard_eq]
    decide +kernel
  have hlength : framed.classes.length = 5 := by
    simpa using congrArg List.length hnames
  have hagain := transform_framed hrule hok (by rw [hnames]; decide) standard
  refine ⟨hrule, hok, hnames, hagain.trans ?_⟩
  rw [hlength]

end Pipeline

end VersionedObjects.Framing
