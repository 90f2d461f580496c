import VersionedObjects.Proofs.Computations
import VersionedObjects.Proofs.Dynamic.Evaluation
import VersionedObjects.Proofs.Framing.RecordNames
import VersionedObjects.Proofs.Grammar.Sourced

/-!
# Guarded classes

The code of a text writes no record. Framing puts writes where the accessors of framed properties
assign `field`, so a class that comes out of framing writes records in the setters of its framed
properties, and in getters only where `field` was assigned. Main statement:
`Pipeline.emerges_transformClasses`.
-/

namespace VersionedObjects

namespace Declaration

/-! ## Code that writes no record -/

namespace Expr

mutual

/-- An expression that a text can contain writes no record. -/
theorem writesRecord_of_isSourced : (e : Expr) → e.isSourced = true → e.writesRecord = false
  | .literal _, _ | .this, _ | .name _, _ | .backing, _ => rfl
  | .list items, h => anyWritesRecord_of_isSourced items h
  | .member target _, h => writesRecord_of_isSourced target (Bool.and_eq_true_iff.mp h).1
  | .readable .., h | .writable .., h | .cast .., h | .newRecord _, h | .newChain _, h
  | .firstRecord _, h | .prependRecord .., h => absurd h Bool.false_ne_true

/-- The same of the items of a list. -/
theorem anyWritesRecord_of_isSourced :
    (items : List Expr) → isSourcedList items = true → anyWritesRecord items = false
  | [], _ => rfl
  | item :: rest, h => Bool.or_eq_false_iff.mpr
      ⟨writesRecord_of_isSourced item (Bool.and_eq_true_iff.mp h).1,
        anyWritesRecord_of_isSourced rest (Bool.and_eq_true_iff.mp h).2⟩

end

end Expr

namespace Stmt

/-- The statement assigns the word `field`. -/
def storesBacking : Stmt → Bool
  | .assign .backing _ => true
  | _ => false

/-- A statement that a text can contain writes no record. -/
theorem writesRecord_of_isSourced {stmt : Stmt} (h : stmt.isSourced = true) :
    stmt.writesRecord = false := by
  cases stmt with
  | «return» value => exact Expr.writesRecord_of_isSourced value h
  | assign target value =>
    obtain ⟨htarget, hvalue⟩ := Bool.and_eq_true_iff.mp h
    exact Bool.or_eq_false_iff.mpr ⟨Expr.writesRecord_of_isSourced target htarget,
      Expr.writesRecord_of_isSourced value hvalue⟩
  | expr value => exact Expr.writesRecord_of_isSourced value h
  | notifyCreated => rfl

end Stmt

/-- The names of the properties whose getters assign the word `field`. -/
def ClassDecl.assigningGetters (c : ClassDecl) : List String :=
  (c.properties.filter fun p => p.getter.any fun getter =>
    getter.body.any (·.storesBacking)).map (·.name)

/-- Records are written in the setter if the property is framed, and in the getter if the property
is also to blame. -/
structure Property.Guarded (framed blamed : List String) (p : Property) : Prop where
  initializer : ∀ e ∈ p.initializer, e.writesRecord = false
  getter : ∀ accessor ∈ p.getter, ∀ stmt ∈ accessor.body, stmt.writesRecord = true →
    p.name ∈ framed ∧ p.name ∈ blamed
  backing : ∀ accessor ∈ p.getter, ∀ stmt ∈ accessor.body, stmt.storesBacking = true →
    p.name ∈ blamed
  setter : ∀ accessor ∈ p.setter, ∀ stmt ∈ accessor.body, stmt.writesRecord = true →
    p.name ∈ framed

/-- Records are written in the setters of framed properties, and in getters that are to blame. -/
structure ClassDecl.Guarded (framed blamed : List String) (c : ClassDecl) : Prop where
  constructors : c.constructors = []
  initializers : ∀ stmt ∈ c.initializers.flatten, stmt.writesRecord = false
  properties : ∀ p ∈ c.properties, p.Guarded framed blamed

/-- A class of a text writes no record. -/
theorem ClassDecl.Sourced.guarded {c : ClassDecl} (hc : c.Sourced)
    (hinitializers : ∀ p ∈ c.properties, ∀ e ∈ p.initializer, e.isSourced = true)
    (framed : List String) : c.Guarded framed c.assigningGetters where
  constructors := hc.constructors
  initializers := by simp [hc.initializers]
  properties p hp := by
    have hcode {accessor : Accessor} (h : accessor.isSourced = true) {stmt : Stmt}
        (hstmt : stmt ∈ accessor.body) : stmt.writesRecord ≠ true := by
      rw [Stmt.writesRecord_of_isSourced (List.all_eq_true.mp h stmt hstmt)]
      exact Bool.false_ne_true
    obtain ⟨⟨-, hgetter⟩, hsetter⟩ : (_ ∧ p.getter.all (·.isSourced) = true) ∧
        p.setter.all (·.isSourced) = true := by
      simpa [Property.isSourced] using hc.properties p hp
    refine ⟨fun e he => Expr.writesRecord_of_isSourced e (hinitializers p hp e he),
      fun accessor hget stmt hstmt hwrites => ?_, fun accessor hget stmt hstmt hstores => ?_,
      fun accessor hset stmt hstmt hwrites => ?_⟩
    · rw [hget] at hgetter
      exact absurd hwrites (hcode hgetter hstmt)
    · refine List.mem_map_of_mem (List.mem_filter.mpr ⟨hp, ?_⟩)
      rw [hget]
      exact List.any_eq_true.mpr ⟨stmt, hstmt, hstores⟩
    · rw [hset] at hsetter
      exact absurd hwrites (hcode hsetter hstmt)

end Declaration

namespace Framing

open Declaration

/-! ## The rules -/

mutual

/-- To redirect an expression brings no write of a record, if what it reads instead is none. -/
theorem writesRecord_redirect {read : Expr} (hread : read.writesRecord = false) :
    (e : Expr) → e.writesRecord = false → (redirect read e).writesRecord = false
  | .backing, _ => hread
  | .literal _, _ | .this, _ | .name _, _ | .newRecord _, _ => rfl
  | .list items, h => anyWritesRecord_redirect hread items h
  | .member target _, h => writesRecord_redirect hread target h
  | .cast inner _, h => writesRecord_redirect hread inner h
  | .newChain inner, h => writesRecord_redirect hread inner h
  | .firstRecord inner, h => writesRecord_redirect hread inner h
  | .writable .., h => absurd h.symm Bool.false_ne_true
  | .readable chain owner, h => Bool.or_eq_false_iff.mpr
      ⟨writesRecord_redirect hread chain (Bool.or_eq_false_iff.mp h).1,
        writesRecord_redirect hread owner (Bool.or_eq_false_iff.mp h).2⟩
  | .prependRecord chain record, h => Bool.or_eq_false_iff.mpr
      ⟨writesRecord_redirect hread chain (Bool.or_eq_false_iff.mp h).1,
        writesRecord_redirect hread record (Bool.or_eq_false_iff.mp h).2⟩

/-- The same of the items of a list. -/
theorem anyWritesRecord_redirect {read : Expr} (hread : read.writesRecord = false) :
    (items : List Expr) → Expr.anyWritesRecord items = false →
      Expr.anyWritesRecord (redirectAll read items) = false
  | [], _ => rfl
  | item :: rest, h => Bool.or_eq_false_iff.mpr
      ⟨writesRecord_redirect hread item (Bool.or_eq_false_iff.mp h).1,
        anyWritesRecord_redirect hread rest (Bool.or_eq_false_iff.mp h).2⟩

end

/-- Where `field` is not assigned no write is put. -/
theorem writesRecord_redirectStmt {read : Expr} (hread : read.writesRecord = false) (write : Expr)
    {stmt : Stmt} (hwrites : stmt.writesRecord = false) (hstores : stmt.storesBacking = false) :
    (redirectStmt read write stmt).writesRecord = false ∧
      (redirectStmt read write stmt).storesBacking = false := by
  have hexpr := writesRecord_redirect hread
  cases stmt with
  | «return» value => exact ⟨hexpr value hwrites, rfl⟩
  | expr value => exact ⟨hexpr value hwrites, rfl⟩
  | notifyCreated => exact ⟨rfl, rfl⟩
  | assign target value =>
    obtain ⟨htarget, hvalue⟩ := Bool.or_eq_false_iff.mp hwrites
    have hboth := Bool.or_eq_false_iff.mpr ⟨hexpr target htarget, hexpr value hvalue⟩
    cases target with
    | backing => cases hstores
    | _ => exact ⟨hboth, rfl⟩

namespace Rule

/-- A getter writes records where it assigned `field`, and there only. -/
theorem guarded_redirectProperty (recordType : TypeExpr) {framed blamed : List String}
    {p : Property} (hframed : p.name ∈ framed) (hp : p.Guarded framed blamed) :
    (redirectProperty recordType p).Guarded framed blamed := by
  have hgetter (hfree : p.name ∉ blamed) :
      ∀ accessor ∈ (redirectProperty recordType p).getter, ∀ stmt ∈ accessor.body,
        stmt.writesRecord = false ∧ stmt.storesBacking = false := by
    intro accessor haccessor stmt hstmt
    obtain rfl := Option.some.inj haccessor
    cases hget : p.getter with
    | none =>
      rw [hget] at hstmt
      obtain rfl := List.mem_singleton.mp hstmt
      exact ⟨rfl, rfl⟩
    | some getter =>
      rw [hget] at hstmt
      obtain ⟨old, hold, rfl⟩ := List.mem_map.mp hstmt
      refine writesRecord_redirectStmt rfl _ ?_ ?_
      · exact eq_false_of_ne_true fun h => hfree (hp.getter getter hget old hold h).2
      · exact eq_false_of_ne_true fun h => hfree (hp.backing getter hget old hold h)
  refine ⟨hp.initializer, fun accessor haccessor stmt hstmt hwrites => ⟨hframed, ?_⟩,
    fun accessor haccessor stmt hstmt hstores => ?_, fun _ _ _ _ _ => hframed⟩
  · by_contra hfree
    exact absurd hwrites (by simp [hgetter hfree accessor haccessor stmt hstmt])
  · by_contra hfree
    exact absurd hstores (by simp [hgetter hfree accessor haccessor stmt hstmt])

/-- After a property is changed there are the others and the changed one. -/
theorem mem_modifyProperty {name : String} {f : Property → Property} {ps : List Property}
    {q : Property} (hq : q ∈ modifyProperty name f ps) :
    q ∈ ps ∨ ∃ p ∈ ps, p.name = name ∧ f p = q := by
  induction ps with
  | nil => cases hq
  | cons p rest ih =>
    rw [modifyProperty] at hq
    split at hq
    · next hname =>
      rcases List.mem_cons.mp hq with rfl | hq
      · exact .inr ⟨p, List.mem_cons_self, by simpa using hname, rfl⟩
      · exact .inl (List.mem_cons_of_mem p hq)
    · rcases List.mem_cons.mp hq with rfl | hq
      · exact .inl List.mem_cons_self
      · rcases ih hq with hold | ⟨old, hold, hchanged⟩
        · exact .inl (List.mem_cons_of_mem p hold)
        · exact .inr ⟨old, List.mem_cons_of_mem p hold, hchanged⟩

end Rule

/-- The host writes records where its framed properties may, and the record type has a field for
each of them. -/
structure Draft.Guarded (blamed : List String) (d : Draft) : Prop where
  host : d.host.Guarded d.framed blamed
  record : ∀ r, d.record = some r → r.fields.map (·.name) = d.framed

variable {blamed : List String} {d : Draft}

/-- A change of the host that keeps its code. -/
theorem Draft.Guarded.of_host (h : d.Guarded blamed) {host : ClassDecl}
    (hconstructors : host.constructors = d.host.constructors)
    (hinitializers : host.initializers = d.host.initializers)
    (hproperties : host.properties = d.host.properties) : Draft.Guarded blamed { d with host } :=
  ⟨⟨hconstructors ▸ h.host.constructors, hinitializers ▸ h.host.initializers,
    hproperties ▸ h.host.properties⟩, h.record⟩

namespace Rule

/-- A draft stays guarded when a property is changed into a guarded one. -/
theorem Draft.guarded_modifyProperty (h : d.Guarded blamed) {name : String}
    {f : Property → Property} (hf : ∀ p, p.name = name → p.Guarded d.framed blamed →
      (f p).Guarded d.framed blamed) :
    (Draft.modifyProperty d name f).Guarded blamed := by
  refine ⟨⟨h.host.constructors, h.host.initializers, fun q hq => ?_⟩, h.record⟩
  rcases mem_modifyProperty hq with hold | ⟨p, hp, hname, rfl⟩
  · exact h.host.properties q hold
  · exact hf p hname (h.host.properties p hp)

/-- By induction on the properties whose initializers are taken. -/
theorem guarded_takeInitializers (h : d.Guarded blamed) (properties : List String) :
    (takeInitializers d properties).2.Guarded blamed ∧
      ∀ stmts, (takeInitializers d properties).1 = .ok stmts →
        ∀ stmt ∈ stmts, stmt.writesRecord = false := by
  induction properties generalizing d with
  | nil =>
    refine ⟨h, fun stmts hstmts => ?_⟩
    obtain rfl := Except.ok.inj hstmts
    exact fun _ hstmt => by cases hstmt
  | cons name rest ih =>
    rw [takeInitializers]
    split
    · exact ⟨h, fun _ hstmts => by cases hstmts⟩
    · next p hp =>
      have hmem := (mem_of_property? hp).1
      have htaken : (Draft.modifyProperty d name fun p =>
          { p with initializer := none }).Guarded blamed :=
        Draft.guarded_modifyProperty h fun p _ hp =>
          ⟨fun _ he => (by cases he), hp.getter, hp.backing, hp.setter⟩
      obtain ⟨hrest, hlater⟩ := ih htaken
      refine ⟨hrest, fun stmts hstmts stmt hstmt => ?_⟩
      dsimp only at hstmts
      cases hmore : (takeInitializers _ rest).1 with
      | error e => rw [hmore] at hstmts; cases hstmts
      | ok more =>
        rw [hmore] at hstmts
        obtain rfl := Except.ok.inj hstmts
        rcases List.mem_append.mp hstmt with hfirst | hrest
        · obtain ⟨e, he, rfl⟩ : ∃ e ∈ p.initializer, Stmt.assign _ e = stmt := by simpa using hfirst
          exact (h.host.properties p hmem).initializer e he
        · exact hlater more hmore stmt hrest

/-- By induction on the properties that are redirected. -/
theorem guarded_redirectEach (h : d.Guarded blamed) {properties : List String}
    (hframed : properties ⊆ d.framed) : (redirectEach d properties).2.Guarded blamed := by
  induction properties generalizing d with
  | nil => exact h
  | cons name rest ih =>
    obtain ⟨hname, hrest⟩ := List.cons_subset.mp hframed
    rw [redirectEach]
    split
    · exact h
    · refine ih (Draft.guarded_modifyProperty h fun p hp => ?_) hrest
      exact guarded_redirectProperty d.recordType (hp ▸ hname)

/-- The fields of a record have the names of the framed properties. -/
theorem names_of_recordFields {fields : List Field} (h : recordFields d = .ok fields) :
    fields.map (·.name) = d.framed := by
  have hnames : fields.map (·.name) = d.framed.map id := by
    refine map_eq_of_mapM (fun name field hfield => ?_) h
    cases hp : d.host.property? name with
    | none => rw [hp] at hfield; cases hfield
    | some p => rw [hp] at hfield; cases hfield; rfl
  rw [hnames, List.map_id]

/-- Every rule leaves a draft guarded. -/
theorem guarded_apply (h : d.Guarded blamed) (rule : Rule) : (rule.apply d).2.Guarded blamed := by
  cases rule with
  | synthesizeRecordType =>
    change (applySynthesizeRecordType d).2.Guarded blamed
    unfold applySynthesizeRecordType
    split
    · exact h
    split
    · exact h
    · next fields hfields =>
      refine ⟨h.host, fun r hr => ?_⟩
      obtain rfl := Option.some.inj hr
      exact names_of_recordFields hfields
  | installRecordField => exact h.of_host rfl rfl rfl
  | installChainOperations => exact h.of_host rfl rfl rfl
  | moveInitializers =>
    obtain ⟨htaken, hstmts⟩ := guarded_takeInitializers h d.framed
    change (applyMoveInitializers d).2.Guarded blamed
    unfold applyMoveInitializers
    dsimp only
    split
    · next hresult => rwa [hresult] at htaken
    · next stmts e hresult =>
      rw [hresult] at htaken hstmts
      refine ⟨⟨htaken.host.constructors, ?_, htaken.host.properties⟩, htaken.record⟩
      rw [List.flatten_cons, List.forall_mem_append]
      refine ⟨List.forall_mem_cons.mpr ⟨rfl, ?_⟩, htaken.host.initializers⟩
      exact List.forall_mem_append.mpr ⟨hstmts stmts rfl, List.forall_mem_singleton.mpr rfl⟩
  | redirectAccessors =>
    have hredirected := guarded_redirectEach h (List.Subset.refl d.framed)
    change (applyRedirectAccessors d).2.Guarded blamed
    unfold applyRedirectAccessors
    split
    · next hresult => rwa [hresult] at hredirected
    · next hresult => rwa [hresult] at hredirected
  | addFramedMarker => exact h.of_host rfl rfl rfl

end Rule

namespace Pipeline

/-- By induction on the rules, whatever they are. -/
theorem guarded_runRules (h : d.Guarded blamed) {rules : List Rule}
    {stats last : Association RuleStats} {e : Draft}
    (hrun : runRules stats d rules = (.ok e, last)) : e.Guarded blamed := by
  induction rules generalizing d stats with
  | nil =>
    cases hrun
    exact h
  | cons rule rest ih =>
    cases happlies : rule.applies d with
    | true =>
      obtain ⟨_, next, _, happly, hrest⟩ := runRules_cons happlies hrun
      have hnext := Rule.guarded_apply h rule
      rw [happly] at hnext
      exact ih hnext hrest
    | false =>
      rw [runRules, happlies] at hrun
      exact ih h hrun

end Pipeline

/-- A framed class knows its record type by name, and writes records where its framed properties
may, for which the record type has fields. -/
structure FramedClass.Guarded (blamed : List String) (t : FramedClass) : Prop where
  host : t.host.Guarded t.framed blamed
  fields : t.record.fields.map (·.name) = t.framed
  chain : ∃ field, t.host.field? recordField = some field ∧ field.type.name = t.record.name
  origin : t.record.origin ≠ .declared

/-- A class comes out of framing: as it was, or in place of a class of the same name. The getters to
blame are those of the old class that assign `field`. -/
def Emerges (classes : List ClassDecl) (framed : List FramedClass) (c : ClassDecl) : Prop :=
  c.Guarded [] c.assigningGetters ∨ ∃ t ∈ framed, (c = t.host ∨ c = t.record) ∧
    ∃ d ∈ classes, d.name = t.host.name ∧ t.Guarded d.assigningGetters

/-- A class that comes out of framing some classes comes out of framing more. -/
theorem Emerges.mono {classes : List ClassDecl} {framed more : List FramedClass}
    (hmore : framed ⊆ more) {c : ClassDecl} (h : Emerges classes framed c) :
    Emerges classes more c :=
  h.imp_right fun ⟨t, ht, hc⟩ => ⟨t, hmore ht, hc⟩

namespace Pipeline

/-- A class that comes through a pipeline which installs the record is guarded. -/
theorem guarded_of_transformClass {p : Pipeline} (hp : .installRecordField ∈ p.rules) {m : Module}
    {facts : ClassFacts} {i : Nat} {c : ClassDecl} {blamed : List String}
    (hc : ∀ framed, c.Guarded framed blamed) {t : FramedClass}
    (h : (p.transformClass m facts i c).1 = .ok (some t)) : t.Guarded blamed := by
  have hat := framedAt_of_transformClass h
  obtain ⟨field, hfield⟩ := Option.isSome_iff_exists.mp (hat.chain hp)
  have hchain : field.type.name = t.record.name := by
    rw [hat.chain_type field hfield, hat.record_name]
    rfl
  have horigin : t.record.origin ≠ .declared := by
    rw [hat.record_origin]
    nofun
  unfold transformClass at h
  split at h
  · cases h
  · cases h
  · next d hd =>
    obtain ⟨-, -, ps, baseRecord, -, -, rfl⟩ := draft?_eq_some hd
    dsimp only at h
    split at h
    · cases h
    · next e hrun =>
      have he := guarded_runRules ⟨hc _, fun _ hr => by cases hr⟩ (Prod.ext hrun rfl)
      split at h
      · next record hrecord =>
        cases h
        exact ⟨he.host, he.record record hrecord, ⟨field, hfield, hchain⟩, horigin⟩
      · cases h

/-- By induction on the classes that are left. -/
theorem emerges_transformClasses {p : Pipeline} (hp : .installRecordField ∈ p.rules)
    {m : Module} (facts : Facts) {out : Outcome} {classes : List ClassDecl}
    (hmem : classes ⊆ m.classes)
    (hclasses : ∀ c ∈ classes, ∀ framed, c.Guarded framed c.assigningGetters)
    (hout : ∀ c ∈ out.module.classes, Emerges m.classes out.transformed c) :
    let later := (transformClasses m facts p out classes).1
    ∀ c ∈ later.module.classes, Emerges m.classes later.transformed c := by
  induction classes generalizing p out with
  | nil => exact hout
  | cons c rest ih =>
    obtain ⟨hc, hrest⟩ := List.cons_subset.mp hmem
    rw [List.forall_mem_cons] at hclasses
    obtain ⟨stats, hnext⟩ :=
      p.transformClass_snd m ((facts.get? c.name).getD {}) out.module.classes.length c
    have hkept : ∀ d ∈ out.module.classes ++ [c], Emerges m.classes out.transformed d :=
      List.forall_mem_append.mpr ⟨hout, List.forall_mem_singleton.mpr (.inl (hclasses.1 []))⟩
    unfold transformClasses
    dsimp only
    rw [hnext]
    split
    · next t ht =>
      refine ih (p := { p with stats }) hp hrest hclasses.2 ?_
      have hlast : t ∈ out.transformed ++ [t] := List.mem_append_right _ (List.mem_singleton_self t)
      have hsource : ∃ d ∈ m.classes, d.name = t.host.name ∧ t.Guarded d.assigningGetters :=
        ⟨c, hc, (framedAt_of_transformClass ht).host_name.symm,
          guarded_of_transformClass hp hclasses.1 ht⟩
      refine List.forall_mem_append.mpr ⟨fun d hd => ?_, ?_⟩
      · exact (hout d hd).mono (List.subset_append_left ..)
      · exact List.forall_mem_cons.mpr ⟨.inr ⟨t, hlast, .inl rfl, hsource⟩,
          List.forall_mem_singleton.mpr (.inr ⟨t, hlast, .inr rfl, hsource⟩)⟩
    · exact ih (p := { p with stats }) hp hrest hclasses.2 hkept
    · exact ih (p := { p with stats }) hp hrest hclasses.2 hkept

end Pipeline

end Framing

end VersionedObjects
