import VersionedObjects.Proofs.Framing.FramedAgain
import VersionedObjects.Proofs.Framing.Redirected

/-!
# What hinders framing

A class with properties to frame is not framed where one of its names is taken or cannot be
spelled, a property to frame has no stored value, or the base of its record type is unknown or
cannot be extended; and it is framed everywhere else. The rules never leave a class inconsistent.
Main statement: `Pipeline.fails_iff_hindered`.
-/

namespace VersionedObjects.Framing

open Declaration

/-- Why a class cannot be framed by certain names. -/
inductive Hinders (p : Pipeline) (m : Module) (names : List String) (c : ClassDecl) :
    Cause → Prop where
  | reserved {name : String} : name ∈ c.name :: names → name ∈ reservedNames →
      Hinders p m names c (.reservedName name)
  | misspelled {name : String} : name ∈ c.name :: names → isIdentifier name = false →
      Hinders p m names c (.invalidIdentifier name)
  | computed {q : Property} : q ∈ c.properties → q.name ∈ names → q.hasBackingField = false →
      Hinders p m names c (.missingBackingField q.name)
  | unknownBase : m.class? p.recordBase = none → p.environment.get? p.recordBase = none →
      Hinders p m names c (.missingRecordBase p.recordBase)
  /-- Every constructor of the base wants arguments. -/
  | demandingBase {base : ClassDecl} : p.environment.resolve? m p.recordBase = some base →
      base.constructors ≠ [] → (∀ k ∈ base.constructors, k.params ≠ []) →
      Hinders p m names c (.missingBaseConstructor base.name)

/-- The error names the class, and a reason that holds of it. -/
def Explains (p : Pipeline) (m : Module) (names : List String) (c : ClassDecl)
    (e : FramingError) : Prop :=
  e.className = c.name ∧ Hinders p m names c e.cause

/-- A class lacks a constructor without parameters when it declares some and each has parameters. -/
theorem hasZeroArgConstructor_eq_false_iff {c : ClassDecl} :
    hasZeroArgConstructor c = false ↔
      c.constructors ≠ [] ∧ ∀ k ∈ c.constructors, k.params ≠ [] := by
  simp [hasZeroArgConstructor, Constructor.isZeroArg]

/-- A name resolves to nothing when neither the module nor the environment has it. -/
theorem resolve?_eq_none_iff {env : Environment} {m : Module} {name : String} :
    env.resolve? m name = none ↔ m.class? name = none ∧ env.get? name = none := by
  unfold Environment.resolve?
  cases m.class? name <;> simp

namespace Pipeline

section

variable {p : Pipeline} {m : Module} {c : ClassDecl} {names : List String}
  {ps : List Property}

/-- A name that fails its check is a hindrance that explains the error. -/
theorem explains_of_checkName {name : String} {e : FramingError}
    (hname : name ∈ c.name :: names) (h : checkName c.name name = .error e) :
    Explains p m names c e := by
  unfold checkName at h
  split at h
  · next hreserved =>
    cases h
    exact ⟨rfl, .reserved hname (by simpa using hreserved)⟩
  · split at h
    · next hspelled =>
      cases h
      exact ⟨rfl, .misspelled hname (by simpa using hspelled)⟩
    · cases h

/-- What goes wrong before the rules are run. -/
theorem explains_of_draft? {facts : ClassFacts} {i : Nat} {e : FramingError}
    (h : p.draft? m facts i c = .error e) : Explains p m facts.properties c e := by
  unfold draft? at h
  split at h
  · cases h
  cases hselect : selectProperties c [] facts.properties with
  | error refusal =>
    rw [hselect] at h
    cases h
    obtain ⟨name, hname, hrefused | ⟨q, hq, hbacked, rfl⟩⟩ := of_selectProperties_error hselect
    · exact explains_of_checkName (List.mem_cons_of_mem _ hname) hrefused
    · obtain ⟨hmem, rfl⟩ := mem_of_property? hq
      exact ⟨rfl, .computed hmem hname hbacked⟩
  | ok framed =>
    rw [hselect] at h
    dsimp only [bind, Except.bind] at h
    split at h
    · cases h
    · cases hname : checkName c.name c.name with
      | error refusal =>
        rw [hname] at h
        cases h
        exact explains_of_checkName List.mem_cons_self hname
      | ok _ =>
        rw [hname] at h
        dsimp only at h
        split at h
        · next hbase =>
          cases h
          obtain ⟨hclass, hknown⟩ := resolve?_eq_none_iff.mp hbase
          exact ⟨rfl, .unknownBase hclass hknown⟩
        · cases h

/-- Where names differ, what is redirected stores nothing outside records. -/
theorem detached_hostOf (hc : DistinctProperties c) (hps : Selects c [] names ps)
    (hmutable : ∀ name ∈ names, ∃ q ∈ c.properties, q.name = name ∧ q.mutable = true)
    (recordType : TypeExpr) :
    ∀ q ∈ (hostOf c recordType ps).properties, q.name ∈ ps.map (·.name) → Detached q := by
  intro q hq hname
  obtain ⟨old, hvar, rfl⟩ := hps.exists_mutable_of_mem_hostOf hc hmutable hq hname
  refine ⟨rfl, Rule.reachesBacking_redirectProperty recordType fun hval => ?_⟩
  exact absurd (hvar.symm.trans hval) (by decide)

/-- A framed class is not hindered. -/
theorem FramesAs.not_hinders (hc : DistinctProperties c) {i : Nat} {base : ClassDecl}
    {t : FramedClass} (h : p.FramesAs m names i c ps base t) (cause : Cause) :
    ¬ Hinders p m names c cause := by
  have husable : ∀ name ∈ c.name :: names, Usable name :=
    List.forall_mem_cons.mpr ⟨h.usable, h.selects.usable⟩
  intro hcause
  cases hcause with
  | reserved hname hreserved => exact (husable _ hname).1 hreserved
  | misspelled hname hspelled => simp [(husable _ hname).2] at hspelled
  | @computed q hq hname hbacked =>
    have hfound := property?_eq_some_of_mem hc hq
    have hmem := h.selects.complete _ hname (Option.isSome_of_eq_some hfound)
    obtain ⟨other, hother, hsame⟩ := List.mem_map.mp hmem
    have hother' := h.selects.found other hother
    rw [hsame, hfound] at hother'
    cases hother'
    simp [h.selects.backed q hother] at hbacked
  | unknownBase hclass hknown =>
    have hnone := resolve?_eq_none_iff.mpr ⟨hclass, hknown⟩
    exact absurd (hnone.symm.trans h.base) (by simp)
  | demandingBase hbase hconstructors hparams =>
    cases hbase.symm.trans h.base
    have hnot := hasZeroArgConstructor_eq_false_iff.mpr ⟨hconstructors, hparams⟩
    exact absurd (hnot.symm.trans h.constructible) (by decide)

/-- What goes wrong where properties with different names are mutable. -/
theorem explains_of_transformClass (hp : p.rules = Rule.all) (hc : DistinctProperties c)
    {facts : ClassFacts}
    (hmutable : ∀ name ∈ facts.properties, ∃ q ∈ c.properties, q.name = name ∧ q.mutable = true)
    {i : Nat} {e : FramingError} (h : (p.transformClass m facts i c).1 = .error e) :
    Explains p m facts.properties c e := by
  rw [transformClass_fst, hp] at h
  cases hdraft : p.draft? m facts i c with
  | error refusal =>
    rw [hdraft] at h
    cases h
    exact explains_of_draft? hdraft
  | ok draft =>
    rw [hdraft] at h
    cases draft with
    | none => cases h
    | some d =>
      obtain ⟨hnot, -, ps, base, hbase, hps, rfl⟩ := draft?_eq_some hdraft
      dsimp only [bind, Except.bind] at h
      cases hzero : hasZeroArgConstructor base with
      | false =>
        rw [outcome_all_of_base rfl hzero] at h
        cases h
        obtain ⟨hconstructors, hparams⟩ := hasZeroArgConstructor_eq_false_iff.mp hzero
        exact ⟨rfl, .demandingBase hbase hconstructors hparams⟩
      | true =>
        have hdetached := detached_hostOf hc hps hmutable (.named (c.name ++ p.recordSuffix))
        have hout := (outcome_all_eq_ok_iff (d := p.draftOf i c ps base) rfl hnot rfl hps.nodup
          hps.found).mpr ⟨hzero, hdetached, rfl⟩
        rw [hout] at h
        cases h

end

/-- **What hinders framing.** Whatever the environment, the base and the suffix of a pipeline of
all rules: a class whose properties have different names and of which some are to be framed, so
that it is not framed yet, becomes a host and a record type with just these properties, unless
something hinders it. The error then names the class and one of the things that do, and never
says that a rule left the class inconsistent. -/
theorem fails_iff_hindered {p : Pipeline} (hp : p.rules = Rule.all) {m : Module}
    (hm : (m.classes.map (·.name)).Nodup) {c : ClassDecl} (hc : c ∈ m.classes)
    (hdistinct : DistinctProperties c)
    (hsome : (((Facts.analyze m).get? c.name).getD {}).properties ≠ []) (i : Nat) :
    let facts := ((Facts.analyze m).get? c.name).getD {}
    let result := (p.transformClass m facts i c).1
    ((∃ e, result = .error e) ↔ ∃ cause, Hinders p m facts.properties c cause) ∧
    (∀ e, result = .error e → e.className = c.name ∧ Hinders p m facts.properties c e.cause ∧
      ∀ rule message, e.cause ≠ .rule rule message) ∧
    ((∀ cause, ¬ Hinders p m facts.properties c cause) →
      ∃ t, result = .ok (some t) ∧ t.framed = facts.properties) := by
  intro facts result
  have hfacts : facts = classFacts m c := by
    rw [show facts = ((Facts.analyze m).get? c.name).getD {} from rfl, get?_analyze hm hc,
      Option.getD_some]
  have hmutable : ∀ name ∈ facts.properties, ∃ q ∈ c.properties, q.name = name ∧
      q.mutable = true := by
    rw [hfacts]
    exact fun name => exists_mutable_of_mem_classFacts
  have hexplains (e : FramingError) (he : result = .error e) :
      Explains p m facts.properties c e :=
    explains_of_transformClass hp hdistinct hmutable he
  have hframed {t : FramedClass} (ht : result = .ok (some t)) :
      (∀ cause, ¬ Hinders p m facts.properties c cause) ∧ t.framed = facts.properties := by
    obtain ⟨ps, base, hframes⟩ := framesAs_of_transformClass hp ht
    refine ⟨hframes.not_hinders hdistinct, ?_⟩
    rw [hframes.eq]
    exact hframes.selects.names_eq (hfacts ▸ nodup_classFacts m hdistinct)
      fun name hname => (hmutable name hname).imp fun q hq => ⟨hq.1, hq.2.1⟩
  have hnone : result ≠ .ok none := by
    intro hnone
    have hdraft := draft?_of_transformClass hnone
    rw [hfacts] at hdraft
    exact hsome ((congrArg ClassFacts.properties hfacts).trans (properties_eq_nil_of_draft? hdraft))
  cases hresult : result with
  | error e =>
    obtain ⟨hname, hcause⟩ := hexplains e hresult
    refine ⟨⟨fun _ => ⟨e.cause, hcause⟩, fun _ => ⟨e, rfl⟩⟩, ?_, fun hfree => ?_⟩
    · rintro e' ⟨⟩
      refine ⟨hname, hcause, fun rule message hrule => ?_⟩
      rw [hrule] at hcause
      cases hcause
    · exact absurd hcause (hfree e.cause)
  | ok outcome =>
    cases outcome with
    | none => exact absurd hresult hnone
    | some t =>
      obtain ⟨hfree, hnames⟩ := hframed hresult
      refine ⟨⟨nofun, fun ⟨cause, hcause⟩ => absurd hcause (hfree cause)⟩, nofun, fun _ => ?_⟩
      exact ⟨t, rfl, hnames⟩

/-- A mutable property that is computed. -/
def computedSize : Property :=
  { name := "size", type := .named "Int", mutable := true
    getter := some { body := [.return (.literal (.int 2))] } }

/-- A class whose one property to be framed is computed, and whose name is taken. -/
def computedBox : ClassDecl :=
  { name := "new", annotations := [framedMark]
    properties := [computedSize, { name := "label", type := .named "String", mutable := false }] }

/-- Two things hinder the framing of the class; the error is one of them. -/
theorem fails_iff_hindered_computedBox :
    let m : Module := ⟨[computedBox]⟩
    let facts := ((Facts.analyze m).get? computedBox.name).getD {}
    standard.rules = Rule.all ∧ (m.classes.map (·.name)).Nodup ∧ DistinctProperties computedBox ∧
    facts.properties = ["size"] ∧
    Hinders standard m facts.properties computedBox (.reservedName "new") ∧
    Hinders standard m facts.properties computedBox (.missingBackingField "size") ∧
    ∃ e, (standard.transformClass m facts 0 computedBox).1 = .error e ∧ e.className = "new" ∧
      Hinders standard m facts.properties computedBox e.cause := by
  intro m facts
  have hm : (m.classes.map (·.name)).Nodup := by decide
  have hdistinct : DistinctProperties computedBox := by
    unfold DistinctProperties
    decide
  have hfacts : facts.properties = ["size"] := by decide +kernel
  have hname : Hinders standard m facts.properties computedBox (.reservedName "new") :=
    .reserved List.mem_cons_self (by decide)
  have hbacked : Hinders standard m facts.properties computedBox
      (.missingBackingField "size") := by
    refine .computed (q := computedSize) List.mem_cons_self ?_ rfl
    rw [hfacts]
    exact List.mem_singleton_self "size"
  have hsome : facts.properties ≠ [] := by
    rw [hfacts]
    exact List.cons_ne_nil _ _
  obtain ⟨hfails, hexplains, -⟩ := fails_iff_hindered usual_standard.rules hm
    (List.mem_singleton_self computedBox) hdistinct hsome 0
  obtain ⟨e, he⟩ := hfails.mpr ⟨_, hname⟩
  obtain ⟨hclass, hcause, -⟩ := hexplains e he
  exact ⟨usual_standard.rules, hm, hdistinct, hfacts, hname, hbacked, e, he, hclass, hcause⟩

end Pipeline

end VersionedObjects.Framing
