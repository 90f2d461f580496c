import VersionedObjects.Proofs.Framing.Host

/-!
# The properties to frame

Facts name the properties to frame, and what is selected by these names are the first properties
of the class that bear them, each once and in the order of the facts. Where a class is framed every
name can be used, every value is stored and the record type has a base that it can extend, and
there is one thing that comes out. Main statement: `Pipeline.framesAs_of_transformClass`.
-/

namespace VersionedObjects.Framing

open Declaration

/-! ## Facts -/

/-- A property to frame is declared as mutable. -/
theorem exists_mutable_of_mem_classFacts {m : Module} {c : ClassDecl} {name : String}
    (h : name ∈ (classFacts m c).properties) :
    ∃ q ∈ c.properties, q.name = name ∧ q.mutable = true := by
  unfold classFacts at h
  split at h
  · cases h
  · obtain ⟨q, hq, rfl⟩ := List.mem_map.mp h
    obtain ⟨hmem, hkeep⟩ := List.mem_filter.mp hq
    exact ⟨q, hmem, rfl, (Bool.and_eq_true_iff.mp hkeep).1⟩

/-- Where names tell properties apart no fact is stated twice. -/
theorem nodup_classFacts (m : Module) {c : ClassDecl} (hc : DistinctProperties c) :
    (classFacts m c).properties.Nodup := by
  unfold classFacts
  split
  · exact List.nodup_nil
  · exact hc.sublist (List.filter_sublist.map _)

/-! ## Selection -/

/-- A name that generated members can bear. -/
def Usable (name : String) : Prop :=
  name ∉ reservedNames ∧ isIdentifier name = true

/-- A name passes the check exactly if it is usable. -/
theorem checkName_eq_ok_iff {className name : String} :
    checkName className name = .ok () ↔ Usable name := by
  unfold checkName Usable
  split
  · next hreserved => simp_all
  · split <;> simp_all

/-- What is selected of a class by names, beside the names that were selected before. -/
structure Selects (c : ClassDecl) (old names : List String) (ps : List Property) : Prop where
  found : ∀ p ∈ ps, c.property? p.name = some p
  backed : ∀ p ∈ ps, p.hasBackingField = true
  nodup : (ps.map (·.name)).Nodup
  new : ∀ p ∈ ps, p.name ∉ old
  sublist : (ps.map (·.name)).Sublist names
  complete : ∀ name ∈ names, (c.property? name).isSome = true → name ∈ old ++ ps.map (·.name)
  usable : ∀ name ∈ names, Usable name

namespace Selects

variable {c : ClassDecl} {old names : List String} {ps : List Property}

/-- A class whose properties were selected can be framed. -/
theorem framable (h : Selects c old names ps) : Framable c ps :=
  ⟨fun p hp => (mem_of_property? (h.found p hp)).1, h.nodup, h.backed⟩

/-- A name that changes nothing. -/
theorem cons_old (h : Selects c old names ps) {name : String} (husable : Usable name)
    (hdone : (c.property? name).isSome = true → name ∈ old) :
    Selects c old (name :: names) ps :=
  { h with
    sublist := h.sublist.cons name
    complete := List.forall_mem_cons.mpr
      ⟨fun hsome => List.mem_append_left _ (hdone hsome), h.complete⟩
    usable := List.forall_mem_cons.mpr ⟨husable, h.usable⟩ }

/-- A name that selects one more property. -/
theorem cons_new {p : Property} (h : Selects c (old ++ [p.name]) names ps)
    (husable : Usable p.name) (hfound : c.property? p.name = some p)
    (hbacked : p.hasBackingField = true) (hnew : p.name ∉ old) :
    Selects c old (p.name :: names) (p :: ps) where
  found := List.forall_mem_cons.mpr ⟨hfound, h.found⟩
  backed := List.forall_mem_cons.mpr ⟨hbacked, h.backed⟩
  nodup := by
    refine List.nodup_cons.mpr ⟨fun hmem => ?_, h.nodup⟩
    obtain ⟨q, hq, hname⟩ := List.mem_map.mp hmem
    exact h.new q hq (by simp [hname])
  new := List.forall_mem_cons.mpr
    ⟨hnew, fun q hq hold => h.new q hq (List.mem_append_left _ hold)⟩
  sublist := h.sublist.cons_cons p.name
  complete := List.forall_mem_cons.mpr
    ⟨fun _ => by simp, fun name hname hsome => by simpa using h.complete name hname hsome⟩
  usable := List.forall_mem_cons.mpr ⟨husable, h.usable⟩

/-- Where names differ and are declared, all of them are selected. -/
theorem names_eq (h : Selects c [] names ps) (hnames : names.Nodup)
    (hdeclared : ∀ name ∈ names, ∃ q ∈ c.properties, q.name = name) :
    ps.map (·.name) = names := by
  refine h.sublist.eq_of_length_le (hnames.length_le_of_subset fun name hname => ?_)
  obtain ⟨q, hq, rfl⟩ := hdeclared name hname
  exact h.complete _ hname (List.find?_isSome.mpr ⟨q, hq, by simp⟩)

/-- Where names differ and mutable properties are to be framed, they are the ones that a host has
redirected. -/
theorem exists_mutable_of_mem_hostOf (hc : DistinctProperties c) (h : Selects c old names ps)
    (hmutable : ∀ name ∈ names, ∃ q ∈ c.properties, q.name = name ∧ q.mutable = true)
    {recordType : TypeExpr} {q : Property} (hq : q ∈ (hostOf c recordType ps).properties)
    (hname : q.name ∈ ps.map (·.name)) :
    ∃ p, p.mutable = true ∧ q = Rule.redirectProperty recordType (Rule.withoutInitializer p) := by
  obtain ⟨p, hp, -, rfl⟩ := exists_of_mem_hostOf hc hq hname
  obtain ⟨other, hother, hsame, hvar⟩ := hmutable _ (h.sublist.subset hname)
  obtain rfl := List.inj_on_of_nodup_map hc hother hp hsame
  exact ⟨other, hvar, rfl⟩

end Selects

namespace Pipeline

/-- By induction on the names. -/
theorem selects_of_selectProperties {c : ClassDecl} {old names out : List String}
    (h : selectProperties c old names = .ok out) :
    ∃ ps, out = old ++ ps.map (·.name) ∧ Selects c old names ps := by
  induction names generalizing old with
  | nil =>
    cases h
    exact ⟨[], by simp, ⟨nofun, nofun, List.nodup_nil, nofun, .slnil, nofun, nofun⟩⟩
  | cons name rest ih =>
    rw [selectProperties] at h
    obtain ⟨_, hname, h⟩ := bind_eq_ok_iff.mp h
    have husable := checkName_eq_ok_iff.mp hname
    split at h
    · next hnone =>
      obtain ⟨ps, hout, hps⟩ := ih h
      exact ⟨ps, hout, hps.cons_old husable fun hsome => by simp [hnone] at hsome⟩
    · next p hp =>
      obtain ⟨-, rfl⟩ := mem_of_property? hp
      split at h
      · cases h
      · next hbacked =>
        have hbacked : p.hasBackingField = true := by simpa using hbacked
        split at h
        · next hold =>
          obtain ⟨ps, hout, hps⟩ := ih h
          exact ⟨ps, hout, hps.cons_old husable fun _ => by simpa using hold⟩
        · next hnew =>
          obtain ⟨ps, hout, hps⟩ := ih h
          refine ⟨p :: ps, by simp [hout], hps.cons_new husable hp hbacked ?_⟩
          simpa using hnew

/-- A name is at fault where none can be selected. By induction on the names. -/
theorem of_selectProperties_error {c : ClassDecl} {old names : List String} {e : FramingError}
    (h : selectProperties c old names = .error e) :
    ∃ name ∈ names, checkName c.name name = .error e ∨
      ∃ p, c.property? name = some p ∧ p.hasBackingField = false ∧
        e = { className := c.name, cause := .missingBackingField name } := by
  induction names generalizing old with
  | nil => cases h
  | cons name rest ih =>
    have hlater {old : List String} (h : selectProperties c old rest = .error e) :=
      (ih h).imp fun other hother => And.imp_left (List.mem_cons_of_mem name) hother
    rw [selectProperties] at h
    cases hname : checkName c.name name with
    | error refusal =>
      rw [hname] at h
      cases h
      exact ⟨name, List.mem_cons_self, .inl hname⟩
    | ok _ =>
      rw [hname] at h
      dsimp only [bind, Except.bind] at h
      split at h
      · exact hlater h
      · next p hp =>
        split at h
        · next hbacked =>
          cases h
          exact ⟨name, List.mem_cons_self, .inr ⟨p, hp, by simpa using hbacked, rfl⟩⟩
        · split at h <;> exact hlater h

/-- The draft of a class with certain properties to frame. -/
def draftOf (p : Pipeline) (i : Nat) (c : ClassDecl) (ps : List Property)
    (baseRecord : ClassDecl) : Draft :=
  { host := c, hostIndex := i, framed := ps.map (·.name), baseRecord
    recordType := .named (c.name ++ p.recordSuffix) }

/-- A class for which there is a draft is usable and its properties were selected. -/
theorem draft?_eq_some {p : Pipeline} {m : Module} {facts : ClassFacts} {hostIndex : Nat}
    {c : ClassDecl} {d : Draft} (h : p.draft? m facts hostIndex c = .ok (some d)) :
    c.isFramed = false ∧ Usable c.name ∧
      ∃ ps baseRecord, p.environment.resolve? m p.recordBase = some baseRecord ∧
        Selects c [] facts.properties ps ∧ d = p.draftOf hostIndex c ps baseRecord := by
  unfold draft? at h
  split at h
  · cases h
  · next hcond =>
    have hnot : c.isFramed = false := by
      cases hframed : c.isFramed <;> simp_all
    obtain ⟨framed, hselect, h⟩ := bind_eq_ok_iff.mp h
    obtain ⟨ps, rfl, hps⟩ := selects_of_selectProperties hselect
    split at h
    · cases h
    · obtain ⟨_, hname, h⟩ := bind_eq_ok_iff.mp h
      split at h
      · cases h
      · next baseRecord hbase =>
        cases h
        exact ⟨hnot, checkName_eq_ok_iff.mp hname, ps, baseRecord, hbase, hps, rfl⟩

/-- What becomes of a class, apart from what is counted. -/
theorem transformClass_fst (p : Pipeline) (m : Module) (facts : ClassFacts) (i : Nat)
    (c : ClassDecl) :
    (p.transformClass m facts i c).1 = (do
      match ← p.draft? m facts i c with
      | none => return none
      | some d =>
        let d ← outcome d p.rules
        match d.record with
        | some record => return some { host := d.host, record, framed := d.framed }
        | none =>
          let cause := Cause.rule "ClassTransformer" "pipeline produced no record type"
          .error { className := c.name, cause }) := by
  unfold transformClass
  cases p.draft? m facts i c with
  | error e => rfl
  | ok draft =>
    cases draft with
    | none => rfl
    | some d =>
      have hout := runRules_fst p.stats d p.rules
      dsimp only [bind, Except.bind]
      rw [← hout]
      cases (runRules p.stats d p.rules).1 with
      | error e => rfl
      | ok e => cases hrecord : e.record <;> simp [hrecord, pure, Except.pure]

/-- A class that is framed, and what comes of it. -/
structure FramesAs (p : Pipeline) (m : Module) (names : List String) (i : Nat) (c : ClassDecl)
    (ps : List Property) (baseRecord : ClassDecl) (t : FramedClass) : Prop where
  unframed : c.isFramed = false
  usable : Usable c.name
  selects : Selects c [] names ps
  base : p.environment.resolve? m p.recordBase = some baseRecord
  constructible : hasZeroArgConstructor baseRecord = true
  detached : ∀ q ∈ t.host.properties, q.name ∈ t.framed → Detached q
  eq : t = { host := hostOf c (.named (c.name ++ p.recordSuffix)) ps
             record := recordOf (p.draftOf i c ps baseRecord) ps
             framed := ps.map (·.name) }

/-- A class that comes through all rules is framed as they say. -/
theorem framesAs_of_transformClass {p : Pipeline} (hp : p.rules = Rule.all) {m : Module}
    {facts : ClassFacts} {i : Nat} {c : ClassDecl} {t : FramedClass}
    (h : (p.transformClass m facts i c).1 = .ok (some t)) :
    ∃ ps baseRecord, p.FramesAs m facts.properties i c ps baseRecord t := by
  rw [transformClass_fst, hp] at h
  obtain ⟨draft, hdraft, h⟩ := bind_eq_ok_iff.mp h
  cases draft with
  | none => cases h
  | some d =>
    obtain ⟨e, hout, h⟩ := bind_eq_ok_iff.mp h
    obtain ⟨hnot, husable, ps, baseRecord, hbase, hps, rfl⟩ := draft?_eq_some hdraft
    obtain ⟨hzero, hdetached, rfl⟩ :=
      (outcome_all_eq_ok_iff rfl hnot rfl hps.nodup hps.found).mp hout
    cases h
    exact ⟨ps, baseRecord, hnot, husable, hps, hbase, hzero, hdetached, rfl⟩

end Pipeline

end VersionedObjects.Framing
