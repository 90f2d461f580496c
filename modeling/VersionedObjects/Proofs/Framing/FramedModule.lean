import VersionedObjects.Proofs.Associations
import VersionedObjects.Proofs.Framing.Selection

/-!
# What framing makes of a module

A module that is framed without errors keeps its classes in order; each stays as it is or is
replaced by its host, followed by its record type. Where no class has taken its name, the record
type is found by it.
-/

namespace VersionedObjects.Framing

open Declaration

/-- The record type of a framed class as the class names it. -/
def recordTypeOf (c : ClassDecl) : TypeExpr :=
  .named (c.name ++ "Record")

/-- Classes and what they are framed into, with the framed classes among them. -/
inductive Frames : List ClassDecl → List ClassDecl → List FramedClass → Prop where
  | nil : Frames [] [] []
  | kept {classes out framed} (c : ClassDecl) :
      Frames classes out framed → Frames (c :: classes) (c :: out) framed
  | framed {classes out framed} {c : ClassDecl} {t : FramedClass} {ps : List Property} :
      FramesInto c (recordTypeOf c) ps t.host t.record → Frames classes out framed →
      Frames (c :: classes) (t.host :: t.record :: out) (t :: framed)

/-- The class without the mark that asks for framing. -/
def unmarked (c : ClassDecl) : ClassDecl :=
  { c with annotations := c.annotations.filter (· != framedMark) }

/-- The module without the marks that ask for framing. -/
def unmarkedModule (m : Module) : Module :=
  ⟨m.classes.map unmarked⟩

namespace Pipeline

/-! ## Classes in order -/

/-- The pipeline runs every rule in order and names record types the usual way. -/
structure Usual (p : Pipeline) : Prop where
  rules : p.rules = Rule.all
  suffix : p.recordSuffix = "Record"

/-- A class that the usual rules frame is framed into a host and a record. -/
theorem transformClass_eq_some {p : Pipeline} (hp : p.Usual) {m : Module}
    {facts : ClassFacts} {hostIndex : Nat} {c : ClassDecl} (hc : DistinctProperties c)
    {t : FramedClass} (h : (p.transformClass m facts hostIndex c).1 = .ok (some t)) :
    ∃ ps, FramesInto c (recordTypeOf c) ps t.host t.record := by
  obtain ⟨ps, baseRecord, hframes⟩ := framesAs_of_transformClass hp.rules h
  have hinto := framesInto_hostOf (d := p.draftOf hostIndex c ps baseRecord) hc
    hframes.selects.framable
  have htype : (p.draftOf hostIndex c ps baseRecord).recordType = recordTypeOf c := by
    rw [draftOf, hp.suffix, recordTypeOf]
  obtain rfl := hframes.eq
  refine ⟨ps, htype ▸ ?_⟩
  exact hinto

/-- Framing changes of a pipeline only its counts. -/
theorem Usual.transformClass {p : Pipeline} (hp : p.Usual) (m : Module) (facts : ClassFacts)
    (hostIndex : Nat) (c : ClassDecl) : (p.transformClass m facts hostIndex c).2.Usual := by
  unfold Pipeline.transformClass
  repeat' split
  all_goals exact ⟨hp.rules, hp.suffix⟩

/-- Errors are only added. -/
theorem errors_transformClasses (m : Module) (facts : Facts) (p : Pipeline) (out : Outcome)
    (classes : List ClassDecl) :
    ∃ more, (transformClasses m facts p out classes).1.summary.errors =
      out.summary.errors ++ more := by
  induction classes generalizing p out with
  | nil => exact ⟨[], by simp [transformClasses]⟩
  | cons c rest ih =>
    unfold transformClasses
    dsimp only
    split
    · exact ih ..
    · exact ih ..
    · next e _ =>
      obtain ⟨more, hmore⟩ := ih _ _
      exact ⟨e :: more, by rw [hmore]; simp⟩

/-- By induction on the classes that are left. -/
theorem frames_transformClasses {m : Module} {facts : Facts} {p : Pipeline}
    (hp : p.Usual) {out : Outcome} {classes : List ClassDecl}
    (hclasses : ∀ c ∈ classes, DistinctProperties c)
    (hok : (transformClasses m facts p out classes).1.summary.errors = []) :
    ∃ added framed,
      (transformClasses m facts p out classes).1.module.classes =
        out.module.classes ++ added ∧
      (transformClasses m facts p out classes).1.transformed = out.transformed ++ framed ∧
      Frames classes added framed := by
  induction classes generalizing p out with
  | nil => exact ⟨[], [], by simp [transformClasses], by simp [transformClasses], .nil⟩
  | cons c rest ih =>
    rw [List.forall_mem_cons] at hclasses
    have hnext := hp.transformClass m ((facts.get? c.name).getD {}) out.module.classes.length c
    unfold transformClasses at hok ⊢
    dsimp only at hok ⊢
    split at hok
    · next t ht =>
      obtain ⟨ps, hinto⟩ := transformClass_eq_some hp hclasses.1 ht
      obtain ⟨added, framed, hadded, hframed, hrest⟩ := ih hnext hclasses.2 hok
      refine ⟨t.host :: t.record :: added, t :: framed, ?_, ?_, .framed hinto hrest⟩
      · rw [hadded]; simp
      · rw [hframed]; simp
    · obtain ⟨added, framed, hadded, hframed, hrest⟩ := ih hnext hclasses.2 hok
      refine ⟨c :: added, framed, ?_, ?_, .kept c hrest⟩
      · rw [hadded]; simp
      · rw [hframed]
    · obtain ⟨more, hmore⟩ := errors_transformClasses m facts _ _ rest
      rw [hmore] at hok
      simp at hok

/-- The rules are given by falling priority already. -/
theorem standard_eq (environment : Environment) :
    standard environment = ofRules environment Rule.all := by
  have hsorted : Rule.all.mergeSort (fun a b => decide (b.priority ≤ a.priority)) = Rule.all :=
    List.mergeSort_of_pairwise (by decide : Rule.all.Pairwise fun a b =>
      decide (b.priority ≤ a.priority) = true)
  have hrules : (ofRules environment Rule.all).rules = Rule.all := rfl
  rw [standard, sorted, hrules, hsorted]
  rfl

/-- The standard pipeline has the usual rules. -/
theorem usual_standard : standard.Usual := by
  rw [standard_eq]
  exact ⟨rfl, rfl⟩

/-- A module that is framed without errors. -/
theorem frames_transform {m : Module} (hm : ∀ c ∈ m.classes, DistinctProperties c)
    (hok : (standard.transform m).1.summary.errors = []) :
    Frames m.classes (standard.transform m).1.module.classes
      (standard.transform m).1.transformed := by
  obtain ⟨added, framed, hadded, hframed, hframes⟩ :=
    frames_transformClasses usual_standard hm hok
  rw [List.nil_append] at hadded hframed
  rw [← hadded, ← hframed] at hframes
  exact hframes

/-! ## Modules without marks -/

/-- By induction on the classes, none of which is to be framed. -/
theorem transformClasses_unframed {m : Module} {facts : Facts}
    (hfacts : ∀ name, ((facts.get? name).getD {}).framed = false) (p : Pipeline) (out : Outcome)
    (classes : List ClassDecl) :
    (transformClasses m facts p out classes).1.module.classes = out.module.classes ++ classes := by
  induction classes generalizing p out with
  | nil => simp [transformClasses]
  | cons c rest ih =>
    have hnone : p.draft? m ((facts.get? c.name).getD {}) out.module.classes.length c =
        .ok none := by
      rw [draft?, hfacts c.name]
      simp
    rw [transformClasses]
    simp only [transformClass, hnone]
    rw [ih]
    simp

/-- A module without marks stays as it is. -/
theorem transform_unmarked {m : Module} (hm : ∀ c ∈ m.classes, c.hasMark framedMark = false) :
    (standard.transform m).1.module.classes = m.classes := by
  have hall : ∀ entry ∈ Facts.analyze m, entry.2.framed = false := by
    refine Association.forall_ofPairs (P := fun facts : ClassFacts => facts.framed = false)
      fun entry hentry => ?_
    obtain ⟨c, hc, rfl⟩ := List.mem_map.mp hentry
    simp [classFacts, hm c hc]
  refine (transformClasses_unframed (fun name => ?_) standard _ m.classes).trans
    (List.nil_append _)
  cases hget : (Facts.analyze m).get? name with
  | none => rfl
  | some facts =>
    obtain ⟨entry, hentry, rfl⟩ := Option.map_eq_some_iff.mp hget
    exact hall entry (List.mem_of_find?_eq_some hentry)

/-- A module without marks is left as it is. -/
theorem transform_unmarkedModule (m : Module) :
    (standard.transform (unmarkedModule m)).1.module = unmarkedModule m := by
  have hclasses := transform_unmarked (m := unmarkedModule m) (by
    intro c hc
    obtain ⟨d, -, rfl⟩ := List.mem_map.mp hc
    simp [ClassDecl.hasMark, unmarked])
  cases hmodule : (standard.transform (unmarkedModule m)).1.module with
  | mk classes =>
    rw [hmodule] at hclasses
    rw [show classes = (unmarkedModule m).classes from hclasses]

end Pipeline

/-! ## Finding record types -/

namespace Frames

variable {classes out : List ClassDecl} {framed : List FramedClass}

/-- What a module is framed into: its classes by name, and record types. -/
theorem name_of_mem (h : Frames classes out framed) {d : ClassDecl} (hd : d ∈ out) :
    (∃ c ∈ classes, c.name = d.name) ∨ ∃ t ∈ framed, t.record = d := by
  induction h with
  | nil => cases hd
  | kept c _ ih =>
    rcases List.mem_cons.mp hd with rfl | hd
    · exact .inl ⟨d, List.mem_cons_self, rfl⟩
    · exact (ih hd).imp_left fun ⟨c, hc, hname⟩ => ⟨c, List.mem_cons_of_mem _ hc, hname⟩
  | @framed classes out framed c t ps hinto _ ih =>
    rcases List.mem_cons.mp hd with rfl | hd
    · exact .inl ⟨c, List.mem_cons_self, hinto.host_name.symm⟩
    rcases List.mem_cons.mp hd with rfl | hd
    · exact .inr ⟨t, List.mem_cons_self, rfl⟩
    · rcases ih hd with ⟨c, hc, hname⟩ | ⟨u, hu, hrecord⟩
      · exact .inl ⟨c, List.mem_cons_of_mem _ hc, hname⟩
      · exact .inr ⟨u, List.mem_cons_of_mem _ hu, hrecord⟩

/-- A record type has the name of one of the classes in its own. -/
theorem record_name_of_mem (h : Frames classes out framed) {t : FramedClass} (ht : t ∈ framed) :
    ∃ c ∈ classes, t.record.name = c.name ++ "Record" := by
  induction h with
  | nil => cases ht
  | kept c _ ih =>
    obtain ⟨c, hc, hname⟩ := ih ht
    exact ⟨c, List.mem_cons_of_mem _ hc, hname⟩
  | @framed classes out framed c u ps hinto _ ih =>
    rcases List.mem_cons.mp ht with rfl | ht
    · exact ⟨c, List.mem_cons_self, hinto.record_name⟩
    · obtain ⟨c, hc, hname⟩ := ih ht
      exact ⟨c, List.mem_cons_of_mem _ hc, hname⟩

/-- Record types of classes with different names have different names. -/
theorem record_names_nodup (h : Frames classes out framed)
    (hnodup : (classes.map (·.name)).Nodup) : (framed.map (·.record.name)).Nodup := by
  induction h with
  | nil => exact List.nodup_nil
  | kept c _ ih => exact ih (List.nodup_cons.mp hnodup).2
  | @framed classes out framed c t ps hinto hrest ih =>
    rw [List.map_cons, List.nodup_cons] at hnodup ⊢
    refine ⟨fun hmem => hnodup.1 ?_, ih hnodup.2⟩
    obtain ⟨u, hu, hname⟩ := List.mem_map.mp hmem
    obtain ⟨d, hd, hrecord⟩ := hrest.record_name_of_mem hu
    rw [hname, hinto.record_name] at hrecord
    have hsame : c.name = d.name := by
      simpa [recordTypeOf, TypeExpr.named, TypeExpr.name] using hrecord
    exact hsame ▸ List.mem_map_of_mem hd

/-- The record of each framed class is in the module that comes out. -/
theorem record_mem (h : Frames classes out framed) {t : FramedClass} (ht : t ∈ framed) :
    t.record ∈ out := by
  induction h with
  | nil => cases ht
  | kept c _ ih => exact List.mem_cons_of_mem _ (ih ht)
  | @framed classes out framed c u ps hinto _ ih =>
    rcases List.mem_cons.mp ht with rfl | ht
    · exact List.mem_cons_of_mem _ List.mem_cons_self
    · exact List.mem_cons_of_mem _ (List.mem_cons_of_mem _ (ih ht))

/-- Where no class bears the name of a record type, the record type is found by its name. -/
theorem class?_record (h : Frames classes out framed) (hnodup : (classes.map (·.name)).Nodup)
    (hfree : ∀ t ∈ framed, ∀ c ∈ classes, c.name ≠ t.record.name) {t : FramedClass}
    (ht : t ∈ framed) : (⟨out⟩ : Module).class? t.record.name = some t.record := by
  cases hfound : (⟨out⟩ : Module).class? t.record.name with
  | none => exact absurd (List.find?_eq_none.mp hfound _ (h.record_mem ht)) (by simp)
  | some d =>
    have hname : d.name = t.record.name := by simpa using List.find?_some hfound
    rcases h.name_of_mem (List.mem_of_find?_eq_some hfound) with ⟨c, hc, hcname⟩ | ⟨u, hu, rfl⟩
    · exact absurd (hcname.trans hname) (hfree t ht c hc)
    · have hsame : u = t := List.inj_on_of_nodup_map (h.record_names_nodup hnodup) hu ht hname
      rw [hsame]

end Frames

end VersionedObjects.Framing
