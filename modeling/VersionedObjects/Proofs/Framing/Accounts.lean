import Mathlib.Algebra.GroupWithZero.Nat
import VersionedObjects.Proofs.Framing.Hindrances

/-!
# The accounts of framing

Framing takes the classes of a module one by one. What becomes of a class depends on the pipeline,
the module and the place that its host will have, and not on what became of the classes before it:
the class is replaced by its host and its record type, or it stays as it is because there is
nothing to frame or framing fails. The summary adds up over the classes, and the counts of a
pipeline add up over its whole life. Main statement: `Pipeline.framing_accounts`.
-/

namespace VersionedObjects.Framing

open Declaration

/-! ## Errors name the class -/

namespace Rule

variable {d : Draft} {e : FramingError}

/-- By induction on the properties whose initializers are taken. -/
theorem className_takeInitializers {properties : List String}
    (h : (takeInitializers d properties).1 = .error e) : e.className = d.host.name := by
  induction properties generalizing d with
  | nil => cases h
  | cons name rest ih =>
    rw [takeInitializers] at h
    split at h
    · cases h
      rfl
    · rw [map_eq_error_iff] at h
      exact (ih h).trans rfl

/-- By induction on the properties that are redirected. -/
theorem className_redirectEach {properties : List String}
    (h : (redirectEach d properties).1 = .error e) : e.className = d.host.name := by
  induction properties generalizing d with
  | nil => cases h
  | cons name rest ih =>
    rw [redirectEach] at h
    split at h
    · cases h
      rfl
    · exact (ih h).trans rfl

/-- Of the framed properties the first one without a declaration is missed. -/
theorem className_recordFields (h : recordFields d = .error e) : e.className = d.host.name := by
  unfold recordFields at h
  generalize d.framed = names at h
  induction names with
  | nil => cases h
  | cons name rest ih =>
    rw [List.mapM_cons] at h
    cases hfound : d.host.property? name with
    | none =>
      rw [hfound] at h
      cases h
      rfl
    | some p =>
      rw [hfound] at h
      dsimp only [bind, Except.bind] at h
      split at h
      · next hrest =>
        cases h
        exact ih hrest
      · cases h

/-- A rule that fails names the class it fails for. -/
theorem className_apply {rule : Rule} (h : (rule.apply d).1 = .error e) :
    e.className = d.host.name := by
  cases rule with
  | synthesizeRecordType =>
    change (applySynthesizeRecordType d).1 = .error e at h
    unfold applySynthesizeRecordType at h
    split at h
    · cases h
      rfl
    split at h
    · next hfields =>
      cases h
      exact className_recordFields hfields
    · cases h
  | moveInitializers =>
    change (applyMoveInitializers d).1 = .error e at h
    unfold applyMoveInitializers at h
    dsimp only at h
    split at h
    · next hresult =>
      cases h
      exact className_takeInitializers (congrArg Prod.fst hresult)
    · cases h
  | redirectAccessors =>
    change (applyRedirectAccessors d).1 = .error e at h
    unfold applyRedirectAccessors at h
    split at h
    · next hresult =>
      cases h
      exact className_redirectEach (congrArg Prod.fst hresult)
    · cases h
  | installRecordField | installChainOperations | addFramedMarker => cases h

/-- A rule blames the class that it validates. -/
theorem className_validate {rule : Rule} (h : rule.validate d = .error e) :
    e.className = d.host.name := by
  unfold validate at h
  repeat' split at h
  all_goals cases h
  all_goals rfl

end Rule

namespace Pipeline

/-- By induction on the rules, none of which renames the class. -/
theorem className_outcome {d : Draft} {name : String} {i : Nat} {recordType : TypeExpr}
    {chained : Prop} (hd : d.Belongs name i recordType chained) {rules : List Rule}
    {e : FramingError} (h : outcome d rules = .error e) : e.className = name := by
  induction rules generalizing d chained with
  | nil => cases h
  | cons rule rest ih =>
    rw [outcome] at h
    split at h
    · have hnext := Rule.belongs_apply hd rule
      split at h
      · next changed next happly =>
        rw [happly] at hnext
        cases hvalid : rule.validate next with
        | error cause =>
          rw [hvalid] at h
          cases h
          exact (Rule.className_validate hvalid).trans hnext.host_name
        | ok _ =>
          rw [hvalid] at h
          exact ih hnext h
      · next happly =>
        cases h
        exact (Rule.className_apply (congrArg Prod.fst happly)).trans hd.host_name
    · exact ih hd h

/-- A class that cannot be framed is named by the error, whatever the rules. -/
theorem className_transformClass {p : Pipeline} {m : Module} {facts : ClassFacts} {i : Nat}
    {c : ClassDecl} {e : FramingError} (h : (p.transformClass m facts i c).1 = .error e) :
    e.className = c.name := by
  rw [transformClass_fst] at h
  cases hdraft : p.draft? m facts i c with
  | error cause =>
    rw [hdraft] at h
    cases h
    exact (explains_of_draft? hdraft).1
  | ok draft =>
    rw [hdraft] at h
    cases draft with
    | none => cases h
    | some d =>
      dsimp only [bind, Except.bind] at h
      split at h
      · next hout =>
        cases h
        exact className_outcome (belongs_draft hdraft) hout
      · split at h
        · cases h
        · cases h
          rfl

/-- What became of the classes before has no bearing on a class. -/
theorem transformClass_stats (p : Pipeline) (stats : Association RuleStats) (m : Module)
    (facts : ClassFacts) (i : Nat) (c : ClassDecl) :
    (transformClass { p with stats } m facts i c).1 = (p.transformClass m facts i c).1 := by
  rw [transformClass_fst, transformClass_fst]
  rfl

end Pipeline

/-! ## What becomes of the classes -/

/-- What becomes of a class: it is framed, there is nothing to frame, or framing fails. -/
abbrev Fate := Except FramingError (Option FramedClass)

namespace Fate

/-- What the class is framed into. -/
def framed? : Fate → Option FramedClass
  | .ok found => found
  | .error _ => none

/-- Why the class cannot be framed. -/
def error? : Fate → Option FramingError
  | .ok _ => none
  | .error e => some e

/-- There is nothing to frame. -/
def isSkip : Fate → Bool
  | .ok none => true
  | _ => false

/-- What comes out for the class. -/
def piece (c : ClassDecl) : Fate → List ClassDecl
  | .ok (some t) => [t.host, t.record]
  | _ => [c]

end Fate

/-- Classes, what becomes of each, and the classes that come out from a position on: host and
record type of a class that is framed, and any other class as it was. -/
inductive ClassByClass (fate : Nat → ClassDecl → Fate) :
    Nat → List ClassDecl → List Fate → List ClassDecl → Prop where
  | nil {i} : ClassByClass fate i [] [] []
  | framed {i c classes fates out} {t : FramedClass} : fate i c = .ok (some t) →
      ClassByClass fate (i + 2) classes fates out →
      ClassByClass fate i (c :: classes) (.ok (some t) :: fates) (t.host :: t.record :: out)
  | skipped {i c classes fates out} : fate i c = .ok none →
      ClassByClass fate (i + 1) classes fates out →
      ClassByClass fate i (c :: classes) (.ok none :: fates) (c :: out)
  | failed {i c classes fates out} {e : FramingError} : fate i c = .error e →
      ClassByClass fate (i + 1) classes fates out →
      ClassByClass fate i (c :: classes) (.error e :: fates) (c :: out)

namespace ClassByClass

variable {fate : Nat → ClassDecl → Fate} {i : Nat} {classes out : List ClassDecl}
  {fates : List Fate}

/-- One more class comes before the others. -/
theorem cons {c : ClassDecl}
    (h : ClassByClass fate (i + ((fate i c).piece c).length) classes fates out) :
    ClassByClass fate i (c :: classes) (fate i c :: fates) ((fate i c).piece c ++ out) := by
  rcases hc : fate i c with e | _ | t
  · rw [hc] at h
    exact .failed hc h
  · rw [hc] at h
    exact .skipped hc h
  · rw [hc] at h
    exact .framed hc h

/-- Every class has a fate. -/
theorem length_eq (h : ClassByClass fate i classes fates out) : fates.length = classes.length := by
  induction h with
  | nil => rfl
  | framed _ _ ih | skipped _ _ ih | failed _ _ ih =>
    rw [List.length_cons, List.length_cons, ih]

/-- Errors come in the order of the classes, which they name. -/
theorem errors_sublist (h : ClassByClass fate i classes fates out)
    (hname : ∀ i c e, fate i c = .error e → e.className = c.name) :
    ((fates.filterMap Fate.error?).map (·.className)).Sublist (classes.map (·.name)) := by
  induction h with
  | nil => exact .slnil
  | framed _ _ ih | skipped _ _ ih => exact ih.cons _
  | @failed i c classes fates out e hc _ ih =>
    have hcons : (Except.error e :: fates).filterMap Fate.error? =
        e :: fates.filterMap Fate.error? := rfl
    rw [hcons, List.map_cons, List.map_cons, hname i c e hc]
    exact ih.cons_cons _

end ClassByClass

namespace Summary

/-- The summary of what became of classes. -/
def ofFates (fates : List Fate) : Summary where
  seen := fates.length
  transformed := (fates.filterMap Fate.framed?).length
  skipped := fates.countP Fate.isSkip
  properties := ((fates.filterMap Fate.framed?).map (·.framed.length)).sum
  errors := fates.filterMap Fate.error?

/-- Summaries of parts may be merged in any grouping. -/
theorem merge_assoc (a b c : Summary) : (a.merge b).merge c = a.merge (b.merge c) := by
  simp [merge, Nat.add_assoc]

/-- Where there are no classes there is nothing to add. -/
theorem merge_ofFates_nil (s : Summary) : s.merge (ofFates []) = s := by
  simp [merge, ofFates]

/-- The summary of nothing adds nothing. -/
theorem merge_empty (s : Summary) : ({} : Summary).merge s = s := by
  simp [merge]

/-- The summary of fates is that of the first one, merged with that of the others. -/
theorem ofFates_cons (fate : Fate) (fates : List Fate) :
    ofFates (fate :: fates) = (ofFates [fate]).merge (ofFates fates) := by
  rcases fate with e | _ | t <;>
    simp [merge, ofFates, Fate.framed?, Fate.error?, Fate.isSkip, List.filterMap_cons,
      List.countP_cons, Nat.add_comm]

/-- Every class is framed, skipped or fails. -/
theorem seen_ofFates (fates : List Fate) :
    (ofFates fates).seen =
      (ofFates fates).transformed + (ofFates fates).skipped + (ofFates fates).errors.length := by
  induction fates with
  | nil => rfl
  | cons fate rest ih =>
    have hone : (ofFates [fate]).seen = (ofFates [fate]).transformed + (ofFates [fate]).skipped +
        (ofFates [fate]).errors.length := by
      rcases fate with e | _ | t <;> rfl
    rw [ofFates_cons]
    simp only [merge, List.length_append]
    omega

end Summary

/-- What has come out after one more class. -/
def Outcome.add (out : Outcome) (c : ClassDecl) (fate : Fate) : Outcome where
  module := ⟨out.module.classes ++ fate.piece c⟩
  transformed := out.transformed ++ fate.framed?.toList
  summary := out.summary.merge (.ofFates [fate])

namespace Pipeline

variable {p : Pipeline} {m : Module} {facts : Facts}

/-- One class is framed after the other. -/
theorem transformClasses_cons (p : Pipeline) (m : Module) (facts : Facts) (out : Outcome)
    (c : ClassDecl) (rest : List ClassDecl) :
    transformClasses m facts p out (c :: rest) =
      let next := p.transformClass m ((facts.get? c.name).getD {}) out.module.classes.length c
      transformClasses m facts next.2 (out.add c next.1) rest := by
  rw [transformClasses]
  dsimp only
  rcases hfate : (p.transformClass m ((facts.get? c.name).getD {})
    out.module.classes.length c).1 with e | _ | t <;>
  simp [Outcome.add, Fate.piece, Fate.framed?, Fate.isSkip, Fate.error?, Summary.merge,
    Summary.ofFates, List.filterMap_cons]

/-- By induction on the classes that are left, each of which finds the pipeline with other
counts. -/
theorem classByClass_transformClasses {fate : Nat → ClassDecl → Fate}
    (hfate : ∀ i c, (p.transformClass m ((facts.get? c.name).getD {}) i c).1 = fate i c)
    (out : Outcome) (classes : List ClassDecl) :
    ∃ fates added, ClassByClass fate out.module.classes.length classes fates added ∧
      (transformClasses m facts p out classes).1 =
        { module := ⟨out.module.classes ++ added⟩
          transformed := out.transformed ++ fates.filterMap Fate.framed?
          summary := out.summary.merge (.ofFates fates) } := by
  induction classes generalizing p out with
  | nil => exact ⟨[], [], .nil, by simp [transformClasses, Summary.merge_ofFates_nil]⟩
  | cons c rest ih =>
    obtain ⟨stats, hnext⟩ :=
      p.transformClass_snd m ((facts.get? c.name).getD {}) out.module.classes.length c
    have hlater : ∀ i c, (transformClass { p with stats } m ((facts.get? c.name).getD {}) i c).1 =
        fate i c :=
      fun i c => (transformClass_stats p stats m _ i c).trans (hfate i c)
    rw [transformClasses_cons]
    dsimp only
    rw [hnext, hfate]
    obtain ⟨fates, added, heach, hlast⟩ :=
      ih hlater (out.add c (fate out.module.classes.length c))
    refine ⟨_ :: fates, _ ++ added, .cons (by simpa [Outcome.add] using heach), ?_⟩
    rw [hlast, Summary.ofFates_cons, ← Summary.merge_assoc]
    cases hframed : (fate out.module.classes.length c).framed? <;>
      simp [Outcome.add, hframed]

end Pipeline

/-! ## The life of a pipeline -/

/-- What has been done to a rule fits: it was applied each time it changed a class or failed. -/
def RuleStats.Balanced (s : RuleStats) : Prop :=
  s.transformations + s.errors ≤ s.applications

/-- Counts that are kept for some rules and fit. -/
structure Balanced (rules : List Rule) (stats : Association RuleStats) : Prop where
  kept : ∀ rule ∈ rules, stats.has rule.name = true
  balanced : ∀ entry ∈ stats, entry.2.Balanced

namespace Balanced

variable {rules : List Rule} {stats : Association RuleStats}

/-- Counts that fit may be put in place of others. -/
theorem put (h : Balanced rules stats) (name : String) {s : RuleStats} (hs : s.Balanced) :
    Balanced rules (stats.put name s) where
  kept rule hrule := (Association.has_put stats name rule.name s).mpr (.inr (h.kept rule hrule))
  balanced := Association.forall_put h.balanced name hs

/-- What is counted of a rule so far fits. -/
theorem getD_get? (h : Balanced rules stats) (name : String) :
    ((stats.get? name).getD {}).Balanced := by
  cases hget : stats.get? name with
  | none => exact Nat.le_refl 0
  | some s =>
    obtain ⟨entry, hentry, rfl⟩ := Option.map_eq_some_iff.mp hget
    exact h.balanced entry (List.mem_of_find?_eq_some hentry)

/-- Every rule has counts, and they fit. -/
theorem get? (h : Balanced rules stats) {rule : Rule} (hrule : rule ∈ rules) :
    ∃ s, stats.get? rule.name = some s ∧ s.transformations + s.errors ≤ s.applications := by
  have hhas := h.kept rule hrule
  rw [Association.has_eq_isSome_get?] at hhas
  obtain ⟨s, hs⟩ := Option.isSome_iff_exists.mp hhas
  have hbalanced := h.getD_get? rule.name
  rw [hs] at hbalanced
  exact ⟨s, hs, hbalanced⟩

/-- Counts that are changed into ones that fit go on fitting. -/
theorem count (h : Balanced rules stats) (rule : Rule) {f : RuleStats → RuleStats}
    (hf : ∀ s : RuleStats, s.Balanced → (f s).Balanced) :
    Balanced rules (Pipeline.count stats rule f) :=
  h.put rule.name (hf _ (h.getD_get? rule.name))

/-- An application is counted first, and what came of it after that. -/
theorem count_count (h : Balanced rules stats) (rule : Rule) {f g : RuleStats → RuleStats}
    (hf : ∀ s : RuleStats, s.Balanced → (f s).Balanced)
    (hg : ∀ s : RuleStats, s.Balanced → (g (f s)).Balanced) :
    Balanced rules (Pipeline.count (Pipeline.count stats rule f) rule g) := by
  have hcounted : (Pipeline.count stats rule f).get? rule.name =
      some (f ((stats.get? rule.name).getD {})) := Association.get?_put_self _
  rw [Pipeline.count, hcounted]
  exact (h.count rule hf).put rule.name (hg _ (h.getD_get? rule.name))

end Balanced

namespace Pipeline

/-- By induction on the rules that are run. -/
theorem balanced_runRules {rules : List Rule} {stats : Association RuleStats}
    (h : Balanced rules stats) (d : Draft) (run : List Rule) :
    Balanced rules (runRules stats d run).2 := by
  induction run generalizing d stats with
  | nil => exact h
  | cons rule rest ih =>
    rw [runRules]
    split
    · exact ih h d
    · have happlied (s : RuleStats) (hs : s.Balanced) :
          RuleStats.Balanced { s with applications := s.applications + 1 } :=
        Nat.le_succ_of_le hs
      dsimp only
      split
      · refine ih (h.count_count rule happlied fun s hs => ?_) _
        unfold RuleStats.Balanced at hs ⊢
        dsimp only
        omega
      · exact ih (h.count rule happlied) _
      · refine h.count_count rule (g := fun s => { s with errors := s.errors + 1 }) happlied
          fun s hs => ?_
        unfold RuleStats.Balanced at hs ⊢
        dsimp only
        omega

/-- What becomes of one class leaves the counts fitting. -/
theorem balanced_transformClass {rules : List Rule} {p : Pipeline} (h : Balanced rules p.stats)
    (m : Module) (facts : ClassFacts) (i : Nat) (c : ClassDecl) :
    Balanced rules (p.transformClass m facts i c).2.stats := by
  unfold transformClass
  split
  · exact h
  · exact h
  · next d _ =>
    have hrun := balanced_runRules h d p.rules
    dsimp only
    split
    · exact hrun
    · split <;> exact hrun

/-- By induction on the classes that are left. -/
theorem balanced_transformClasses {rules : List Rule} {p : Pipeline}
    (h : Balanced rules p.stats) (m : Module) (facts : Facts) (out : Outcome)
    (classes : List ClassDecl) :
    Balanced rules (transformClasses m facts p out classes).2.stats := by
  induction classes generalizing p out with
  | nil => exact h
  | cons c rest ih =>
    rw [transformClasses_cons]
    exact ih (balanced_transformClass h m _ _ c) _

/-- Framing changes the counts of a pipeline and nothing else. By induction on the classes that are
left. -/
theorem transformClasses_snd (p : Pipeline) (m : Module) (facts : Facts) (out : Outcome)
    (classes : List ClassDecl) :
    ∃ stats, (transformClasses m facts p out classes).2 = { p with stats } := by
  induction classes generalizing p out with
  | nil => exact ⟨p.stats, rfl⟩
  | cons c rest ih =>
    obtain ⟨stats, hnext⟩ :=
      p.transformClass_snd m ((facts.get? c.name).getD {}) out.module.classes.length c
    rw [transformClasses_cons]
    dsimp only
    rw [hnext]
    exact ih _ _

/-- What was counted before has no bearing on the classes. By induction on the classes that are
left. -/
theorem transformClasses_stats (p : Pipeline) (stats : Association RuleStats) (m : Module)
    (facts : Facts) (out : Outcome) (classes : List ClassDecl) :
    (transformClasses m facts { p with stats } out classes).1 =
      (transformClasses m facts p out classes).1 := by
  induction classes generalizing p stats out with
  | nil => rfl
  | cons c rest ih =>
    obtain ⟨stats₁, hnext₁⟩ := transformClass_snd { p with stats } m
      ((facts.get? c.name).getD {}) out.module.classes.length c
    obtain ⟨stats₂, hnext₂⟩ :=
      p.transformClass_snd m ((facts.get? c.name).getD {}) out.module.classes.length c
    rw [transformClasses_cons, transformClasses_cons]
    dsimp only
    rw [hnext₁, hnext₂, transformClass_stats]
    exact ih { p with stats := stats₂ } stats₁ _

end Pipeline

/-- What may be done with a pipeline. -/
inductive Use where
  | addRule (rule : Rule)
  | sort
  | clear
  /-- From now on record types extend another class and have another suffix. -/
  | rename (recordBase recordSuffix : String)
  /-- One class is framed by itself. -/
  | frameClass (m : Module) (facts : ClassFacts) (hostIndex : Nat) (c : ClassDecl)
  | frame (facts : Facts) (m : Module)

namespace Pipeline

/-- The pipeline after a use. -/
def use (p : Pipeline) : Use → Pipeline
  | .addRule rule => p.addRule rule
  | .sort => p.sorted
  | .clear => p.clearStats
  | .rename recordBase recordSuffix => { p with recordBase, recordSuffix }
  | .frameClass m facts hostIndex c => (p.transformClass m facts hostIndex c).2
  | .frame facts m => (p.transformWith facts m).2

/-- The pipeline after uses in order. -/
def after (p : Pipeline) (uses : List Use) : Pipeline :=
  uses.foldl use p

/-- A use keeps the counts of all rules, and they go on fitting. -/
theorem balanced_use {p : Pipeline} (h : Balanced p.rules p.stats) (u : Use) :
    Balanced (p.use u).rules (p.use u).stats := by
  cases u with
  | addRule rule =>
    have hput := h.put rule.name (s := {}) (Nat.le_refl 0)
    refine { hput with kept := fun other hother => ?_ }
    rcases List.mem_append.mp hother with hold | hnew
    · exact hput.kept other hold
    · obtain rfl := List.mem_singleton.mp hnew
      exact (Association.has_put ..).mpr (.inl rfl)
  | sort =>
    exact { h with kept := fun rule hrule => h.kept rule (List.mem_mergeSort.mp hrule) }
  | clear =>
    refine { kept := fun rule hrule => ?_, balanced := fun entry hentry => ?_ }
    · have hhas := h.kept rule hrule
      simpa [use, clearStats, Association.has] using hhas
    · obtain ⟨old, -, rfl⟩ := List.mem_map.mp hentry
      exact Nat.le_refl 0
  | rename recordBase recordSuffix => exact h
  | frameClass m facts i c =>
    have hrules : (p.use (.frameClass m facts i c)).rules = p.rules := by
      obtain ⟨stats, hnext⟩ := p.transformClass_snd m facts i c
      rw [use, hnext]
    rw [hrules]
    exact balanced_transformClass h m facts i c
  | frame facts m =>
    have hrules : (p.use (.frame facts m)).rules = p.rules := by
      obtain ⟨stats, hnext⟩ := p.transformClasses_snd m facts _ m.classes
      rw [use, transformWith, hnext]
    rw [hrules]
    exact balanced_transformClasses h m facts _ m.classes

/-- By induction on the uses. -/
theorem balanced_after {p : Pipeline} (h : Balanced p.rules p.stats) (uses : List Use) :
    Balanced (p.after uses).rules (p.after uses).stats := by
  induction uses generalizing p with
  | nil => exact h
  | cons u rest ih => exact ih (balanced_use h u)

/-- **The accounts of framing.** Take a pipeline without rules over any environment, do with it
whatever may be done, and frame a module by any facts. The classes come out in order, a framed
class as its host with its record type right behind it and any other class as it was; what becomes
of a class is what the pipeline, had it framed no class before, makes of it at its place, and the
record type knows the place of its host. The summary counts every class once, as framed, skipped
or failed, and the framed properties; errors name their classes, in order. No rule of the pipeline
has changed classes and failed more often than it was applied. -/
theorem framing_accounts (environment : Environment) (uses : List Use) (facts : Facts)
    (m : Module) :
    let p := ({ environment } : Pipeline).after uses
    let out := (p.transformWith facts m).1
    (∃ fates, ClassByClass (fun i c => (p.transformClass m ((facts.get? c.name).getD {}) i c).1)
        0 m.classes fates out.module.classes ∧
      out.transformed = fates.filterMap Fate.framed? ∧
      out.summary.errors = fates.filterMap Fate.error?) ∧
    (∀ t ∈ out.transformed, ∃ i, t.record.origin = .recordOf i ∧
      out.module.classes[i]? = some t.host ∧ out.module.classes[i + 1]? = some t.record) ∧
    out.summary.seen = m.classes.length ∧
    out.summary.seen =
      out.summary.transformed + out.summary.skipped + out.summary.errors.length ∧
    out.summary.transformed = out.transformed.length ∧
    out.summary.properties = (out.transformed.map (·.framed.length)).sum ∧
    (out.summary.errors.map (·.className)).Sublist (m.classes.map (·.name)) ∧
    ∀ rule ∈ p.rules, ∃ s, p.stats.get? rule.name = some s ∧
      s.transformations + s.errors ≤ s.applications := by
  intro p out
  obtain ⟨fates, added, heach, hout⟩ := classByClass_transformClasses (p := p) (m := m)
    (fun i c => Eq.refl (p.transformClass m ((facts.get? c.name).getD {}) i c).1)
    { module := {}, transformed := [], summary := {} } m.classes
  have hclasses : out.module.classes = added := congrArg (·.module.classes) hout
  have hframed : out.transformed = fates.filterMap Fate.framed? := congrArg (·.transformed) hout
  have hsummary : out.summary = .ofFates fates :=
    (congrArg (·.summary) hout).trans (Summary.merge_empty _)
  refine ⟨⟨fates, hclasses ▸ heach, hframed, congrArg (·.errors) hsummary⟩, fun t ht => ?_,
    ?_, ?_, ?_, ?_, ?_, ?_⟩
  · obtain ⟨added', framed, hadded, hframed', hexpands⟩ := expands_transformClasses p m facts
      { module := {}, transformed := [], summary := {} } m.classes
    rw [List.nil_append] at hadded hframed'
    have ht : t ∈ framed := hframed' ▸ ht
    obtain ⟨-, c, -, front, back, -, -, -, hplace, -, hat, -⟩ := hexpands.split_of_mem ht
    have hout' : out.module.classes = front ++ t.host :: t.record :: back := hadded.trans hplace
    rw [hout']
    exact ⟨front.length, by simpa using hat.record_origin, by simp, by simp⟩
  · rw [hsummary]
    exact heach.length_eq
  · rw [hsummary]
    exact Summary.seen_ofFates fates
  · rw [hsummary, hframed]
    rfl
  · rw [hsummary, hframed]
    rfl
  · rw [hsummary]
    exact heach.errors_sublist fun _ _ _ => className_transformClass
  · have hstart : Balanced ({ environment } : Pipeline).rules
        ({ environment } : Pipeline).stats := ⟨nofun, nofun⟩
    exact fun rule hrule => (balanced_after hstart uses).get? hrule

/-- A class that cannot be framed, one that is not to be framed, and a box. -/
def mixed : Module :=
  ⟨computedBox :: (boxes "Shelf").classes⟩

/-- All rules are added, one of them twice, and the module has been framed once. -/
def mixedUses : List Use :=
  (Rule.all ++ [Rule.redirectAccessors]).map Use.addRule ++ [.frame (Facts.analyze mixed) mixed]

/-- Of the three classes one fails and one is framed, behind the other two. -/
theorem framing_accounts_mixed :
    let p := ({} : Pipeline).after mixedUses
    let out := (p.transformWith (Facts.analyze mixed) mixed).1
    (∃ t ∈ out.transformed, t.framed = ["size"] ∧ ∃ i, t.record.origin = .recordOf i ∧
      out.module.classes[i]? = some t.host ∧ out.module.classes[i + 1]? = some t.record) ∧
    out.summary.skipped = 1 ∧ out.summary.errors.map (·.className) = ["new"] ∧
    out.summary.seen = 3 ∧
    .redirectAccessors ∈ p.rules ∧ ∃ s, p.stats.get? "RewriteAccessors" = some s ∧
      s.applications = 2 ∧ s.transformations + s.errors ≤ s.applications := by
  intro p out
  obtain ⟨-, hplaces, hseen, -, -, -, -, hcounts⟩ :=
    framing_accounts Environment.standard mixedUses (Facts.analyze mixed) mixed
  have hframed : out.transformed.map (·.framed) = [["size"]] := by decide +kernel
  have hmem : ["size"] ∈ out.transformed.map (·.framed) := hframed ▸ List.mem_singleton_self _
  obtain ⟨t, ht, hnames⟩ := List.mem_map.mp hmem
  have hrule : .redirectAccessors ∈ p.rules := by decide +kernel
  have happlied : (p.stats.get? "RewriteAccessors").map (·.applications) = some 2 := by
    decide +kernel
  obtain ⟨s, hs, hbalanced⟩ := hcounts _ hrule
  refine ⟨⟨t, ht, hnames, hplaces t ht⟩, by decide +kernel, by decide +kernel, hseen, hrule, s, hs,
    ?_, hbalanced⟩
  rw [show p.stats.get? "RewriteAccessors" = some s from hs] at happlied
  simpa using happlied

end Pipeline

end VersionedObjects.Framing
