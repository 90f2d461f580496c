import VersionedObjects.Files.Generator
import VersionedObjects.Proofs.Files.Trees
import VersionedObjects.Proofs.Framing.Accounts

/-!
# Generating one file

On a closed host, generating one file from another writes that file, with the code of the text that
was read, or it writes none and fails. Either way directories may have been made. The code does not
depend on what the generator has counted before. Main statement: `Generator.generateFile_run`.
-/

namespace VersionedObjects.Files

open Framing (RuleStats)
open Files.Tree (Written)

/-! ## Directories on a closed host -/

namespace Machine

variable {α β : Type} {P : Tree → Prop}

/-- Runs of the computation keep a property of the tree. -/
def Keeps (P : Tree → Prop) (x : StateM Machine α) : Prop :=
  ∀ m : Machine, P m.tree → P (x.run m).2.tree

/-- To give a value keeps the tree as it is. -/
theorem keeps_pure (a : α) : Keeps P (pure a) :=
  fun _ h => h

/-- A sequence keeps the kind of tree if all of its parts do. -/
theorem Keeps.bind {x : StateM Machine α} {f : α → StateM Machine β} (hx : Keeps P x)
    (hf : ∀ a, Keeps P (f a)) : Keeps P (x >>= f) :=
  fun m h => hf (x.run m).1 (x.run m).2 (hx m h)

/-- To ask for a directory keeps the tree as it is. -/
theorem keeps_isDirectory (path : String) :
    Keeps P (Host.isDirectory (m := StateM Machine) path) :=
  fun _ h => h

/-- A sequence runs its first part and then the next one on what it leaves. -/
theorem run_bind (x : StateM Machine α) (f : α → StateM Machine β) (m : Machine) :
    (x >>= f).run m = (f (x.run m).1).run (x.run m).2 :=
  rfl

/-- A change of the tree that fails leaves it alone. -/
theorem run_attempt (f : Tree → Except FileError Tree) (m : Machine) : (attempt f).run m =
    match f m.tree with
    | .ok tree => (.ok (), { m with tree })
    | .error e => (.error e, m) := by
  cases h : f m.tree <;> simp [attempt, h] <;> rfl

/-- To write a file is to write it in the tree, or to leave the tree as it is. -/
theorem run_write (path text : String) (m : Machine) :
    (Host.write (m := StateM Machine) path text).run m =
      match m.tree.write path text with
      | .ok tree => (.ok (), { m with tree })
      | .error e => (.error e, m) :=
  run_attempt (·.write path text) m

/-- To ask for a directory is to ask the tree. -/
theorem run_isDirectory (path : String) (m : Machine) :
    (Host.isDirectory (m := StateM Machine) path).run m = (m.tree.isDirectory path, m) :=
  rfl

/-- To list a directory is to list it in the tree. -/
theorem run_list (path : String) (m : Machine) :
    (Host.list (m := StateM Machine) path).run m =
      (m.tree.list path, m) :=
  rfl

/-- To ask whether something is there is to look for it in the tree. -/
theorem run_isThere (path : String) (m : Machine) :
    (Host.isThere (m := StateM Machine) path).run m = ((m.tree.find path).toOption.isSome, m) :=
  rfl

/-- To forgive that a directory is there keeps the tree as it is. -/
theorem keeps_settleDirectory (path : String) (made : Except FileError Unit) :
    Keeps P (settleDirectory (m := StateM Machine) path made) := by
  unfold settleDirectory
  split
  · refine (keeps_isDirectory path).bind fun there => ?_
    split <;> exact keeps_pure _
  · exact keeps_pure _

variable (hP : ∀ t t' path, P t → t.makeDirectory path = .ok t' → P t')

include hP

/-- To make a directory keeps the kind of tree. -/
theorem keeps_makeDirectory (path : String) :
    Keeps P (Host.makeDirectory (m := StateM Machine) path) := by
  intro m h
  change P ((attempt (·.makeDirectory path)).run m).2.tree
  rw [run_attempt]
  split
  · next t hmake => exact hP m.tree t path h hmake
  · exact h

/-- By induction on the directories. -/
theorem keeps_makeNested (paths : List String) :
    Keeps P (makeNested (m := StateM Machine) paths) := by
  induction paths with
  | nil => exact keeps_pure _
  | cons path above ih =>
    unfold makeNested
    refine (keeps_makeDirectory hP path).bind fun made => ?_
    split
    · refine ih.bind fun nested => ?_
      split
      · exact (keeps_makeDirectory hP path).bind (keeps_settleDirectory path)
      · exact keeps_pure _
    · exact keeps_settleDirectory path made

omit hP

/-- Making directories writes no file. -/
theorem makeDirectories_run {m : Machine} (h : m.tree.WellFormed) (path : String) :
    let run := (makeDirectories (m := StateM Machine) path).run m
    run.2.tree.WellFormed ∧ Written [] m.tree run.2.tree := by
  refine keeps_makeNested (P := fun t => t.WellFormed ∧ Written [] m.tree t) ?_ _ m
    ⟨h, Written.refl m.tree⟩
  rintro t t' path ⟨ht, hwritten⟩ hmake
  obtain ⟨ht', hwritten'⟩ := ht.makeDirectory hmake
  exact ⟨ht', hwritten.trans hwritten'⟩

/-- To write a file keeps what writing in a tree keeps. -/
theorem keeps_write (hwrite : ∀ t t' path text, P t → t.write path text = .ok t' → P t')
    (path text : String) : Keeps P (Host.write (m := StateM Machine) path text) := by
  intro m h
  rw [run_write]
  split
  · next t ht => exact hwrite m.tree t path text h ht
  · exact h

/-- A host that is given files is well-formed. By induction on the files. -/
theorem wellFormed_ofFiles (files : List (String × String)) :
    (ofFiles files).tree.WellFormed := by
  have hempty : ({} : Tree).WellFormed := ⟨List.nodup_nil, nofun⟩
  refine (?_ : Keeps Tree.WellFormed _) {} hempty
  induction files with
  | nil => exact keeps_pure _
  | cons file rest ih =>
    refine Keeps.bind ?_ fun _ => ih
    refine Keeps.bind (keeps_makeNested (fun t t' path ht hmake => (ht.makeDirectory hmake).1) _)
      fun made => ?_
    split
    · exact (keeps_write (fun t t' path text ht hwrite => (ht.write hwrite).1) _ _).bind
        fun _ => keeps_pure _
    · exact keeps_pure _

end Machine

/-! ## One file -/

namespace Generator

open Declaration (Module)

/-- The generator with other counts. -/
def withCounts (g : Generator) (stats : Association RuleStats) : Generator :=
  { g with pipeline := { g.pipeline with stats } }

/-- A module has code if all its classes can be framed and emitted. -/
theorem moduleCode_eq_ok_iff {g : Generator} {m : Module} {source origin code : String}
    {summary : Framing.Summary} : (g.moduleCode m source origin).1 = .ok (code, summary) ↔
      (g.pipeline.transform m).1.summary.success = true ∧
        Emission.emit g.emit (g.pipeline.transform m).1.module origin = .ok code ∧
        (g.pipeline.transform m).1.summary = summary := by
  unfold moduleCode
  dsimp only
  cases (g.pipeline.transform m).1.summary.success with
  | false => simp
  | true => cases Emission.emit g.emit (g.pipeline.transform m).1.module origin <;> simp

/-- To generate the code of a module changes nothing of the generator but its counts. -/
theorem exists_withCounts_moduleCode (g : Generator) (m : Module) (source origin : String) :
    ∃ stats, (g.moduleCode m source origin).2 = g.withCounts stats := by
  obtain ⟨stats, hstats⟩ := g.pipeline.transformClasses_snd m (Framing.Facts.analyze m)
    { module := {}, transformed := [], summary := {} } m.classes
  have hpipeline : (g.pipeline.transform m).2 = { g.pipeline with stats } := hstats
  refine ⟨stats, ?_⟩
  unfold moduleCode withCounts
  rw [← hpipeline]
  dsimp only
  split
  · rfl
  · split <;> rfl

/-- What was counted before has no bearing on the code. -/
theorem transform_withCounts (g : Generator) (stats : Association RuleStats) (m : Module) :
    ((g.withCounts stats).pipeline.transform m).1 = (g.pipeline.transform m).1 :=
  Framing.Pipeline.transformClasses_stats g.pipeline stats m _ _ _

/-- Code is generated exactly from a text in a known format that parses to a module whose code is
generated. -/
theorem sourceCode_eq_ok_iff {g : Generator} {text format origin code : String}
    {summary : Framing.Summary} : (g.sourceCode text format origin).1 = .ok (code, summary) ↔
      ∃ f m, Grammar.Format.ofName format = .ok f ∧ Grammar.Format.parse f text = .ok m ∧
        (g.moduleCode m origin origin).1 = .ok (code, summary) := by
  unfold sourceCode
  cases Grammar.Format.ofName format with
  | error e => simp [bind, Except.bind]
  | ok f => cases hparse : Grammar.Format.parse f text <;> simp [bind, Except.bind, hparse]

/-- The counts of a generator do not matter for the code. -/
theorem sourceCode_withCounts {g : Generator} {stats : Association RuleStats}
    {text format origin code : String} {summary : Framing.Summary} :
    ((g.withCounts stats).sourceCode text format origin).1 = .ok (code, summary) ↔
      (g.sourceCode text format origin).1 = .ok (code, summary) := by
  simp only [sourceCode_eq_ok_iff, moduleCode_eq_ok_iff, transform_withCounts]
  rfl

/-- Code is written to the place of the path, or nothing is written. -/
theorem writeCode_run {m : Machine} (h : m.tree.WellFormed) (path code : String) :
    let run := (writeCode (m := StateM Machine) path code).run m
    run.2.tree.WellFormed ∧
      ((∃ e, run.1 = .error e) ∧ Written [] m.tree run.2.tree ∨
        run.1 = .ok () ∧ run.2.tree.place path = .ok (Place.ofPath path) ∧
          Written [(Place.ofPath path, code)] m.tree run.2.tree) := by
  obtain ⟨hwell, hmade⟩ := Machine.makeDirectories_run h (parent path)
  unfold writeCode
  rw [Machine.run_bind]
  generalize (makeDirectories (m := StateM Machine) (parent path)).run m = made
    at hwell hmade ⊢
  obtain ⟨made, next⟩ := made
  dsimp only at hwell hmade ⊢
  cases made with
  | error e => exact ⟨hwell, .inl ⟨⟨_, rfl⟩, hmade⟩⟩
  | ok _ =>
    dsimp only
    rw [Machine.run_bind, Machine.run_write]
    cases hwrite : next.tree.write path code with
    | error e => exact ⟨hwell, .inl ⟨⟨_, rfl⟩, hmade⟩⟩
    | ok t =>
      obtain ⟨hwell', hplace, -, hwritten⟩ := hwell.write hwrite
      exact ⟨hwell', .inr ⟨rfl, hwritten.place_eq_ok hplace, hmade.trans hwritten⟩⟩

/-- One file is written, with the code of the text at the source, or none. -/
theorem generateFile_run (g : Generator) {m : Machine} (h : m.tree.WellFormed)
    (path target : String) :
    let run := (g.generateFile (m := StateM Machine) path target).run m
    run.2.tree.WellFormed ∧ (∃ stats, run.1.2 = g.withCounts stats) ∧
      ((∃ e, run.1.1 = .error e) ∧ Written [] m.tree run.2.tree ∨
        ∃ summary text code, run.1.1 = .ok summary ∧ m.tree.read path = .ok text ∧
          (g.sourceCode text ((lowerExtension? path).getD "") ((fileName? path).getD "")).1 =
            .ok (code, summary) ∧
          run.2.tree.place target = .ok (Place.ofPath target) ∧
          Written [(Place.ofPath target, code)] m.tree run.2.tree) := by
  have hnone : Written [] m.tree m.tree := Written.refl m.tree
  unfold generateFile
  cases hformat : formatOf path with
  | error e => exact ⟨h, ⟨_, rfl⟩, .inl ⟨⟨_, rfl⟩, hnone⟩⟩
  | ok format =>
    dsimp only
    rw [Machine.run_bind]
    have hread : (readSource (m := StateM Machine) path).run m =
        ((m.tree.read path).mapError fun e => .unreadable path e.text, m) := rfl
    rw [hread]
    cases htext : m.tree.read path with
    | error e => exact ⟨h, ⟨_, rfl⟩, .inl ⟨⟨_, rfl⟩, hnone⟩⟩
    | ok text =>
      have hloaded : (Except.ok text >>= Grammar.Format.parse format) =
          Grammar.Format.parse format text := rfl
      dsimp only [Except.mapError]
      rw [hloaded]
      cases hparse : Grammar.Format.parse format text with
      | error e => exact ⟨h, ⟨_, rfl⟩, .inl ⟨⟨_, rfl⟩, hnone⟩⟩
      | ok module =>
        obtain ⟨stats, hstats⟩ :=
          g.exists_withCounts_moduleCode module path ((fileName? path).getD "")
        dsimp only
        rw [hstats]
        cases hcode : (g.moduleCode module path ((fileName? path).getD "")).1 with
        | error e => exact ⟨h, ⟨stats, rfl⟩, .inl ⟨⟨e, rfl⟩, hnone⟩⟩
        | ok result =>
          obtain ⟨code, summary⟩ := result
          obtain ⟨hwell, houtcome⟩ := writeCode_run h target code
          dsimp only
          rw [Machine.run_bind]
          generalize (writeCode (m := StateM Machine) target code).run m =
            wrote at hwell houtcome ⊢
          obtain ⟨wrote, last⟩ := wrote
          refine ⟨hwell, ⟨stats, rfl⟩, ?_⟩
          obtain ⟨⟨e, rfl⟩, hwritten⟩ | ⟨rfl, hplace, hwritten⟩ := houtcome
          · exact .inl ⟨⟨e, rfl⟩, hwritten⟩
          · rw [moduleCode_eq_ok_iff] at hcode
            exact .inr ⟨summary, text, code, rfl, rfl, sourceCode_eq_ok_iff.mpr
              ⟨format, module, hformat, hparse, moduleCode_eq_ok_iff.mpr hcode⟩, hplace, hwritten⟩

end Generator

end VersionedObjects.Files
