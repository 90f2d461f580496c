import Mathlib.Data.Finset.Card
import VersionedObjects.Proofs.Computations
import VersionedObjects.Proofs.Files.Products

/-!
# The outputs of a directory

A directory is generated source by source, with the files of subdirectories in between. Sources
are different, but outputs are called after the source without its extension, and two extensions
are those of sources: an output may be written twice, and then the first code is lost, although
both files count as written. Main statement: `generateDirectory_outputs`.
-/

namespace VersionedObjects.Files

open Files.Tree (Written)

/-- The counts fit the products. -/
structure Generated.Tally (done : Generated) (products : List Product) : Prop where
  written : done.written = products.length
  processed : done.processed = products.length + done.errors.length

namespace Generated.Tally

variable {done : Generated} {products : List Product}

/-- A source that fails is counted and named. -/
theorem add_error (h : done.Tally products) (path : String) (e : GenerateError) :
    (done.add path (.error e)).Tally products where
  written := h.written
  processed := by
    have hprocessed := h.processed
    simp only [Generated.add, List.length_append, List.length_singleton]
    omega

/-- A source that succeeds is counted with its product. -/
theorem add_ok (h : done.Tally products) (path : String) (summary : Framing.Summary)
    (p : Product) : (done.add path (.ok summary)).Tally (products ++ [p]) where
  written := by
    have hwritten := h.written
    simp only [Generated.add, List.length_append, List.length_singleton]
    omega
  processed := by
    have hprocessed := h.processed
    simp only [Generated.add, List.length_append, List.length_singleton]
    omega

end Generated.Tally

/-- What a part of the work comes to: it adds products, from different sources of a kind. -/
def Advances (g : Generator) (source target : String) (start : Tree) (products : List Product)
    (kind : List String → Prop) (run : (Except GenerateError Generated × Generator) × Machine) :
    Prop :=
  ∃ new, Stage g source target start (products ++ new) run.2.tree ∧
    (∃ stats, run.1.2 = g.withCounts stats) ∧
    (∀ done, run.1.1 = .ok done → done.Tally (products ++ new)) ∧
    (∀ p ∈ new, kind p.path) ∧ (new.map Product.path).Nodup

section Runs

variable {g : Generator} {source target : String} {start : Tree} {products : List Product}

namespace Advances

variable {kind kind' : List String → Prop}
  {run : (Except GenerateError Generated × Generator) × Machine}

/-- Nothing is added. -/
theorem refl {m : Machine} (h : Stage g source target start products m.tree)
    (stats : Association Framing.RuleStats) {result : Except GenerateError Generated}
    (htally : ∀ done, result = .ok done → done.Tally products) :
    Advances g source target start products kind ((result, g.withCounts stats), m) := by
  refine ⟨[], ?_, ⟨stats, rfl⟩, fun done hdone => ?_, nofun, List.nodup_nil⟩
  · rw [List.append_nil]
    exact h
  · rw [List.append_nil]
    exact htally done hdone

/-- What advances by products of one kind advances by those of a wider one. -/
theorem mono (h : Advances g source target start products kind run)
    (himp : ∀ path, kind path → kind' path) :
    Advances g source target start products kind' run := by
  obtain ⟨new, hstage, hcounts, htally, hkind, hnodup⟩ := h
  exact ⟨new, hstage, hcounts, htally, fun p hp => himp p.path (hkind p hp), hnodup⟩

/-- Some products come before others of another kind. -/
theorem after {new : List Product} (hother : ∀ path, kind path → ¬ kind' path)
    (hnew : ∀ p ∈ new, kind p.path) (hnodup : (new.map Product.path).Nodup)
    (h : Advances g source target start (products ++ new) kind' run) :
    Advances g source target start products (fun path => kind path ∨ kind' path) run := by
  obtain ⟨more, hstage, hcounts, htally, hmore, hnodup'⟩ := h
  rw [List.append_assoc] at hstage htally
  refine ⟨new ++ more, hstage, hcounts, htally, ?_, ?_⟩
  · exact List.forall_mem_append.mpr
      ⟨fun p hp => .inl (hnew p hp), fun p hp => .inr (hmore p hp)⟩
  · rw [List.map_append]
    refine List.Nodup.append hnodup hnodup' fun path hpath hpath' => ?_
    obtain ⟨p, hp, rfl⟩ := List.mem_map.mp hpath
    obtain ⟨q, hq, heq⟩ := List.mem_map.mp hpath'
    exact hother p.path (hnew p hp) (heq ▸ hmore q hq)

end Advances

variable (hkeeps : g.keepsStructure = true) (hstart : start.WellFormed) {place : Place}
  (hsource : start.place source = .ok place)

include hkeeps hstart hsource

/-- Generating one file is a product or an error. -/
theorem Stage.generateFile {m : Machine} (h : Stage g source target start products m.tree)
    {way : List String} (hway : ∀ other ∈ way, IsName other) {name : String} (hname : IsName name)
    (hisSource : g.isSource name = true) (stats : Association Framing.RuleStats) :
    let run := ((g.withCounts stats).generateFile (m := StateM Machine)
      ((way ++ [name]).foldl join source) (g.targetOf target way name)).run m
    ∃ new, Stage g source target start (products ++ new) run.2.tree ∧
      (∃ stats, run.1.2 = g.withCounts stats) ∧
      ((∃ e, run.1.1 = .error e) ∧ new = [] ∨
        ∃ summary code, run.1.1 = .ok summary ∧ new = [⟨way, name, code⟩]) := by
  intro run
  obtain ⟨hwell, ⟨stats, hcounts⟩, houtcome⟩ := (g.withCounts stats).generateFile_run h.wellFormed
    ((way ++ [name]).foldl join source) (g.targetOf target way name)
  obtain ⟨⟨e, he⟩, hwritten⟩ | ⟨summary, text, code, hok, hread, hcode, hplace, hwritten⟩ :=
    houtcome
  · refine ⟨[], ?_, ⟨stats, hcounts⟩, .inl ⟨⟨e, he⟩, rfl⟩⟩
    rw [List.append_nil]
    exact h.directories hwell hwritten
  have hfile : run.2.tree.text? (Place.ofPath (g.targetOf target way name)) = some code := by
    rw [hwritten.text]
    exact Function.update_self ..
  have hdirectory : run.2.tree.node? (Place.ofPath (g.targetOf target way name)) ≠
      some .directory := by
    intro hnode
    rw [Tree.text?, hnode] at hfile
    cases hfile
  have hstem := stem_ne_dot_of_targetOf hkeeps hwell hway hname hplace hdirectory
  have hentry := ofPath_targetOf hkeeps hway hname hstem hplace
  rw [hentry] at hplace hwritten
  have hjoin : (way ++ [name]).foldl join source = join (way.foldl join source) name := by
    rw [List.foldl_append]
    rfl
  rw [hjoin, lowerExtension?_join hname, fileName?_join hname, Option.getD_some,
    Generator.sourceCode_withCounts] at hcode
  obtain ⟨format, -, hformat, -⟩ := Generator.sourceCode_eq_ok_iff.mp hcode
  have hfrom : Product.ComesFrom g source start ⟨way, name, code⟩ :=
    { way := hway, name := hname, stem := hstem, isSource := hisSource
      code := ⟨text, summary, h.read_source hstart hsource hway hname hformat hread, hcode⟩ }
  exact ⟨[⟨way, name, code⟩], h.add _ hfrom hwell hplace hwritten, ⟨stats, hcounts⟩,
    .inr ⟨summary, code, hok, rfl⟩⟩

omit hkeeps hstart hsource in
/-- What lies below two entries of a directory lies below one entry. -/
theorem name_eq_of_below {way path : List String} {name other : String}
    (h : way ++ [name] <+: path) (hother : way ++ [other] <+: path) : name = other := by
  have hprefix := List.prefix_of_prefix_length_le h hother (by simp)
  have heq := hprefix.eq_of_length (by simp)
  simpa using heq

/-- By induction on the names, given what comes of subdirectories. -/
theorem generateEach_run {way : List String} (hway : ∀ other ∈ way, IsName other)
    {below : Generator → Generated → List String →
      StateM Machine (Except GenerateError Generated × Generator)}
    (hbelow : ∀ {products way m done}, (∀ other ∈ way, IsName other) →
      Stage g source target start products m.tree → done.Tally products → ∀ stats,
      Advances g source target start products (way <+: ·)
        ((below (g.withCounts stats) done way).run m))
    {names : List String} (hnames : ∀ name ∈ names, IsName name) (hnodup : names.Nodup)
    {m : Machine} (h : Stage g source target start products m.tree) {done : Generated}
    (hdone : done.Tally products) (stats : Association Framing.RuleStats) :
    Advances g source target start products (fun path => ∃ name ∈ names, way ++ [name] <+: path)
      ((Generator.generateEach source target way below (g.withCounts stats) done names).run m) := by
  induction names generalizing products m done stats with
  | nil => exact Advances.refl h stats fun _ heq => Except.ok.inj heq ▸ hdone
  | cons name rest ih =>
    rw [List.forall_mem_cons] at hnames
    rw [List.nodup_cons] at hnodup
    have hother : ∀ path, way ++ [name] <+: path → ¬ ∃ other ∈ rest, way ++ [other] <+: path := by
      rintro path hpath ⟨other, hmem, hother⟩
      exact hnodup.1 (name_eq_of_below hpath hother ▸ hmem)
    have hkind : ∀ path, (way ++ [name] <+: path ∨ ∃ other ∈ rest, way ++ [other] <+: path) →
        ∃ other ∈ name :: rest, way ++ [other] <+: path := by
      rintro path (hpath | ⟨other, hmem, hpath⟩)
      · exact ⟨name, List.mem_cons_self .., hpath⟩
      · exact ⟨other, List.mem_cons_of_mem _ hmem, hpath⟩
    unfold Generator.generateEach
    dsimp only
    rw [Machine.run_bind, Machine.run_isDirectory]
    dsimp only
    split
    · have hfirst := hbelow (List.forall_mem_append.mpr
        ⟨hway, List.forall_mem_singleton.mpr hnames.1⟩) h hdone stats
      rw [Machine.run_bind]
      generalize (below (g.withCounts stats) done (way ++ [name])).run m = run at hfirst ⊢
      obtain ⟨⟨result, next⟩, m⟩ := run
      obtain ⟨new, hstage, ⟨stats, rfl⟩, htally, hnew, hpaths⟩ := hfirst
      cases result with
      | error e =>
        refine ⟨new, hstage, ⟨stats, rfl⟩, nofun, fun p hp => ?_, hpaths⟩
        exact hkind p.path (.inl (hnew p hp))
      | ok done =>
        have hrest := ih hnames.2 hnodup.2 hstage (htally done rfl) stats
        exact (Advances.after hother hnew hpaths hrest).mono hkind
    next hfile =>
    split
    · next hisSource =>
      have hfirst := h.generateFile hkeeps hstart hsource hway hnames.1 hisSource stats
      have htarget : (g.withCounts stats).targetOf target way name = g.targetOf target way name :=
        rfl
      rw [Machine.run_bind, htarget]
      generalize ((g.withCounts stats).generateFile (m := StateM Machine)
        ((way ++ [name]).foldl join source) (g.targetOf target way name)).run m = run at hfirst ⊢
      obtain ⟨⟨result, next⟩, m⟩ := run
      obtain ⟨new, hstage, ⟨stats, rfl⟩, houtcome⟩ := hfirst
      obtain ⟨⟨e, rfl⟩, rfl⟩ | ⟨summary, code, rfl, rfl⟩ := houtcome
      · rw [List.append_nil] at hstage
        exact (ih hnames.2 hnodup.2 hstage (hdone.add_error _ e) stats).mono
          fun path hpath => hkind path (.inr hpath)
      · have hnew : ∀ p ∈ [Product.mk way name code], way ++ [name] <+: p.path :=
          List.forall_mem_singleton.mpr (List.prefix_refl _)
        refine (Advances.after hother hnew (List.nodup_singleton _) ?_).mono hkind
        exact ih hnames.2 hnodup.2 hstage (hdone.add_ok _ summary _) stats
    · exact (ih hnames.2 hnodup.2 h hdone stats).mono fun path hpath => hkind path (.inr hpath)

/-- By induction on the depth. -/
theorem generateBelow_run {way : List String} (hway : ∀ other ∈ way, IsName other) {m : Machine}
    (h : Stage g source target start products m.tree) {done : Generated}
    (hdone : done.Tally products) (stats : Association Framing.RuleStats) (depth : Nat) :
    Advances g source target start products (way <+: ·)
      ((Generator.generateBelow (m := StateM Machine) source target depth (g.withCounts stats) done
        way).run m) := by
  induction depth generalizing products way m done stats with
  | zero => exact Advances.refl h stats fun _ heq => Except.ok.inj heq ▸ hdone
  | succ depth ih =>
    unfold Generator.generateBelow
    rw [Machine.run_bind, Machine.run_list]
    cases hlist : m.tree.list (way.foldl join source) with
    | error e => exact Advances.refl h stats nofun
    | ok names =>
      obtain ⟨hnames, hnodup⟩ := h.wellFormed.list hlist
      have hsorted := List.mergeSort_perm names (· ≤ ·)
      refine (generateEach_run hkeeps hstart hsource hway
        (fun hway hstage htally stats => ih hway hstage htally stats) (fun name hname => ?_)
        (hsorted.nodup_iff.mpr hnodup) h hdone stats).mono ?_
      · exact hnames name (hsorted.mem_iff.mp hname)
      · rintro path ⟨name, -, hpath⟩
        exact (List.prefix_append way [name]).trans hpath

end Runs

/-! ## A directory -/

section Directory

variable {g : Generator} {source target : String} {m : Machine}

/-- At the start nothing is written. -/
theorem Stage.start (hwell : m.tree.WellFormed) : Stage g source target m.tree [] m.tree where
  wellFormed := hwell
  written := Written.refl m.tree
  comesFrom := nofun
  placed := nofun

/-- Generating a directory adds products from nothing on. -/
theorem generateDirectory_run (hkeeps : g.keepsStructure = true) (hwell : m.tree.WellFormed) :
    Advances g source target m.tree [] (fun _ => True)
      ((g.generateDirectory (m := StateM Machine) source target).run m) := by
  unfold Generator.generateDirectory
  rw [Machine.run_bind, Machine.run_isThere]
  dsimp only
  split
  · exact Advances.refl (Stage.start hwell) g.pipeline.stats nofun
  next hthere =>
  obtain ⟨place, hsource⟩ : ∃ place, m.tree.place source = .ok place := by
    unfold Tree.find at hthere
    cases hplace : m.tree.place source with
    | error e => rw [hplace] at hthere; exact absurd rfl hthere
    | ok place => exact ⟨place, rfl⟩
  obtain ⟨hwell', hwritten⟩ := Machine.makeDirectories_run hwell target
  have hstage : Stage g source target m.tree [] _ :=
    (Stage.start hwell).directories hwell' hwritten
  rw [Machine.run_bind]
  generalize (makeDirectories (m := StateM Machine) target).run m = run
    at hstage ⊢
  obtain ⟨made, m'⟩ := run
  cases made with
  | error e => exact Advances.refl hstage g.pipeline.stats nofun
  | ok _ =>
    exact (generateBelow_run hkeeps hwell hsource (List.forall_mem_nil IsName) hstage ⟨rfl, rfl⟩
      g.pipeline.stats Generator.directoryDepth).mono fun _ _ => trivial

end Directory

/-- A directory whose names come in order is gone through in that order. -/
theorem run_generateDirectory {g : Generator} {source target : String} {m : Machine}
    (names : List String) (hthere : (m.tree.find source).toOption.isSome = true)
    (hmade : ((makeDirectories (m := StateM Machine) target).run m).1 = .ok ())
    (hlist : ((makeDirectories (m := StateM Machine) target).run m).2.tree.list source = .ok names)
    (hsorted : names.Pairwise (· ≤ ·)) :
    (g.generateDirectory (m := StateM Machine) source target).run m =
      (Generator.generateEach (m := StateM Machine) source target []
        (Generator.generateBelow source target (maxPathSize - 1)) g {} names).run
        ((makeDirectories (m := StateM Machine) target).run m).2 := by
  have hbelow (m' : Machine) (hlist : m'.tree.list source = .ok names) :
      (Generator.generateBelow (m := StateM Machine) source target (maxPathSize - 1 + 1) g {}
        []).run m' = (Generator.generateEach (m := StateM Machine) source target []
          (Generator.generateBelow source target (maxPathSize - 1)) g {} names).run m' := by
    unfold Generator.generateBelow
    rw [Machine.run_bind, Machine.run_list, List.foldl_nil, hlist]
    dsimp only
    rw [List.mergeSort_of_pairwise (by simpa using hsorted)]
  unfold Generator.generateDirectory
  rw [Machine.run_bind, Machine.run_isThere]
  dsimp only
  rw [hthere, if_neg (by decide), Machine.run_bind, hmade]
  exact hbelow _ hlist

/-- **Outputs of a directory.** Take a well-formed tree and generate a directory of it, with its
structure kept. The products are as many as the files that are said to be written; each comes from
a source of its own, with the code that its text gives alone. Outputs are different, and as many as
files are said to be written, just if no two of these sources have one directory and one name up
to the extension. Of sources that have, the last one is what their output holds; so every source
has its own code in its own file where there are no such two. -/
theorem generateDirectory_outputs {g : Generator} (hkeeps : g.keepsStructure = true)
    {m : Machine} (hwell : m.tree.WellFormed) (source target : String) :
    let run := (g.generateDirectory (m := StateM Machine) source target).run m
    ∃ products : List Product,
      (∀ p ∈ products, p.ComesFrom g source m.tree) ∧
      (products.map Product.path).Nodup ∧
      ((products.map (·.output g target)).Nodup ↔ (products.map Product.slot).Nodup) ∧
      (∀ done, run.1.1 = .ok done →
        done.written = products.length ∧ done.processed = products.length + done.errors.length ∧
        (done.written = (products.map (·.output g target)).toFinset.card ↔
          (products.map Product.slot).Nodup)) ∧
      (∀ before p after, products = before ++ p :: after → (∀ q ∈ after, q.slot ≠ p.slot) →
        run.2.tree.read (p.output g target) = .ok p.code) ∧
      ((products.map Product.slot).Nodup → ∀ p ∈ products,
        run.2.tree.read (p.output g target) = .ok p.code) := by
  intro run
  have hrun : Advances g source target m.tree [] (fun _ => True) run :=
    generateDirectory_run hkeeps hwell
  obtain ⟨products, hstage, -, htally, -, hpaths⟩ := hrun
  rw [List.nil_append] at hstage htally
  have hproducts : products.Nodup := hpaths.of_map _
  have hdistinct : (products.map (·.output g target)).Nodup ↔
      (products.map Product.slot).Nodup := by
    rw [List.nodup_map_iff_inj_on hproducts, List.nodup_map_iff_inj_on hproducts]
    refine forall₂_congr fun p hp => forall₂_congr fun q hq => ?_
    rw [hstage.output_eq_iff hp hq]
  refine ⟨products, hstage.comesFrom, hpaths, hdistinct, fun done hdone => ?_,
    fun before p after => hstage.read_output, fun hslots p hp => ?_⟩
  · obtain ⟨hwritten, hprocessed⟩ := htally done hdone
    have hlength : products.length = (products.map (·.output g target)).length :=
      (List.length_map _).symm
    refine ⟨hwritten, hprocessed, ?_⟩
    rw [hwritten, ← hdistinct, hlength, eq_comm]
    exact Multiset.toFinset_card_eq_card_iff_nodup
  · obtain ⟨before, after, hsplit⟩ := List.append_of_mem hp
    rw [hsplit, List.map_append, List.map_cons] at hslots
    have hlast := (List.nodup_cons.mp hslots.of_append_right).1
    exact hstage.read_output hsplit fun q hq heq => hlast (heq ▸ List.mem_map_of_mem hq)

/-- Two sources in a directory, in one format each. -/
def apart : Machine :=
  .ofFiles [("in/a.frames", "class A \x7b \x7d"),
    ("in/b.json", "\x7b\"classes\": [\x7b\"name\": \"B\"\x7d]\x7d")]

/-- The two sources differ in the stem. -/
theorem slots_apart {g : Generator} {products : List Product}
    (hfrom : ∀ p ∈ products, p.ComesFrom g "in" apart.tree)
    (hpaths : (products.map Product.path).Nodup) : (products.map Product.slot).Nodup := by
  have hproducts : products.Nodup := hpaths.of_map _
  have hplaces : apart.tree.entries.map (·.1) =
      [["", "in"], ["", "in", "a.frames"], ["", "in", "b.json"]] := by decide +kernel
  have hin : Place.ofPath "in" = ["", "in"] := by decide +kernel
  have hpath : ∀ p ∈ products, p.path = [] ++ ["a.frames"] ∨ p.path = [] ++ ["b.json"] := by
    intro p hp
    have hmem := (hfrom p hp).mem_places
    have hne : p.path ≠ [] := by simp [Product.path]
    rw [hplaces, hin] at hmem
    simpa [hne] using hmem
  have hstems : stem "a.frames" ≠ stem "b.json" := by decide +kernel
  rw [List.nodup_map_iff_inj_on hproducts] at hpaths ⊢
  intro p hp q hq heq
  refine hpaths p hp q hq ?_
  have hstem : stem p.name = stem q.name := congrArg Prod.snd heq
  have hname {p : Product} {name : String} (h : p.path = [] ++ [name]) : p.name = name :=
    (List.cons.inj (List.append_inj' h rfl).2).1
  obtain hp | hp := hpath p hp <;> obtain hq | hq := hpath q hq
  · rw [hp, hq]
  · rw [hname hp, hname hq] at hstem
    exact absurd hstem hstems
  · rw [hname hp, hname hq] at hstem
    exact absurd hstem.symm hstems
  · rw [hp, hq]

/-- Two sources whose names differ in more than the extension each have their own output. -/
theorem generateDirectory_outputs_apart :
    let run := ((Generator.ofConfig {}).generateDirectory (m := StateM Machine) "in" "out").run apart
    (Generator.ofConfig {}).keepsStructure = true ∧ apart.tree.WellFormed ∧
      ∃ products : List Product, products.length = 2 ∧
        (products.map (·.output (.ofConfig {}) "out")).Nodup ∧
        ∀ p ∈ products, run.2.tree.read (p.output (.ofConfig {}) "out") = .ok p.code := by
  have hwell : apart.tree.WellFormed := Machine.wellFormed_ofFiles _
  have houtputs := generateDirectory_outputs (g := .ofConfig {}) rfl hwell "in" "out"
  have hmade : ((makeDirectories (m := StateM Machine) "out").run apart).1 = .ok () :=
    toOption_eq_some_iff.mp (by decide +kernel)
  have hrun := run_generateDirectory (g := .ofConfig {}) ["a.frames", "b.json"]
    (by decide +kernel : (apart.tree.find "in").toOption.isSome = true) hmade
    (toOption_eq_some_iff.mp (by decide +kernel)) (by decide +kernel)
  have hdone : (((Generator.ofConfig {}).generateDirectory (m := StateM Machine) "in" "out").run
      apart).1.1.toOption.map (·.written) = some 2 := by
    rw [hrun]
    decide +kernel
  dsimp only at houtputs ⊢
  generalize ((Generator.ofConfig {}).generateDirectory (m := StateM Machine) "in" "out").run apart =
    run at houtputs hdone ⊢
  obtain ⟨products, hfrom, hpaths, hdistinct, hcount, -, hread⟩ := houtputs
  obtain ⟨done, hok, hwritten⟩ := Option.map_eq_some_iff.mp hdone
  have hlength := (hcount done (toOption_eq_some_iff.mp hok)).1
  have hslots := slots_apart hfrom hpaths
  exact ⟨rfl, hwell, products, hlength.symm.trans hwritten, hdistinct.mpr hslots,
    hread hslots⟩

/-- The same with one name up to the extension. -/
def twins : Machine :=
  .ofFiles [("in/a.frames", "class A \x7b \x7d"),
    ("in/a.json", "\x7b\"classes\": [\x7b\"name\": \"B\"\x7d]\x7d")]

/-- Of two sources with one name up to the extension only the second is left. -/
theorem generateDirectory_twins :
    let run := ((Generator.ofConfig {}).generateDirectory (m := StateM Machine) "in" "out").run twins
    run.1.1.toOption.map (fun done => (done.processed, done.written, done.errors)) =
        some (2, 2, []) ∧
      run.2.tree.files.map (·.1) = ["in/a.frames", "in/a.json", "out/a.rs"] ∧
      (run.2.tree.read "out/a.rs").toOption = ((Generator.ofConfig {}).sourceCode
        "\x7b\"classes\": [\x7b\"name\": \"B\"\x7d]\x7d" "json" "a.json").1.toOption.map (·.1) := by
  intro run
  have hrun : run = _ := run_generateDirectory ["a.frames", "a.json"]
    (by decide +kernel) (toOption_eq_some_iff.mp (by decide +kernel))
    (toOption_eq_some_iff.mp (by decide +kernel)) (by decide +kernel)
  rw [hrun]
  decide +kernel

end VersionedObjects.Files
