import VersionedObjects.Proofs.Files.OneFile

/-!
# Sources and their outputs

With the structure of a directory kept, the output of a source lies below the target in the way in
which the source lies below the directory, and has its name with another extension. While a
directory is generated, each source is read as it was at the start, since outputs have an
extension that no source has, and the output of a source holds what was written to it last.
-/

namespace VersionedObjects.Files

open Files.Tree (Written)

/-- A source file that was generated. -/
structure Product where
  /-- The directories on the way to it. -/
  way : List String
  name : String
  /-- What was written for it. -/
  code : String
  deriving DecidableEq, Inhabited, Repr

namespace Product

/-- Where the source is below the directory that is generated. -/
def path (p : Product) : List String :=
  p.way ++ [p.name]

/-- What the output is called after: the directory and the name without its extension. -/
def slot (p : Product) : List String × String :=
  (p.way, stem p.name)

/-- The path of the output. -/
def output (g : Generator) (target : String) (p : Product) : String :=
  g.targetOf target p.way p.name

/-- The place of the output, and what was written there. -/
def entry (target : String) (p : Product) : Place × String :=
  (Place.ofPath target ++ p.way ++ [withExtension p.name codeExtension], p.code)

/-- The product comes from a file of the tree: its code is that of the file alone. -/
structure ComesFrom (g : Generator) (source : String) (t : Tree) (p : Product) : Prop where
  way : ∀ name ∈ p.way, IsName name
  name : IsName p.name
  stem : stem p.name ≠ "."
  isSource : g.isSource p.name = true
  code : ∃ text summary, t.read (p.path.foldl join source) = .ok text ∧
    (g.sourceCode text ((lowerExtension? p.name).getD "") p.name).1 = .ok (p.code, summary)

variable {g : Generator} {source : String} {t : Tree} {p : Product}

/-- The path of a product consists of file names. -/
theorem ComesFrom.path (h : p.ComesFrom g source t) : ∀ name ∈ p.path, IsName name :=
  List.forall_mem_append.mpr ⟨h.way, List.forall_mem_singleton.mpr h.name⟩

/-- The source is in the tree. -/
theorem ComesFrom.mem_places (h : p.ComesFrom g source t) :
    Place.ofPath source ++ p.path ∈ t.entries.map (·.1) := by
  obtain ⟨text, summary, hread, -⟩ := h.code
  obtain ⟨q, hplace, htext⟩ := Tree.read_eq_ok_iff.mp hread
  rw [← Tree.eq_of_place_foldl_join h.path hplace]
  exact Tree.mem_places_of_text? htext

end Product

/-- Code is no source of code. -/
theorem withExtension_ne_source {name other : String} (hname : IsName name)
    (hother : IsName other) (hstem : stem other ≠ ".") {format : Grammar.Format}
    (h : Grammar.Format.ofName ((lowerExtension? name).getD "") = .ok format) :
    withExtension other codeExtension ≠ name := by
  intro heq
  have hsplit : splitExtension? name = some (stem other, codeExtension) := by
    rw [← heq, withExtension_eq hstem]
    exact splitExtension?_of_eq (stem_ne_empty hother.ne_empty) (by decide)
  have hlower : lowerExtension? name = some (Text.lowerText codeExtension) := by
    rw [lowerExtension?, extension?, hname.fileName?, Option.bind_some, hsplit]
    rfl
  have hunknown : Grammar.Format.ofName (Text.lowerText codeExtension) =
      .error (.unknownFormat codeExtension) := by decide +kernel
  rw [hlower, Option.getD_some, hunknown] at h
  cases h

/-- The code of a file goes by its stem and the extension `rs`. -/
theorem toList_code {name : String} (h : stem name ≠ ".") :
    (withExtension name codeExtension).toList = (stem name).toList ++ ['.', 'r', 's'] := by
  rw [withExtension_eq h, codeExtension]
  simp

/-- The name of an output can be a part of a path. -/
theorem IsName.code {name : String} (h : IsName name) :
    withExtension name codeExtension ≠ "" ∧ '/' ∉ (withExtension name codeExtension).toList := by
  by_cases hstem : stem name = "."
  · rw [withExtension_eq_dots h.ne_dot hstem]
    decide
  · refine ⟨fun hempty => ?_, ?_⟩
    · have hchars := toList_code hstem
      rw [hempty] at hchars
      simp at hchars
    · rw [toList_code hstem]
      simp [no_slash_stem h.no_slash]

/-! ## The paths of outputs -/

section Target

variable {g : Generator} {target : String} {way : List String} {name : String} {t : Tree}
  {p : Place}

/-- The output of a source has its place below the target, in the same way. -/
theorem follow_of_targetOf (hkeeps : g.keepsStructure = true)
    (hway : ∀ other ∈ way, IsName other) (hname : IsName name)
    (h : t.place (g.targetOf target way name) = .ok p) :
    t.follow (Place.ofPath target ++ way) [withExtension name codeExtension] = .ok p := by
  obtain ⟨-, hfollow⟩ := Tree.place_eq_ok_iff.mp h
  have hslash : ∀ other ∈ way ++ [withExtension name codeExtension], '/' ∉ other.toList :=
    List.forall_mem_append.mpr ⟨fun other hother => (hway other hother).no_slash,
      List.forall_mem_singleton.mpr hname.code.2⟩
  have hparts := parts_intercalate hslash (by simp)
  have hrelative : isAbsolute (String.intercalate "/"
      (way ++ [withExtension name codeExtension])) = false := by
    rw [← Bool.not_eq_true]
    intro habsolute
    obtain ⟨more, hmore⟩ := exists_parts_of_isAbsolute habsolute
    rw [hparts] at hmore
    cases way with
    | nil => exact hname.code.1 (List.cons.inj hmore).1
    | cons first rest =>
      exact (hway first (List.mem_cons_self ..)).ne_empty (List.cons.inj hmore).1
  rw [Generator.targetOf, if_pos hkeeps, Tree.follow_join hrelative, hparts] at hfollow
  cases htarget : t.follow (Place.start target) (parts target) with
  | error e => rw [htarget] at hfollow; cases hfollow
  | ok directory =>
    obtain rfl : directory = Place.ofPath target := Tree.eq_after_of_follow htarget
    rw [htarget] at hfollow
    change t.follow (Place.ofPath target) (way ++ [withExtension name codeExtension]) = .ok p
      at hfollow
    rw [Tree.follow_append] at hfollow
    cases hmiddle : t.follow (Place.ofPath target) way with
    | error e => rw [hmiddle] at hfollow; cases hfollow
    | ok middle =>
      obtain rfl : middle = Place.ofPath target ++ way :=
        (Tree.eq_after_of_follow hmiddle).trans (Place.after_names _ hway)
      rw [hmiddle] at hfollow
      exact hfollow

/-- A directory is no output, so the stem of a name that has one is more than a dot. -/
theorem stem_ne_dot_of_targetOf (hkeeps : g.keepsStructure = true) (hwell : t.WellFormed)
    (hway : ∀ other ∈ way, IsName other) (hname : IsName name)
    (h : t.place (g.targetOf target way name) = .ok p) (hfile : t.node? p ≠ some .directory) :
    stem name ≠ "." := by
  intro hstem
  have hfollow := follow_of_targetOf hkeeps hway hname h
  rw [withExtension_eq_dots hname.ne_dot hstem] at hfollow
  exact hfile (hwell.node?_of_dots [] hfollow)

/-- With the structure kept, a file's code goes where the file stood, below the target. -/
theorem ofPath_targetOf (hkeeps : g.keepsStructure = true)
    (hway : ∀ other ∈ way, IsName other) (hname : IsName name) (hstem : stem name ≠ ".")
    (h : t.place (g.targetOf target way name) = .ok p) :
    p = Place.ofPath target ++ way ++ [withExtension name codeExtension] := by
  have hfollow := follow_of_targetOf hkeeps hway hname h
  have hlong : 3 ≤ (withExtension name codeExtension).toList.length := by
    rw [toList_code hstem]
    simp
  refine (Tree.eq_after_of_follow hfollow).trans ?_
  rw [Place.after, if_neg, if_neg, Place.after]
  · rintro heq
    rw [heq] at hlong
    exact absurd hlong (by decide)
  · rintro (heq | heq)
    all_goals
      rw [heq] at hlong
      exact absurd hlong (by decide)

end Target

/-! ## A stage of the work -/

/-- What has been made so far of the files of a tree: which sources have been generated, the last
one at last. -/
structure Stage (g : Generator) (source target : String) (start : Tree) (products : List Product)
    (t : Tree) : Prop where
  wellFormed : t.WellFormed
  written : Written (products.map (·.entry target)) start t
  comesFrom : ∀ p ∈ products, p.ComesFrom g source start
  placed : ∀ p ∈ products, t.place (p.output g target) = .ok (p.entry target).1

namespace Stage

variable {g : Generator} {source target : String} {start t t' : Tree} {products : List Product}

/-- Making directories changes no product. -/
theorem directories (h : Stage g source target start products t) (hwell : t'.WellFormed)
    (hwritten : Written [] t t') : Stage g source target start products t' where
  wellFormed := hwell
  written := by simpa using h.written.trans hwritten
  comesFrom := h.comesFrom
  placed p hp := hwritten.place_eq_ok (h.placed p hp)

/-- A source that is read is as it was at the start: outputs have other names. -/
theorem read_source (h : Stage g source target start products t) (hstart : start.WellFormed)
    {place : Place} (hsource : start.place source = .ok place) {way : List String}
    (hway : ∀ name ∈ way, IsName name) {name : String} (hname : IsName name)
    {format : Grammar.Format}
    (hformat : Grammar.Format.ofName ((lowerExtension? name).getD "") = .ok format)
    {text : String} (hread : t.read ((way ++ [name]).foldl join source) = .ok text) :
    start.read ((way ++ [name]).foldl join source) = .ok text := by
  have hnames : ∀ other ∈ way ++ [name], IsName other :=
    List.forall_mem_append.mpr ⟨hway, List.forall_mem_singleton.mpr hname⟩
  obtain rfl := Tree.eq_ofPath_of_place hsource
  obtain ⟨q, hq, htext⟩ := Tree.read_eq_ok_iff.mp hread
  obtain rfl := Tree.eq_of_place_foldl_join hnames hq
  have hsame : t.text? (Place.ofPath source ++ (way ++ [name])) =
      start.text? (Place.ofPath source ++ (way ++ [name])) := by
    rw [h.written.text]
    refine Tree.overwrite_of_forall_ne fun entry hentry => ?_
    obtain ⟨p, hp, rfl⟩ := List.mem_map.mp hentry
    have hfrom := h.comesFrom p hp
    intro heq
    rw [← List.append_assoc] at heq
    obtain ⟨-, hlast⟩ := List.append_inj' heq rfl
    exact withExtension_ne_source hname hfrom.name hfrom.stem hformat (List.cons.inj hlast).1
  rw [hsame] at htext
  obtain ⟨hfault, -⟩ := Tree.place_eq_ok_iff.mp hq
  refine Tree.read_eq_ok_iff.mpr ⟨_, Tree.place_eq_ok_iff.mpr ⟨hfault, ?_⟩, htext⟩
  rw [Tree.follow_foldl_join hnames, (Tree.place_eq_ok_iff.mp hsource).2]
  exact hstart.follow_names hnames (Tree.text?_eq_some_iff.mp htext)

/-- A source that is generated is one more product. -/
theorem add (h : Stage g source target start products t) (p : Product)
    (hfrom : p.ComesFrom g source start) (hwell : t'.WellFormed)
    (hplace : t'.place (p.output g target) = .ok (p.entry target).1)
    (hwritten : Written [p.entry target] t t') :
    Stage g source target start (products ++ [p]) t' where
  wellFormed := hwell
  written := by simpa using h.written.trans hwritten
  comesFrom := List.forall_mem_append.mpr ⟨h.comesFrom, List.forall_mem_singleton.mpr hfrom⟩
  placed := List.forall_mem_append.mpr
    ⟨fun q hq => hwritten.place_eq_ok (h.placed q hq), List.forall_mem_singleton.mpr hplace⟩

/-- Outputs at one place are those of one slot. -/
theorem slot_eq_of_entry (h : Stage g source target start products t) {p q : Product}
    (hp : p ∈ products) (hq : q ∈ products) (heq : (p.entry target).1 = (q.entry target).1) :
    p.slot = q.slot := by
  obtain ⟨hway, hname⟩ := List.append_inj' heq rfl
  have hway : p.way = q.way := List.append_cancel_left hway
  have hstem := stem_eq_of_withExtension (h.comesFrom p hp).stem (h.comesFrom q hq).stem
    (List.cons.inj hname).1
  rw [Product.slot, Product.slot, hway, hstem]

/-- Outputs are the same just if the sources have one directory and one stem. -/
theorem output_eq_iff (h : Stage g source target start products t) {p q : Product}
    (hp : p ∈ products) (hq : q ∈ products) :
    p.output g target = q.output g target ↔ p.slot = q.slot := by
  constructor
  · intro heq
    have hplaced := h.placed p hp
    rw [heq, h.placed q hq] at hplaced
    exact h.slot_eq_of_entry hp hq (Except.ok.inj hplaced).symm
  · intro heq
    obtain ⟨hway, hstem⟩ := Prod.mk.inj heq
    rw [Product.output, Product.output, Generator.targetOf, Generator.targetOf,
      withExtension_eq (h.comesFrom p hp).stem, withExtension_eq (h.comesFrom q hq).stem, hway,
      hstem]

/-- The last product of a slot is what its output holds. -/
theorem read_output (h : Stage g source target start products t) {before after : List Product}
    {p : Product} (hsplit : products = before ++ p :: after)
    (hlast : ∀ q ∈ after, q.slot ≠ p.slot) : t.read (p.output g target) = .ok p.code := by
  have hp : p ∈ products := hsplit ▸ List.mem_append_right before (List.mem_cons_self ..)
  refine Tree.read_eq_ok_iff.mpr ⟨_, h.placed p hp, ?_⟩
  rw [h.written.text, hsplit, List.map_append, List.map_cons]
  refine Tree.overwrite_of_last fun entry hentry heq => ?_
  obtain ⟨q, hq, rfl⟩ := List.mem_map.mp hentry
  have hq' : q ∈ products := hsplit ▸ List.mem_append_right before (List.mem_cons_of_mem p hq)
  exact hlast q hq (h.slot_eq_of_entry hq' hp heq)

end Stage

end VersionedObjects.Files
