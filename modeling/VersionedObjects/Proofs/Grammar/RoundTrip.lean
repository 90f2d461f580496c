import Mathlib.Data.List.Basic
import VersionedObjects.Proofs.Declaration.Equality
import VersionedObjects.Proofs.Grammar.Properties

/-!
# Printing and reading agree

The text that the module of a text is printed as declares the same module, if it has no floating
point literals and only plain characters in its texts. The text may differ from the one the module
was read from: comments are lost, and what may be written in several ways is printed in one.
-/

namespace VersionedObjects.Declaration

/-! ## Literals of a module -/

/-- The literals in the constructor. -/
def Constructor.literals (c : Constructor) : List Literal :=
  (c.superCall.getD []).flatMap (·.literals) ++ c.body.flatMap (·.literals)

/-- The literals in the class. -/
def ClassDecl.literals (c : ClassDecl) : List Literal :=
  c.properties.flatMap (·.literals) ++ c.constructors.flatMap (·.literals) ++
    c.methods.flatMap (fun method => method.body.flatMap (·.literals)) ++
    c.initializers.flatMap fun block => block.flatMap (·.literals)

/-- The literals in the module. -/
def Module.literals (m : Module) : List Literal :=
  m.classes.flatMap (·.literals)

/-! ## Texts as characters -/

/-- Joined texts are the first of them and then each other one behind a separator. -/
theorem toList_intercalate_cons (separator text : String) (texts : List String) :
    (String.intercalate separator (text :: texts)).toList =
      text.toList ++ texts.flatMap fun text => separator.toList ++ text.toList := by
  induction texts generalizing text with
  | nil => simp
  | cons next texts ih => simp [String.intercalate_cons_cons, ih]

namespace ClassDecl

/-- Annotations, each on a line of its own. -/
def marksText (marks : List String) : List Char :=
  marks.flatMap fun mark => ('@' :: mark.toList) ++ ['\n']

/-- Supertypes as they stand after the name. -/
def supertypesText : List TypeExpr → List Char
  | [] => []
  | type :: rest => ([' '] ++ [':']) ++ ([' '] ++ (type.text.toList ++
      rest.flatMap fun type => [',', ' '] ++ type.text.toList))

/-- The text of a class from source, part by part as the grammar reads it. -/
theorem Sourced.toList_text {c : ClassDecl} (h : c.Sourced) :
    c.text.toList = (marksText c.annotations ++ "class".toList) ++ (([' '] ++ c.name.toList) ++
      (supertypesText c.supertypes ++ (([' '] ++ ['\x7b']) ++
        ((c.properties.flatMap fun p => ['\n', ' ', ' '] ++ p.text.toList) ++
          (['\n'] ++ ['\x7d']))))) := by
  have hproperties : (String.join (c.properties.map fun p => "  " ++ p.text ++ "\n")).toList =
      c.properties.flatMap fun p => [' ', ' '] ++ p.text.toList ++ ['\n'] := by
    simp [String.toList_join, List.flatMap_map]
  have hmarks : (String.join (c.annotations.map fun mark => "@" ++ mark ++ "\n")).toList =
      marksText c.annotations := by
    simp [String.toList_join, List.flatMap_map, marksText]
  have hsupertypes : (if c.supertypes.isEmpty then "" else
      " : " ++ commaSeparated (c.supertypes.map (·.text))).toList =
        supertypesText c.supertypes := by
    cases c.supertypes with
    | nil => rfl
    | cons type rest =>
      simp only [List.isEmpty_cons, Bool.false_eq_true, if_false, commaSeparated, List.map_cons,
        String.toList_append, toList_intercalate_cons, List.flatMap_map]
      rfl
  have htext : c.text.toList = marksText c.annotations ++ "class ".toList ++ c.name.toList ++
      supertypesText c.supertypes ++ " \x7b".toList ++
        ('\n' :: c.properties.flatMap fun p => [' ', ' '] ++ p.text.toList ++ ['\n']) ++
          ['\x7d'] := by
    simp only [text, h.fields, h.constructors, h.initializers, h.methods, List.map_nil,
      String.toList_append, hmarks, hsupertypes, hproperties]
    simp
  rw [htext, Grammar.cons_flatMap_append]
  simp

end ClassDecl

end VersionedObjects.Declaration

namespace VersionedObjects.Grammar

open Declaration
open Framing (isIdentifier)
open Reader

/-! ## Classes -/

/-- The class has only what a text can declare, and names and literals that are read back. -/
structure IsPlainClass (c : ClassDecl) : Prop where
  sourced : c.Sourced
  named : c.WellNamed
  literals : ∀ value ∈ c.literals, value.isPlain = true

/-- The properties of a plain class are plain. -/
theorem IsPlainClass.property {c : ClassDecl} (h : IsPlainClass c) {p : Property}
    (hp : p ∈ c.properties) : IsPlainProperty p := by
  refine ⟨h.named.properties p hp, fun value hvalue => h.literals value ?_⟩
  simp only [ClassDecl.literals, List.mem_append]
  exact .inl (.inl (.inl (List.mem_flatMap_of_mem hp hvalue)))

/-- Annotations are read back before the word that follows them, whatever blanks stand before
them. -/
theorem reads_marks {marks : List String} (h : ∀ mark ∈ marks, isIdentifier mark = true)
    {blanks : List Char} (hblanks : ∀ c ∈ blanks, isSpace c = true) :
    ∃ t u, blanks ++ (ClassDecl.marksText marks ++ "class".toList) = t ++ u ∧
      Reads (many do symbol '@'; identifier) t marks (fun rest => ∃ more, rest = u ++ more) ∧
      (spaced (keyword "class")).Reads u () (Avoids isIdentChar) := by
  have hclass : (spaced (keyword "class")).Reads "class".toList () (Avoids isIdentChar) :=
    (reads_keyword "class").spaced rfl (by decide)
  have hmark : ∀ {mark : String}, isIdentifier mark = true →
      Reader.Reads (do symbol '@'; identifier) ('@' :: mark.toList) mark (Avoids isIdentChar) :=
    fun hmark => (reads_symbol (by decide)).bind (reads_identifier hmark) fun _ _ => trivial
  have hlenient : Reader.Lenient (do symbol '@'; identifier) := (lenient_spaced _).bind _
  have hmiss : ∀ {blanks : List Char} (rest : List Char), (∀ c ∈ blanks, isSpace c = true) →
      Reader.Misses (do symbol '@'; identifier) (blanks ++ "class".toList ++ rest) := by
    intro blanks rest hblanks
    refine Misses.bind (misses_symbol ?_) _
    rw [List.append_assoc, skipBlanks_append hblanks]
    exact avoids_skipBlanks_cons (by decide) (by decide) _
  cases marks with
  | nil =>
    refine ⟨[], blanks ++ "class".toList, rfl, reads_many_nil ?_,
      hclass.blanks (lenient_spaced _) _ hblanks⟩
    rintro _ ⟨more, rfl⟩
    exact hmiss more hblanks
  | cons mark marks =>
    rw [List.forall_mem_cons] at h
    refine ⟨(blanks ++ '@' :: mark.toList) ++ marks.flatMap fun mark => '\n' :: '@' :: mark.toList,
      ['\n'] ++ "class".toList, ?_, ?_, hclass.blanks (lenient_spaced _) _ (by decide)⟩
    · have hlines : ClassDecl.marksText (mark :: marks) = ('@' :: mark.toList) ++
          ('\n' :: marks.flatMap fun mark => ('@' :: mark.toList) ++ ['\n']) := by
        simp [ClassDecl.marksText]
      rw [hlines, cons_flatMap_append]
      simp
    · refine Reads.many_cons ((hmark h.1).blanks hlenient _ hblanks) (by simp)
        (reads_many (F := Avoids isIdentChar) (fun mark hmem => ?_)
          (fun _ _ => List.cons_ne_nil _ _)
          (fun _ _ _ => avoids_cons.mpr (by decide)) ?_) ?_
      · exact (hmark (h.2 mark hmem)).blanks hlenient ['\n'] (by decide)
      · rintro _ ⟨more, rfl⟩
        exact ⟨avoids_cons.mpr (by decide), hmiss more (by decide)⟩
      · rintro _ ⟨more, rfl⟩
        cases marks with
        | nil => exact avoids_cons.mpr (by decide)
        | cons mark marks => exact avoids_cons.mpr (by decide)

/-- The list of supertypes is read back, and an empty one is read as none. -/
theorem reads_supertypes (depth : Nat) {supertypes : List TypeExpr}
    (h : ∀ type ∈ supertypes, type.wellNamed = true)
    (hdepth : (ClassDecl.supertypesText supertypes).length < depth) :
    ∃ found, found.getD [] = supertypes ∧
      (optional do symbol ':'; commit (sepBy₁ (symbol ',') (type depth))).Reads
        (ClassDecl.supertypesText supertypes) found
        fun rest => ∃ more, rest = [' '] ++ '\x7b' :: more := by
  have hbrace : ∀ (c : Char) (more : List Char), c ≠ '\x7b' →
      Avoids (· == c) (skipBlanks ([' '] ++ '\x7b' :: more)) := by
    intro c more hc
    rw [skipBlanks_append (by decide)]
    exact avoids_skipBlanks_cons (by decide) (by simpa using hc.symm) _
  cases supertypes with
  | nil =>
    refine ⟨none, rfl, reads_optional_none ?_⟩
    rintro _ ⟨more, rfl⟩
    exact (misses_symbol (hbrace ':' more (by decide))).bind _
  | cons type types =>
    refine ⟨some (type :: types), rfl, Reads.optional ?_⟩
    simp only [ClassDecl.supertypesText, List.length_append] at hdepth
    have htypes : (sepBy₁ (symbol ',') (Grammar.type depth)).Reads (type.text.toList ++
        types.flatMap fun type => [',', ' '] ++ type.text.toList) (type :: types)
        fun rest => ∃ more, rest = [' '] ++ '\x7b' :: more := by
      have hreads : ∀ t ∈ type :: types,
          (Grammar.type depth).Reads t.text.toList t (Ends ['<']) := by
        intro t ht
        refine reads_type (h t ht) ?_
        obtain rfl | ht := List.mem_cons.mp ht
        · omega
        · have hle := length_le_flatMap ht fun type => [',', ' '] ++ type.text.toList
          rw [List.length_append] at hle
          omega
      refine reads_commaSeparated (lenient_type depth) hreads
        (fun _ => .of_solid (by decide) (by decide) (by decide) _) ?_
      rintro _ ⟨more, rfl⟩
      exact ⟨.of_blank (by decide) (by decide) (avoids_skipBlanks_cons (by decide) (by decide) _),
        hbrace ',' more (by decide)⟩
    exact ((reads_symbol (by decide)).space (lenient_spaced _)).bind
      ((htypes.space ((lenient_type depth).bind _)).commit) fun _ _ => trivial

/-- Classes are read back, whatever blanks stand before them. -/
theorem reads_classDecl {depth : Nat} {c : ClassDecl} (h : IsPlainClass c)
    (hdepth : c.text.toList.length < depth) (blanks : List Char)
    (hblanks : ∀ c ∈ blanks, isSpace c = true) :
    (classDecl depth).Reads (blanks ++ c.text.toList) c fun _ => True := by
  obtain ⟨t, u, htext, hmarks, hclass⟩ := reads_marks h.named.annotations hblanks
  rw [h.sourced.toList_text] at hdepth ⊢
  simp only [List.length_append] at hdepth
  obtain ⟨found, hfound, hsupertypes⟩ := reads_supertypes depth h.named.supertypes
    (by omega)
  have hname := ((reads_spaced_identifier h.named.name).commit.within "class name").space
    ((lenient_spaced _).commit.within _)
  have hproperties : Reads (many (property depth))
      (c.properties.flatMap fun p => ['\n', ' ', ' '] ++ p.text.toList) c.properties
      fun rest => ∃ more, rest = ['\n'] ++ '\x7d' :: more := by
    refine reads_many (F := Ends ['<', '=', 'g', 's']) (fun p hp => ?_) (fun _ _ => nofun)
      (fun p hp rest => ?_) ?_
    · have hle := length_le_flatMap hp fun p => ['\n', ' ', ' '] ++ p.text.toList
      rw [List.length_append] at hle
      exact (reads_property (h.property hp) (by omega)).blanks (lenient_property depth) _
        (by decide)
    · obtain ⟨more, htext⟩ := p.exists_cons_text
      rw [htext]
      exact .of_line [' ', ' '] (by decide) (by decide) (by decide) (more ++ rest)
    · rintro _ ⟨more, rfl⟩
      refine ⟨.of_line [] (by decide) (by decide) (by decide) more, misses_property ?_⟩
      rw [skipBlanks_append (by decide)]
      exact avoids_skipBlanks_cons (by decide) (by decide) _
  have hbody : (commit do
      symbol '\x7b'
      let properties ← many (property depth)
      symbol '\x7d'
      return properties).Reads (([' '] ++ ['\x7b']) ++
        ((c.properties.flatMap fun p => ['\n', ' ', ' '] ++ p.text.toList) ++
          (['\n'] ++ ['\x7d']))) c.properties fun _ => True :=
    (((reads_symbol (by decide)).space (lenient_spaced _)).bind (hproperties.bind
      (((reads_symbol (by decide)).blanks (lenient_spaced _) ['\n'] (by decide)).map fun _ =>
        c.properties) fun rest _ => ⟨rest, rfl⟩) fun _ _ => trivial).commit
  have hvalue : ({ name := c.name, annotations := c.annotations, supertypes := found.getD []
                   properties := c.properties } : ClassDecl) = c := by
    rw [hfound]
    exact h.sourced.eq_declared.symm
  rw [← List.append_assoc, htext, List.append_assoc]
  unfold classDecl
  refine hmarks.bind (hclass.bind (hname.bind (hsupertypes.bind ((hbody.within _).map_eq hvalue) ?_)
    ?_) ?_) ?_
  · exact fun rest _ => ⟨_, rfl⟩
  · intro rest _
    cases c.supertypes with
    | nil => exact avoids_cons.mpr (by decide)
    | cons => exact avoids_cons.mpr (by decide)
  · exact fun _ _ => avoids_cons.mpr (by decide)
  · exact fun rest _ => ⟨_, List.append_assoc ..⟩

/-! ## Modules -/

/-- At the end of the text there is no further class to read. -/
theorem misses_classDecl (depth : Nat) : (classDecl depth).Misses [] := by
  have hmarks : Reads (many do symbol '@'; identifier) [] [] fun rest => rest = [] := by
    refine reads_many_nil ?_
    rintro _ rfl
    exact (misses_symbol (avoids_nil _)).bind _
  refine misses_bind (hmarks [] rfl) (Misses.bind ?_ _)
  exact misses_spaced_keyword (c := 'c') (by decide) rfl (avoids_nil _)

/-- The classes of a module are read back if each of them is. -/
theorem reads_classes {depth : Nat} {m : Module} (h : ∀ c ∈ m.classes, IsPlainClass c)
    (hdepth : m.text.toList.length < depth) :
    Reads (many (classDecl depth)) m.text.toList m.classes fun rest => rest = [] := by
  have hend : ∀ rest : List Char, rest = [] → (classDecl depth).Misses rest := by
    rintro _ rfl
    exact misses_classDecl depth
  obtain ⟨_ | ⟨c, classes⟩⟩ := m
  · exact reads_many_nil hend
  rw [List.forall_mem_cons] at h
  have htext : (Declaration.Module.mk (c :: classes)).text.toList =
      c.text.toList ++ classes.flatMap fun c => ['\n', '\n'] ++ c.text.toList := by
    rw [Declaration.Module.text, List.map_cons, toList_intercalate_cons, List.flatMap_map]
    rfl
  rw [htext] at hdepth ⊢
  rw [List.length_append] at hdepth
  have hlt : c.text.toList.length < depth := by omega
  have hfirst := reads_classDecl h.1 hlt [] (List.forall_mem_nil _)
  rw [List.nil_append] at hfirst
  have hnonempty : c.text.toList ≠ [] := by simp [ClassDecl.text]
  refine hfirst.many_cons hnonempty (reads_many (F := fun _ => True) (fun c hc => ?_)
    (fun _ _ => nofun) (fun _ _ _ => trivial) fun rest hrest => ⟨trivial, hend rest hrest⟩)
    fun _ _ => trivial
  have hle := length_le_flatMap hc fun c => ['\n', '\n'] ++ c.text.toList
  rw [List.length_append] at hle
  exact reads_classDecl (h.2 c hc) (by omega) _ (by decide)

/-- A module is read back if its classes are. -/
theorem reads_module {depth : Nat} {m : Module} (h : ∀ c ∈ m.classes, IsPlainClass c)
    (hdepth : m.text.toList.length < depth) :
    (module depth).Reads m.text.toList m fun rest => rest = [] := by
  have hend : (within "class declaration" (spaced endOfText)).Reads [] ()
      fun rest => rest = [] := by
    rintro _ rfl
    rfl
  exact (reads_classes h hdepth).bind_nil (hend.map fun _ => m) fun _ hrest => hrest

/-- A module is read back from the text it is printed as. -/
theorem parseModule_text {source : String} {m : Module} (h : parseModule source = .ok m)
    (hplain : ∀ value ∈ m.literals, value.isPlain = true) : parseModule m.text = .ok m := by
  have hclasses : ∀ c ∈ m.classes, IsPlainClass c := fun c hc =>
    ⟨sourced_of_parseModule h c hc, wellNamed_of_parseModule h c hc, fun value hvalue =>
      hplain value (List.mem_flatMap_of_mem hc hvalue)⟩
  have hread := reads_module hclasses (Nat.lt_succ_self _) [] rfl
  rw [List.append_nil] at hread
  unfold parseModule readWhole
  dsimp only
  rw [hread]

/-- A class with a comment, a getter of one expression and statements on one line, all of which
are printed otherwise. -/
def shelfText : String :=
  "@Framed class Shelf : Store<List<Int>?> \x7b\n" ++
  "  var label: Text = \"a\\tb\" get() = this.label\n" ++
  "  set(v) \x7b field = [v, -1]; v.used = true \x7d\n" ++
  "\x7d // end"

/-- What the text declares. -/
def shelfModule : Module where
  classes := [
    { name := "Shelf"
      annotations := ["Framed"]
      supertypes := [.generic "Store" [.mk "List" [.named "Int"] true]]
      properties := [
        { name := "label"
          type := .named "Text"
          mutable := true
          initializer := some (.literal (.string "a\tb"))
          getter := some { body := [.return (.member .this "label")] }
          setter := some { param := some "v", body := [
            .assign .backing (.list [.name "v", .literal (.int (-1))]),
            .assign (.member (.name "v") "used") (.literal (.bool true))] } }] }]

/-- The shelf is read, printed and read back. -/
theorem parseModule_text_shelf : parseModule shelfText = .ok shelfModule ∧
    (∀ value ∈ shelfModule.literals, value.isPlain = true) ∧
      parseModule shelfModule.text = .ok shelfModule := by
  have hsource : parseModule shelfText = .ok shelfModule := by decide +kernel
  have hplain : ∀ value ∈ shelfModule.literals, value.isPlain = true := by decide +kernel
  exact ⟨hsource, hplain, parseModule_text hsource hplain⟩

end VersionedObjects.Grammar
