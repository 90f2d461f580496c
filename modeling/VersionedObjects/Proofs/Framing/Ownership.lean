import VersionedObjects.Proofs.Declaration.Inheritance
import VersionedObjects.Proofs.Framing.FramedAgain

/-!
# Owners of framed properties

The ancestors of a class are met one by one on the way up from its superclass, up to a name that
no class bears or that was met before; so the way ends in every module. Where inheritance has no
cycles, the way up from an ancestor is the rest of the way up from the class, and of all classes on
it that could frame a property the farthest one does. Main statement: `one_owner`.
-/

namespace VersionedObjects.Framing

open Declaration

/-! ## The way up -/

/-- The way up from a name comes to an end after the classes of a list: where there is no
superclass, at a name seen before, or at one that no class bears. -/
inductive Ascent (m : Module) : List String → Option String → List ClassDecl → Prop where
  | top {seen} : Ascent m seen none []
  | cycle {seen name} : name ∈ seen → Ascent m seen (some name) []
  | undeclared {seen name} : name ∉ seen → m.class? name = none → Ascent m seen (some name) []
  | step {seen name} {a : ClassDecl} {rest : List ClassDecl} : name ∉ seen →
      m.class? name = some a → Ascent m (name :: seen) (a.superclass?.map (·.name)) rest →
      Ascent m seen (some name) (a :: rest)

namespace Ascent

variable {m : Module} {seen : List String} {next : Option String} {chain other : List ClassDecl}

/-- There is one way up. -/
theorem unique (h : Ascent m seen next chain) (h' : Ascent m seen next other) : chain = other := by
  induction h generalizing other with
  | top => cases h'; rfl
  | cycle hseen =>
    cases h' with
    | step hnew => exact absurd hseen hnew
    | _ => rfl
  | undeclared hnew hnone =>
    cases h' with
    | step _ hsome => rw [hnone] at hsome; cases hsome
    | _ => rfl
  | step hnew hsome _ ih =>
    cases h' with
    | cycle hseen => exact absurd hseen hnew
    | undeclared _ hnone => rw [hnone] at hsome; cases hsome
    | step _ hsome' hrest =>
      obtain rfl := Option.some.inj (hsome.symm.trans hsome')
      rw [ih hrest]

/-- No name is met twice, and none that was seen before. -/
theorem names (h : Ascent m seen next chain) :
    (chain.map (·.name)).Nodup ∧ ∀ a ∈ chain, a.name ∉ seen := by
  induction h with
  | top => exact ⟨List.nodup_nil, nofun⟩
  | cycle => exact ⟨List.nodup_nil, nofun⟩
  | undeclared => exact ⟨List.nodup_nil, nofun⟩
  | @step seen name a rest hnew hsome _ ih =>
    have hname := (Module.mem_of_class? hsome).2
    refine ⟨List.nodup_cons.mpr ⟨fun hmem => ?_, ih.1⟩, List.forall_mem_cons.mpr ⟨?_, ?_⟩⟩
    · obtain ⟨b, hb, hbname⟩ := List.mem_map.mp hmem
      exact ih.2 b hb (hbname ▸ hname ▸ List.mem_cons_self)
    · exact hname ▸ hnew
    · exact fun b hb hold => ih.2 b hb (List.mem_cons_of_mem _ hold)

/-- The ancestors of a class are classes of the module. -/
theorem mem_classes (h : Ascent m seen next chain) : ∀ a ∈ chain, a ∈ m.classes := by
  induction h with
  | top => nofun
  | cycle => nofun
  | undeclared => nofun
  | step _ hsome _ ih =>
    exact List.forall_mem_cons.mpr ⟨(Module.mem_of_class? hsome).1, ih⟩

end Ascent

/-- By induction on the number of classes that may still be met: those met so far have different
names, so when as many were met as the module has, every name of a class was seen. -/
theorem ascent_ancestorsFrom {m : Module} {fuel : Nat} {met : List String} (hnodup : met.Nodup)
    (hmet : met ⊆ m.classes.map (·.name)) (hfuel : met.length + fuel = m.classes.length)
    {seen : List String} (hseen : met ⊆ seen) (next : Option String) :
    Ascent m seen next (ancestorsFrom m fuel seen next) := by
  induction fuel generalizing met seen next with
  | zero =>
    cases next with
    | none => exact .top
    | some name =>
      by_cases hold : name ∈ seen
      · exact .cycle hold
      · refine .undeclared hold (Option.eq_none_iff_forall_ne_some.mpr fun a ha => ?_)
        obtain ⟨hmem, rfl⟩ := Module.mem_of_class? ha
        have hmore := List.nodup_cons.mpr ⟨fun hmem => hold (hseen hmem), hnodup⟩
        have hle := hmore.length_le_of_subset
          (List.cons_subset.mpr ⟨List.mem_map_of_mem hmem, hmet⟩)
        rw [List.length_cons, List.length_map] at hle
        omega
  | succ fuel ih =>
    cases next with
    | none => exact .top
    | some name =>
      rw [ancestorsFrom]
      split
      · next hold => exact .cycle (by simpa using hold)
      · next hnew =>
        have hnew : name ∉ seen := by simpa using hnew
        split
        · next hnone => exact .undeclared hnew hnone
        · next a ha =>
          obtain ⟨hmem, rfl⟩ := Module.mem_of_class? ha
          have hmore : (a.name :: met).Nodup :=
            List.nodup_cons.mpr ⟨fun hold => hnew (hseen hold), hnodup⟩
          refine .step hnew ha (ih hmore ?_ ?_ ?_ _)
          · exact List.cons_subset.mpr ⟨List.mem_map_of_mem hmem, hmet⟩
          · rw [List.length_cons]
            omega
          · exact List.cons_subset_cons a.name hseen

/-- In every module the way up from a class comes to an end, after its ancestors. -/
theorem ascent_ancestors (m : Module) (c : ClassDecl) :
    Ascent m [c.name] (c.superclass?.map (·.name)) (ancestors m c) :=
  ascent_ancestorsFrom List.nodup_nil (List.nil_subset _) (by simp) (List.nil_subset _) _

/-! ## Ways without cycles -/

section

variable {m : Module} {seen : List String}

/-- Every name in the list leads up to the one where the way goes on. -/
def LeadTo (m : Module) (seen : List String) (next : Option String) : Prop :=
  ∀ name ∈ next, ∀ s ∈ seen, Relation.TransGen m.Inherits s name

/-- Going one class up from what the names lead to is again something they lead to. -/
theorem LeadTo.step {name : String} (h : LeadTo m seen (some name)) {a : ClassDecl}
    (ha : m.class? name = some a) : LeadTo m (name :: seen) (a.superclass?.map (·.name)) := by
  intro base hbase s hs
  obtain ⟨type, htype, rfl⟩ := Option.map_eq_some_iff.mp hbase
  obtain ⟨hmem, hname⟩ := Module.mem_of_class? ha
  have hstep : m.Inherits name type.name := ⟨a, hmem, hname, type, htype, rfl⟩
  rcases List.mem_cons.mp hs with rfl | hs
  · exact .single hstep
  · exact (h name rfl s hs).tail hstep

/-- Where there are no cycles the way does not depend on what was seen of it. -/
theorem Ascent.of_subset (hacyclic : m.Acyclic) {next : Option String} {chain : List ClassDecl}
    (h : Ascent m seen next chain) (hlead : LeadTo m seen next) {fewer : List String}
    (hfewer : fewer ⊆ seen) : Ascent m fewer next chain := by
  induction h generalizing fewer with
  | top => exact .top
  | @cycle seen name hold => exact absurd (hlead name rfl name hold) (hacyclic name)
  | undeclared hnew hnone => exact .undeclared (fun hmem => hnew (hfewer hmem)) hnone
  | @step seen name a rest hnew ha _ ih =>
    exact .step (fun hmem => hnew (hfewer hmem)) ha
      (ih (hlead.step ha) (List.cons_subset_cons name hfewer))

/-- The way up from a class that was met is the rest of the way. By induction on the way. -/
theorem Ascent.ancestors_eq (hacyclic : m.Acyclic) {next : Option String}
    {chain : List ClassDecl} (h : Ascent m seen next chain) (hlead : LeadTo m seen next)
    {before after : List ClassDecl} {a : ClassDecl} (hchain : chain = before ++ a :: after) :
    ancestors m a = after := by
  induction h generalizing before with
  | top => simp at hchain
  | cycle => simp at hchain
  | undeclared => simp at hchain
  | @step seen name b rest _ hb hrest ih =>
    cases before with
    | nil =>
      obtain ⟨rfl, rfl⟩ := List.cons.inj hchain
      have hown : Ascent m [b.name] (b.superclass?.map (·.name)) rest :=
        hrest.of_subset hacyclic (hlead.step hb) (by simp [(Module.mem_of_class? hb).2])
      exact (ascent_ancestors m b).unique hown
    | cons first before => exact ih (hlead.step hb) (List.cons.inj hchain).2

/-- The ancestors of an ancestor are those beyond it. -/
theorem ancestors_of_split (hacyclic : m.Acyclic) {d a : ClassDecl} (hd : d ∈ m.classes)
    {before after : List ClassDecl} (h : d :: ancestors m d = before ++ a :: after) :
    ancestors m a = after := by
  cases before with
  | nil =>
    obtain ⟨rfl, rfl⟩ := List.cons.inj h
    rfl
  | cons first before =>
    refine (ascent_ancestors m d).ancestors_eq hacyclic ?_ (List.cons.inj h).2
    intro base hbase s hs
    obtain ⟨type, htype, rfl⟩ := Option.map_eq_some_iff.mp hbase
    obtain rfl := List.mem_singleton.mp hs
    exact .single ⟨d, hd, rfl, type, htype, rfl⟩

end

/-! ## Owners -/

/-- The class asks for framing and declares a mutable property of the name. -/
def mayOwn (name : String) (c : ClassDecl) : Bool :=
  c.hasMark framedMark && c.properties.any fun p => p.mutable && p.name == name

/-- In a module without framed classes, a class owns the properties that it may own and that none
of its ancestors may. -/
theorem mem_classFacts_iff {m : Module} (hplain : ∀ c ∈ m.classes, c.isFramed = false)
    {c : ClassDecl} (hc : c ∈ m.classes) {name : String} :
    name ∈ (classFacts m c).properties ↔
      mayOwn name c = true ∧ ∀ a ∈ ancestors m c, mayOwn name a = false := by
  have hinherited : name ∈ inheritedFramed m c ↔ ∃ a ∈ ancestors m c, mayOwn name a = true := by
    rw [mem_inheritedFramed]
    refine exists_congr fun a => and_congr_right fun ha => ?_
    have hnot := hplain a ((ascent_ancestors m c).mem_classes a ha)
    simp [isOrWillBeFramed, mayOwn, hnot]
  have hnone : (∀ a ∈ ancestors m c, mayOwn name a = false) ↔ name ∉ inheritedFramed m c := by
    rw [hinherited]
    simp
  rw [hnone, classFacts, hplain c hc]
  cases hmark : c.hasMark framedMark with
  | false => simp [mayOwn, hmark]
  | true =>
    simp only [mayOwn, hmark, Bool.not_true, Bool.or_self, Bool.false_eq_true, if_false,
      Bool.true_and, List.mem_map, List.mem_filter, List.any_eq_true, Bool.and_eq_true,
      Bool.not_eq_true', List.contains_eq_mem, decide_eq_false_iff_not, beq_iff_eq]
    constructor
    · rintro ⟨p, ⟨hp, hmutable, hfree⟩, rfl⟩
      exact ⟨⟨p, hp, hmutable, rfl⟩, hfree⟩
    · rintro ⟨⟨p, hp, hmutable, rfl⟩, hfree⟩
      exact ⟨p, ⟨hp, hmutable, hfree⟩, rfl⟩

/-- A list in which something has a property ends, behind the last one that has it, with some that
do not. -/
theorem exists_getLast?_filter {α : Type} {keep : α → Bool} {items : List α}
    (h : ∃ a ∈ items, keep a = true) :
    ∃ before a after, items = before ++ a :: after ∧ keep a = true ∧
      (∀ b ∈ after, keep b = false) ∧ (items.filter keep).getLast? = some a := by
  induction items with
  | nil => simp at h
  | cons first rest ih =>
    by_cases hrest : ∃ a ∈ rest, keep a = true
    · obtain ⟨before, a, after, rfl, ha, hafter, hlast⟩ := ih hrest
      refine ⟨first :: before, a, after, rfl, ha, hafter, ?_⟩
      rw [List.filter_cons]
      split
      · rw [List.getLast?_cons, hlast]
        rfl
      · exact hlast
    · obtain ⟨a, ha, hkeep⟩ := h
      rcases List.mem_cons.mp ha with rfl | ha
      · have hnone : ∀ b ∈ rest, keep b = false := by simpa using hrest
        refine ⟨[], a, rest, rfl, hkeep, hnone, ?_⟩
        rw [List.filter_cons_of_pos hkeep, List.filter_eq_nil_iff.mpr (by simpa using hnone)]
        rfl
      · exact absurd ⟨a, ha, hkeep⟩ hrest

/-- **One owner.** In every module the way up from a class comes to an end, after its ancestors;
they and the class have different names. Where the names of classes differ, no class is framed yet
and inheritance has no cycles, a mutable property of a class marked to be framed has one owner
among the class and its ancestors: of all that are marked and declare it as mutable, the farthest
is the one whose facts name it. -/
theorem one_owner (m : Module) :
    (∀ c : ClassDecl,
      (∀ chain, Ascent m [c.name] (c.superclass?.map (·.name)) chain ↔ chain = ancestors m c) ∧
      ((c :: ancestors m c).map (·.name)).Nodup) ∧
    ((m.classes.map (·.name)).Nodup → (∀ c ∈ m.classes, c.isFramed = false) → m.Acyclic →
      ∀ d ∈ m.classes, d.hasMark framedMark = true → ∀ p ∈ d.properties, p.mutable = true →
      ∃ owner ∈ d :: ancestors m d,
        ((d :: ancestors m d).filter (mayOwn p.name)).getLast? = some owner ∧
        ∀ a ∈ d :: ancestors m d,
          p.name ∈ (((Facts.analyze m).get? a.name).getD {}).properties ↔ a = owner) := by
  refine ⟨fun c => ?_, fun hnames hplain hacyclic d hd hmark p hp hmutable => ?_⟩
  · have hascent := ascent_ancestors m c
    refine ⟨fun chain => ⟨fun h => h.unique hascent, fun h => h ▸ hascent⟩, ?_⟩
    obtain ⟨hnodup, hnew⟩ := hascent.names
    refine List.nodup_cons.mpr ⟨fun hmem => ?_, hnodup⟩
    obtain ⟨a, ha, hname⟩ := List.mem_map.mp hmem
    exact hnew a ha (hname ▸ List.mem_singleton_self c.name)
  · have hpath : ∀ a ∈ d :: ancestors m d, a ∈ m.classes :=
      List.forall_mem_cons.mpr ⟨hd, (ascent_ancestors m d).mem_classes⟩
    have hown : mayOwn p.name d = true := by
      simp only [mayOwn, hmark, Bool.true_and, List.any_eq_true, Bool.and_eq_true, beq_iff_eq]
      exact ⟨p, hp, hmutable, rfl⟩
    have hsome : ∃ a ∈ d :: ancestors m d, mayOwn p.name a = true :=
      ⟨d, List.mem_cons_self, hown⟩
    obtain ⟨before, owner, after, hsplit, howner, hafter, hlast⟩ := exists_getLast?_filter hsome
    refine ⟨owner, by rw [hsplit]; simp, hlast, fun a ha => ?_⟩
    rw [Pipeline.get?_analyze hnames (hpath a ha), Option.getD_some,
      mem_classFacts_iff hplain (hpath a ha)]
    constructor
    · rintro ⟨hmay, hnone⟩
      rw [hsplit] at ha
      rcases List.mem_append.mp ha with hbefore | ha
      · -- the owner is an ancestor of every class before it
        obtain ⟨front, back, rfl⟩ := List.append_of_mem hbefore
        have hfront : d :: ancestors m d = front ++ a :: (back ++ owner :: after) := by
          rw [hsplit]
          simp
        have hbeyond := ancestors_of_split hacyclic hd hfront
        have hnot := hnone owner (by rw [hbeyond]; simp)
        rw [howner] at hnot
        cases hnot
      · rcases List.mem_cons.mp ha with rfl | ha
        · rfl
        · rw [hafter a ha] at hmay
          cases hmay
    · rintro rfl
      exact ⟨howner, by rw [ancestors_of_split hacyclic hd hsplit]; exact hafter⟩

/-- Five classes, each the superclass of the one before it, that declare the same property: the
tray is not marked to be framed, and for the lid the property is not mutable. -/
def boxLine : Module :=
  let size (mutable : Bool) : Property := { name := "size", type := .named "Int", mutable }
  let marked (name : String) (supertypes : List TypeExpr) (mutable : Bool) : ClassDecl :=
    { name, annotations := [framedMark], supertypes, properties := [size mutable] }
  ⟨[marked "Label" [.named "Crate"] true,
    marked "Crate" [.named "Tray"] true,
    { name := "Tray", supertypes := [.named "Bin"], properties := [size true] },
    marked "Bin" [.named "Lid"] true,
    marked "Lid" [] false]⟩

/-- The bin owns the property of the label. -/
theorem one_owner_boxLine :
    (boxLine.classes.map (·.name)).Nodup ∧ (∀ c ∈ boxLine.classes, c.isFramed = false) ∧
    boxLine.Acyclic ∧
    ∃ d ∈ boxLine.classes, d.hasMark framedMark = true ∧
      (d :: ancestors boxLine d).map (·.name) = ["Label", "Crate", "Tray", "Bin", "Lid"] ∧
      ∃ p ∈ d.properties, p.mutable = true ∧
        ∃ owner ∈ d :: ancestors boxLine d, owner.name = "Bin" ∧
          ∀ a ∈ d :: ancestors boxLine d,
            p.name ∈ (((Facts.analyze boxLine).get? a.name).getD {}).properties ↔ a = owner := by
  have hnames : (boxLine.classes.map (·.name)).Nodup := by decide
  have hplain : ∀ c ∈ boxLine.classes, c.isFramed = false := by decide +kernel
  have hacyclic : boxLine.Acyclic :=
    Module.acyclic_of_rank (["Lid", "Bin", "Tray", "Crate", "Label"].idxOf ·) (by decide +kernel)
  refine ⟨hnames, hplain, hacyclic, _, List.mem_cons_self, by decide, by decide +kernel, _,
    List.mem_cons_self, rfl, ?_⟩
  obtain ⟨owner, hmem, hlast, howner⟩ := (one_owner boxLine).2 hnames hplain hacyclic _
    List.mem_cons_self (by decide) _ List.mem_cons_self rfl
  refine ⟨owner, hmem, ?_, howner⟩
  have hbin := congrArg (Option.map (·.name)) hlast
  simpa using hbin.symm.trans (by decide +kernel : _ = some "Bin")

end VersionedObjects.Framing
