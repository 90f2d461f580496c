import VersionedObjects.Grammar.SyntaxError

/-!
# What texts declare

A text in declaration syntax declares classes that have annotations, supertypes and properties
and nothing else, and none of their expressions is an operation on records. A property of all
values that a reader gives is proved along the reader.
-/

namespace VersionedObjects.Declaration

/-! ## Sourced declarations -/

namespace Expr

mutual

/-- The expression is one that a text can contain. -/
def isSourced : Expr → Bool
  | literal _ | this | name _ | backing => true
  | list items => isSourcedList items
  | member target id => target.isSourced && id != recordField
  | readable .. | writable .. | cast .. | newRecord _ | newChain _ | firstRecord _
  | prependRecord .. => false

/-- All expressions are such that a text can contain them. -/
def isSourcedList : List Expr → Bool
  | [] => true
  | item :: rest => item.isSourced && isSourcedList rest

end

/-- A text can contain items if it can contain each. -/
theorem isSourcedList_eq_all (items : List Expr) :
    isSourcedList items = items.all isSourced := by
  induction items with
  | nil => rfl
  | cons item rest ih => simp [isSourcedList, ih]

end Expr

/-- The expressions of the statement are such that a text can contain them. -/
def Stmt.isSourced : Stmt → Bool
  | .return value | .expr value => value.isSourced
  | .assign target value => target.isSourced && value.isSourced
  | .notifyCreated => false

/-- The statements of the accessor are such that a text can contain them. -/
def Accessor.isSourced (accessor : Accessor) : Bool :=
  accessor.body.all (·.isSourced)

/-- The name and the accessors of the property are such that a text can contain them. -/
def Property.isSourced (p : Property) : Bool :=
  p.name != recordField && p.getter.all (·.isSourced) && p.setter.all (·.isSourced)

/-- The class has nothing but what a text can declare. -/
structure ClassDecl.Sourced (c : ClassDecl) : Prop where
  eq_declared : c = { name := c.name, annotations := c.annotations, supertypes := c.supertypes,
                      properties := c.properties }
  properties : ∀ p ∈ c.properties, p.isSourced = true

namespace ClassDecl.Sourced

variable {c : ClassDecl}

/-- No text declares fields. -/
theorem fields (h : c.Sourced) : c.fields = [] :=
  congrArg ClassDecl.fields h.eq_declared

/-- No text declares constructors. -/
theorem constructors (h : c.Sourced) : c.constructors = [] :=
  congrArg ClassDecl.constructors h.eq_declared

/-- No text declares initializers of its own. -/
theorem initializers (h : c.Sourced) : c.initializers = [] :=
  congrArg ClassDecl.initializers h.eq_declared

/-- No text declares methods. -/
theorem methods (h : c.Sourced) : c.methods = [] :=
  congrArg ClassDecl.methods h.eq_declared

/-- What a text declares is declared, and not made from anything. -/
theorem origin (h : c.Sourced) : c.origin = .declared :=
  congrArg ClassDecl.origin h.eq_declared

end ClassDecl.Sourced

end VersionedObjects.Declaration

namespace VersionedObjects.Grammar

open Declaration

/-! ## Properties of what a reader gives -/

namespace Reader

variable {α β : Type}

/-- Every value that the reader gives has the property. -/
def Yields (p : Reader α) (P : α → Prop) : Prop :=
  ∀ s a rest, p s = .done a rest → P a

variable {p q : Reader α} {P : α → Prop}

/-- Every value that a reader gives is a value. -/
theorem yields_true (p : Reader α) : p.Yields fun _ => True :=
  fun _ _ _ _ => trivial

/-- A reader that gives one value yields what that value has. -/
theorem yields_pure {a : α} (ha : P a) : (pure a : Reader α).Yields P := by
  intro s b rest h
  cases h
  exact ha

/-- A reader that gives no value yields anything. -/
theorem yields_fail : (fail : Reader α).Yields P :=
  fun _ _ _ h => nomatch h

/-- A sequence yields what its next reader does after each value that the first one yields. -/
theorem Yields.bind {f : α → Reader β} {Q : β → Prop} (hp : p.Yields P)
    (hf : ∀ a, P a → (f a).Yields Q) : (p >>= f).Yields Q := by
  intro s b rest h
  rw [bind_apply] at h
  cases ha : p s with
  | done a mid =>
    rw [ha] at h
    exact hf a (hp s a mid ha) mid b rest h
  | miss fault => rw [ha] at h; cases h
  | halt fault => rw [ha] at h; cases h

/-- What is read first may be any value. -/
theorem yields_bind {f : α → Reader β} {Q : β → Prop} (hf : ∀ a, (f a).Yields Q) :
    (p >>= f).Yields Q :=
  (yields_true p).bind fun a _ => hf a

/-- A choice yields what both of its readers do. -/
theorem Yields.orElse (hp : p.Yields P) (hq : q.Yields P) : (p.orElse q).Yields P := by
  intro s a rest h
  unfold Reader.orElse at h
  cases ha : p s with
  | miss fault => rw [ha] at h; exact hq s a rest h
  | done b mid => rw [ha] at h; exact hp s a rest (ha.trans h)
  | halt fault => rw [ha] at h; cases h

/-- An optional reader yields the same, if anything. -/
theorem Yields.optional (hp : p.Yields P) :
    p.optional.Yields fun found => ∀ a ∈ found, P a := by
  intro s found rest h
  unfold Reader.optional at h
  cases ha : p s with
  | done a mid =>
    rw [ha] at h
    cases h
    intro b hb
    cases hb
    exact hp s a rest ha
  | miss fault => rw [ha] at h; cases h; nofun
  | halt fault => rw [ha] at h; cases h

/-- A committed reader yields the same. -/
theorem Yields.commit (hp : p.Yields P) : p.commit.Yields P := by
  intro s a rest h
  unfold Reader.commit at h
  cases ha : p s with
  | done b mid => rw [ha] at h; exact hp s a rest (ha.trans h)
  | miss fault => rw [ha] at h; cases h
  | halt fault => rw [ha] at h; cases h

/-- A reader yields the same when the construct that it reads is named. -/
theorem Yields.within (construct : String) (hp : p.Yields P) :
    (p.within construct).Yields P := by
  intro s a rest h
  unfold Reader.within at h
  cases ha : p s with
  | done b mid => rw [ha] at h; exact hp s a rest (ha.trans h)
  | miss fault => rw [ha] at h; cases h
  | halt fault => rw [ha] at h; cases h

/-- A tested reader yields the same. -/
theorem Yields.filter (keep : α → Bool) (hp : p.Yields P) : (p.filter keep).Yields P := by
  intro s a rest h
  unfold Reader.filter at h
  cases ha : p s with
  | done b mid =>
    rw [ha] at h
    dsimp only at h
    split at h
    · cases h
      exact hp s _ _ ha
    · cases h
  | miss fault => rw [ha] at h; cases h
  | halt fault => rw [ha] at h; cases h

/-- By induction along the values read. -/
theorem Yields.many (hp : p.Yields P) : Yields (Reader.many p) fun all => ∀ a ∈ all, P a := by
  intro s all rest h
  fun_induction Reader.many p s generalizing all rest with
  | case1 => cases h; nofun
  | case2 => cases h
  | case3 s a mid hdone hlt more last hmore ih =>
    cases h
    exact List.forall_mem_cons.mpr ⟨hp s a mid hdone, ih more _ hmore⟩
  | case4 => cases h
  | case5 => cases h
  | case6 => cases h

/-- A list of one item or more yields items of which each is as its reader yields it. -/
theorem Yields.sepBy₁ {separator : Reader Unit} (hp : p.Yields P) :
    (Reader.sepBy₁ separator p).Yields fun all => ∀ a ∈ all, P a := by
  refine hp.bind fun first hfirst => ?_
  refine (Yields.many (yields_bind fun _ => hp)).bind fun more hmore => ?_
  exact yields_pure (List.forall_mem_cons.mpr ⟨hfirst, hmore⟩)

/-- A list yields items of which each is as its reader yields it. -/
theorem Yields.sepBy {separator : Reader Unit} (hp : p.Yields P) :
    (Reader.sepBy separator p).Yields fun all => ∀ a ∈ all, P a := by
  refine (Yields.optional hp.sepBy₁).bind fun found hfound => yields_pure ?_
  cases found with
  | none => nofun
  | some all => exact hfound all rfl

end Reader

open Reader

variable {α : Type}

/-- A reader yields the same when blanks are skipped first. -/
theorem yields_spaced {p : Reader α} {P : α → Prop} (hp : p.Yields P) : (spaced p).Yields P :=
  fun s a rest h => hp (skipBlanks s) a rest h

/-! ## What the grammar gives -/

/-- An identifier is not the name of the record chain, which starts with a dollar sign. -/
theorem yields_identifier : identifier.Yields (· ≠ recordField) := by
  rintro (_ | ⟨c, s⟩) name rest h
  · cases h
  · simp only [identifier] at h
    split at h
    · next hc =>
      cases h
      intro hrecord
      have hchars := congrArg String.toList hrecord
      rw [String.toList_ofList] at hchars
      have hdollar : c = '$' := (List.cons.inj (hchars.trans (by decide : recordField.toList =
        ['$', 'r', 'e', 'c', 'o', 'r', 'd']))).1
      subst hdollar
      exact absurd hc (by decide)
    · cases h

/-- A path from an expression that a text can contain is one too, unless it names the record. -/
theorem isSourced_foldl_member {head : Expr} (hhead : head.isSourced = true)
    {path : List String} (hpath : ∀ name ∈ path, name ≠ recordField) :
    (path.foldl Expr.member head).isSourced = true := by
  induction path generalizing head with
  | nil => exact hhead
  | cons name rest ih =>
    rw [List.forall_mem_cons] at hpath
    exact ih (by simp [Expr.isSourced, hhead, hpath.1]) hpath.2

/-- Only what a text can contain is read as an expression. By induction on the depth. -/
theorem yields_expr (depth : Nat) : (expr depth).Yields (·.isSourced = true) := by
  induction depth with
  | zero => exact yields_fail
  | succ depth ih =>
    have hlist : Reader.Yields (do
        char '['
        let items ← sepBy (symbol ',') (expr depth)
        commit (symbol ']')
        return Expr.list items) (·.isSourced = true) := by
      refine yields_bind fun _ => ih.sepBy.bind fun items hitems => yields_bind fun _ => ?_
      refine yields_pure ?_
      rw [Expr.isSourced, Expr.isSourcedList_eq_all, List.all_eq_true]
      exact hitems
    unfold expr
    refine Yields.bind (P := (·.isSourced = true)) (yields_spaced ?_) fun head hhead => ?_
    · refine Yields.orElse (yields_bind fun _ => yields_pure rfl) ?_
      refine Yields.orElse hlist ?_
      refine Yields.orElse (yields_bind fun _ => yields_pure rfl) ?_
      refine Yields.orElse (yields_bind fun _ => yields_pure rfl) ?_
      exact yields_bind fun _ => yields_pure rfl
    · have hstep : pathStep.Yields (· ≠ recordField) := yields_bind fun _ => yields_identifier
      exact hstep.many.bind fun path hpath => yields_pure (isSourced_foldl_member hhead hpath)

/-- Only what a text can contain is read as a statement. -/
theorem yields_stmt (depth : Nat) : (stmt depth).Yields (·.isSourced = true) := by
  have hexpr := yields_expr depth
  unfold stmt
  refine Yields.bind (P := (·.isSourced = true)) (yields_spaced ?_) fun stmt hstmt =>
    yields_bind fun _ => yields_pure hstmt
  refine Yields.orElse (yields_bind fun _ => hexpr.commit.bind fun _ h => yields_pure h) ?_
  refine Yields.orElse ?_ (hexpr.bind fun _ h => yields_pure h)
  refine (hexpr.filter isAssignable).bind fun target htarget => yields_bind fun _ => ?_
  refine hexpr.commit.bind fun value hvalue => yields_pure ?_
  simp [Stmt.isSourced, htarget, hvalue]

/-- Only what a text can contain is read as a block. -/
theorem yields_block (depth : Nat) :
    (block depth).Yields fun body => body.all (·.isSourced) = true := by
  refine yields_bind fun _ => (yields_stmt depth).many.bind fun body hbody => ?_
  exact yields_bind fun _ => yields_pure (List.all_eq_true.mpr hbody)

/-- Only what a text can contain is read as a getter. -/
theorem yields_getter (depth : Nat) : (getter depth).Yields (·.isSourced = true) := by
  refine yields_bind fun _ => yields_bind fun _ => ?_
  refine Yields.bind (Yields.within _ (Yields.commit (Yields.orElse ?_ (yields_block depth))))
    fun body hbody => yields_pure hbody
  refine yields_bind fun _ => (yields_expr depth).bind fun value hvalue => yields_pure ?_
  simpa [Stmt.isSourced] using hvalue

/-- Only what a text can contain is read as a setter. -/
theorem yields_setter (depth : Nat) : (setter depth).Yields (·.isSourced = true) := by
  refine yields_bind fun _ => yields_bind fun param => ?_
  exact ((yields_block depth).commit.within _).bind fun body hbody => yields_pure hbody

/-- Only what a text can contain is read as a property, and as its initializer. -/
theorem yields_property (depth : Nat) : (property depth).Yields fun p =>
    p.isSourced = true ∧ ∀ e ∈ p.initializer, e.isSourced = true := by
  unfold property
  refine yields_bind fun mutable => ?_
  refine (Yields.within _ (yields_spaced yields_identifier).commit).bind fun name hname => ?_
  refine yields_bind fun type => ?_
  refine Yields.bind (Yields.optional (yields_bind fun _ => (yields_expr depth).commit))
    fun initializer hinitializer => ?_
  refine (yields_getter depth).optional.bind fun getter hgetter => ?_
  refine (yields_setter depth).optional.bind fun setter hsetter => yields_pure ⟨?_, hinitializer⟩
  rw [Property.isSourced, Bool.and_eq_true, Bool.and_eq_true, bne_iff_ne]
  exact ⟨⟨hname, by cases getter <;> simp_all⟩, by cases setter <;> simp_all⟩

/-- A class that is read has nothing but what a text can declare, its initializers included. -/
theorem yields_classDecl (depth : Nat) : (classDecl depth).Yields fun c =>
    c.Sourced ∧ ∀ p ∈ c.properties, ∀ e ∈ p.initializer, e.isSourced = true := by
  unfold classDecl
  refine yields_bind fun annotations => yields_bind fun _ => yields_bind fun name =>
    yields_bind fun supertypes => ?_
  refine Yields.bind (P := fun properties => ∀ p ∈ properties,
      p.isSourced = true ∧ ∀ e ∈ p.initializer, e.isSourced = true)
    (Yields.within _ (Yields.commit ?_)) fun properties hproperties =>
      yields_pure ⟨⟨rfl, fun p hp => (hproperties p hp).1⟩, fun p hp => (hproperties p hp).2⟩
  refine yields_bind fun _ => (yields_property depth).many.bind fun properties hproperties => ?_
  exact yields_bind fun _ => yields_pure hproperties

/-- A module that is read has only classes that a text can declare. -/
theorem yields_module (depth : Nat) : (module depth).Yields fun m => ∀ c ∈ m.classes,
    c.Sourced ∧ ∀ p ∈ c.properties, ∀ e ∈ p.initializer, e.isSourced = true := by
  refine (yields_classDecl depth).many.bind fun classes hclasses => ?_
  exact yields_bind fun _ => yields_pure hclasses

/-- A text that is a module declares only what a text can declare. -/
theorem yields_parseModule {source : String} {m : Module} (h : parseModule source = .ok m) :
    ∀ c ∈ m.classes, c.Sourced ∧ ∀ p ∈ c.properties, ∀ e ∈ p.initializer, e.isSourced = true := by
  unfold parseModule readWhole at h
  dsimp only at h
  split at h
  · next value rest hdone =>
    cases h
    exact yields_module _ _ _ _ hdone
  · cases h
  · cases h

/-- The classes that a text declares have nothing but what a text can declare. -/
theorem sourced_of_parseModule {source : String} {m : Module}
    (h : parseModule source = .ok m) : ∀ c ∈ m.classes, c.Sourced :=
  fun c hc => (yields_parseModule h c hc).1

/-- The initializers of properties are expressions that a text can contain. -/
theorem sourced_initializer {source : String} {m : Module} (h : parseModule source = .ok m)
    {c : ClassDecl} (hc : c ∈ m.classes) {p : Property} (hp : p ∈ c.properties) :
    ∀ e ∈ p.initializer, e.isSourced = true :=
  (yields_parseModule h c hc).2 p hp

end VersionedObjects.Grammar
