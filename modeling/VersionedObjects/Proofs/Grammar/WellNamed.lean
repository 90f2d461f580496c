import VersionedObjects.Proofs.Grammar.Literals
import VersionedObjects.Proofs.Grammar.Sourced

/-!
# The names in a text

All names that a text declares or uses are identifiers. A name in an expression is none of the
words that are expressions themselves, and a statement that starts with the word `return` is a
return, so no other statement starts with that name.
-/

namespace VersionedObjects.Declaration

open Framing (isIdentifier)

/-! ## Well named declarations -/

namespace TypeExpr

mutual

/-- The names in the type are identifiers. -/
def wellNamed : TypeExpr → Bool
  | mk name args _ => isIdentifier name && wellNamedList args

/-- The names in the types are identifiers. -/
def wellNamedList : List TypeExpr → Bool
  | [] => true
  | arg :: rest => arg.wellNamed && wellNamedList rest

end

/-- Arguments are well named if each is. -/
theorem wellNamedList_eq_all (args : List TypeExpr) :
    wellNamedList args = args.all wellNamed := by
  induction args with
  | nil => rfl
  | cons arg rest ih => simp [wellNamedList, ih]

end TypeExpr

namespace Expr

/-- Words that are expressions. -/
def words : List String :=
  ["true", "false", "null", "this", "field"]

mutual

/-- The names in the expression are identifiers and no other words, and none of its parts is an
operation on records. -/
def wellNamed : Expr → Bool
  | literal _ | this | backing => true
  | name id => isIdentifier id && !words.contains id
  | list items => wellNamedList items
  | member target id => target.wellNamed && isIdentifier id
  | readable .. | writable .. | cast .. | newRecord _ | newChain _ | firstRecord _
  | prependRecord .. => false

/-- The names in the expressions are identifiers and no other words. -/
def wellNamedList : List Expr → Bool
  | [] => true
  | item :: rest => item.wellNamed && wellNamedList rest

end

/-- Items are well named if each is. -/
theorem wellNamedList_eq_all (items : List Expr) :
    wellNamedList items = items.all wellNamed := by
  induction items with
  | nil => rfl
  | cons item rest ih => simp [wellNamedList, ih]

/-- What a path of members starts from. -/
def head : Expr → Expr
  | member target _ => target.head
  | e => e

/-- The members on the path, the last one last. -/
def path : Expr → List String
  | member target id => target.path ++ [id]
  | _ => []

/-- An expression is its head with the names that follow. -/
theorem foldl_member_head_path (e : Expr) : e.path.foldl member e.head = e := by
  fun_induction head e with
  | case1 target id ih => rw [path, List.foldl_append, ih]; rfl
  | case2 e he => cases e <;> first | rfl | exact absurd rfl (he _ _)

/-- Names that follow do not change the head. -/
theorem head_foldl_member (head : Expr) (path : List String) :
    (path.foldl member head).head = head.head := by
  induction path generalizing head with
  | nil => rfl
  | cons id path ih => exact ih _

/-- A well-named head with identifiers that follow is well named. -/
theorem wellNamed_foldl_member {head : Expr} (hhead : head.wellNamed = true) {path : List String}
    (hpath : ∀ id ∈ path, isIdentifier id = true) : (path.foldl member head).wellNamed = true := by
  induction path generalizing head with
  | nil => exact hhead
  | cons id path ih =>
    rw [List.forall_mem_cons] at hpath
    exact ih (by simp [wellNamed, hhead, hpath.1]) hpath.2

end Expr

/-- The names in the statement are identifiers, its target may change, and the name `return`
does not start it. -/
def Stmt.WellNamed : Stmt → Prop
  | .return value => value.wellNamed = true
  | .assign target value => target.wellNamed = true ∧ target.head ≠ .name "return" ∧
      Grammar.isAssignable target = true ∧ value.wellNamed = true
  | .expr value => value.wellNamed = true ∧ value.head ≠ .name "return"
  | .notifyCreated => False

/-- The names in the property are identifiers, and a setter has a parameter. -/
structure Property.WellNamed (p : Property) : Prop where
  name : isIdentifier p.name = true
  type : p.type.wellNamed = true
  initializer : ∀ value ∈ p.initializer, value.wellNamed = true
  getter : ∀ getter ∈ p.getter, getter.param = none ∧ ∀ stmt ∈ getter.body, stmt.WellNamed
  setter : ∀ setter ∈ p.setter, (∃ param, setter.param = some param ∧ isIdentifier param = true) ∧
    ∀ stmt ∈ setter.body, stmt.WellNamed

/-- The names in the class are identifiers. -/
structure ClassDecl.WellNamed (c : ClassDecl) : Prop where
  name : isIdentifier c.name = true
  annotations : ∀ mark ∈ c.annotations, isIdentifier mark = true
  supertypes : ∀ type ∈ c.supertypes, type.wellNamed = true
  properties : ∀ p ∈ c.properties, p.WellNamed

end VersionedObjects.Declaration

namespace VersionedObjects.Grammar

open Declaration
open Framing (isIdentifier)
open Reader

/-! ## What the grammar gives -/

/-- Where a keyword is missed it is not the word that comes first. -/
theorem takeWhile_ne_of_misses {word : String} {s : List Char} (h : (keyword word).Misses s) :
    s.takeWhile isIdentChar ≠ word.toList := by
  intro hword
  obtain ⟨fault, hmiss⟩ := h
  have hread := reads_keyword word _ (avoids_dropWhile isIdentChar s)
  rw [← hword, List.takeWhile_append_dropWhile, hmiss] at hread
  cases hread

/-- What is read as an identifier is one. -/
theorem yields_wellNamed_identifier : identifier.Yields (isIdentifier · = true) :=
  fun _ _ _ h => (identifier_eq_done h).1

/-- What is read as a type is well named. By induction on the depth. -/
theorem yields_wellNamed_type (depth : Nat) : (type depth).Yields (·.wellNamed = true) := by
  induction depth with
  | zero => exact yields_fail
  | succ depth ih =>
    unfold type
    refine (yields_spaced yields_wellNamed_identifier).bind fun name hname => ?_
    refine Yields.bind (Yields.optional (P := fun args => ∀ arg ∈ args, arg.wellNamed = true) ?_)
      fun args hargs => yields_bind fun nullable => yields_pure ?_
    · refine yields_bind fun _ => ih.sepBy₁.bind fun args hargs => yields_bind fun _ => ?_
      exact yields_pure hargs
    · rw [TypeExpr.wellNamed, hname, TypeExpr.wellNamedList_eq_all, Bool.true_and,
        List.all_eq_true]
      cases args with
      | none => nofun
      | some args => exact hargs args rfl

/-- Where no literal is read, the longest word is none of the literal words. -/
theorem misses_literal_words {s : List Char} (h : literal.Misses s) :
    ∀ word ∈ literalWords, (keyword word).Misses s := by
  unfold literal at h
  simp only [misses_orElse_iff] at h
  obtain ⟨-, -, -, htrue, hfalse, hnull⟩ := h
  simp only [literalWords, List.forall_mem_cons]
  exact ⟨misses_of_map htrue, misses_of_map hfalse, misses_of_map hnull, nofun⟩

/-- Reads what a path of members starts from. -/
def primary (depth : Nat) : Reader Expr :=
  orElse (do return .literal (← literal)) <|
  orElse (do
    char '['
    let items ← sepBy (symbol ',') (expr depth)
    commit (symbol ']')
    return .list items) <|
  orElse (do keyword "this"; return .this) <|
  orElse (do keyword "field"; return .backing)
    (do return .name (← identifier))

/-- How an expression is read: a head, and names that follow. -/
theorem expr_succ (depth : Nat) : expr (depth + 1) = (do
    let head ← spaced (primary depth)
    let path ← many pathStep
    return path.foldl .member head) := rfl

/-- What a path starts from is no member; a name is the longest word there. -/
theorem primary_eq_done {depth : Nat} (hexpr : (expr depth).Yields (·.wellNamed = true))
    {s rest : List Char} {head : Expr} (h : primary depth s = .done head rest) :
    head.wellNamed = true ∧
      ∀ name, head.head = .name name → s.takeWhile isIdentChar = name.toList := by
  obtain h | ⟨hliteral, h⟩ := orElse_eq_done h
  · obtain ⟨value, mid, -, hvalue⟩ := bind_eq_done_iff.mp h
    cases hvalue
    exact ⟨rfl, nofun⟩
  obtain h | ⟨-, h⟩ := orElse_eq_done h
  · obtain ⟨_, mid, -, hlist⟩ := bind_eq_done_iff.mp h
    obtain ⟨items, mid, hitems, hlist⟩ := bind_eq_done_iff.mp hlist
    obtain ⟨_, mid, -, hvalue⟩ := bind_eq_done_iff.mp hlist
    cases hvalue
    refine ⟨?_, nofun⟩
    rw [Expr.wellNamed, Expr.wellNamedList_eq_all, List.all_eq_true]
    exact hexpr.sepBy _ _ _ hitems
  obtain h | ⟨hthis, h⟩ := orElse_eq_done h
  · obtain ⟨_, mid, -, hvalue⟩ := bind_eq_done_iff.mp h
    cases hvalue
    exact ⟨rfl, nofun⟩
  obtain h | ⟨hfield, h⟩ := orElse_eq_done h
  · obtain ⟨_, mid, -, hvalue⟩ := bind_eq_done_iff.mp h
    cases hvalue
    exact ⟨rfl, nofun⟩
  obtain ⟨name, mid, hname, hvalue⟩ := bind_eq_done_iff.mp h
  cases hvalue
  obtain ⟨hident, hword⟩ := identifier_eq_done hname
  have hmissed : ∀ word ∈ Expr.words, (keyword word).Misses s := by
    have hwords := misses_literal_words (misses_of_map hliteral)
    simp only [literalWords, Expr.words, List.forall_mem_cons] at hwords ⊢
    exact ⟨hwords.1, hwords.2.1, hwords.2.2.1, misses_of_map hthis, misses_of_map hfield, nofun⟩
  have hother : name ∉ Expr.words := fun hmem =>
    takeWhile_ne_of_misses (hmissed name hmem) hword
  refine ⟨by simp [Expr.wellNamed, hident, hother], ?_⟩
  rintro _ ⟨⟩
  exact hword

/-- An expression that is read is well named, and a name at its head is the word that comes first.
-/
theorem expr_eq_done {depth : Nat} {s rest : List Char} {e : Expr}
    (h : expr depth s = .done e rest) : e.wellNamed = true ∧
      ∀ name, e.head = .name name → (skipBlanks s).takeWhile isIdentChar = name.toList := by
  induction depth generalizing s e rest with
  | zero => cases h
  | succ depth ih =>
    rw [expr_succ] at h
    obtain ⟨head, mid, hhead, h⟩ := bind_eq_done_iff.mp h
    obtain ⟨path, last, hpath, hvalue⟩ := bind_eq_done_iff.mp h
    cases hvalue
    have hstep : pathStep.Yields (isIdentifier · = true) :=
      yields_bind fun _ => yields_wellNamed_identifier
    obtain ⟨hnamed, hword⟩ := primary_eq_done (fun s e rest hdone => (ih hdone).1) hhead
    refine ⟨Expr.wellNamed_foldl_member hnamed (hstep.many _ _ _ hpath), ?_⟩
    rw [Expr.head_foldl_member]
    exact hword

/-- What is read as an expression is well named. -/
theorem yields_wellNamed_expr (depth : Nat) : (expr depth).Yields (·.wellNamed = true) :=
  fun _ _ _ h => (expr_eq_done h).1

/-- What is no return does not start with the name `return`. -/
theorem head_ne_return {depth : Nat} {s rest : List Char} {e : Expr}
    (hmiss : (keyword "return").Misses (skipBlanks s))
    (h : expr depth (skipBlanks s) = .done e rest) : e.head ≠ .name "return" := by
  intro hhead
  have hword := (expr_eq_done h).2 "return" hhead
  rw [skipBlanks_skipBlanks] at hword
  exact takeWhile_ne_of_misses hmiss hword

/-- What is read as a statement is well named. -/
theorem yields_wellNamed_stmt (depth : Nat) : (stmt depth).Yields Stmt.WellNamed := by
  unfold stmt
  refine Yields.bind (P := Stmt.WellNamed) (fun s stmt rest h => ?_) fun stmt hstmt =>
    yields_bind fun _ => yields_pure hstmt
  obtain h | ⟨hreturn, h⟩ := orElse_eq_done h
  · obtain ⟨_, mid, -, h⟩ := bind_eq_done_iff.mp h
    obtain ⟨value, last, hvalue, hstmt⟩ := bind_eq_done_iff.mp h
    cases hstmt
    exact (expr_eq_done (commit_eq_done_iff.mp hvalue)).1
  have hmiss : (keyword "return").Misses (skipBlanks s) := by
    obtain hmiss | ⟨_, mid, -, hvalue⟩ := misses_bind_cases hreturn
    · exact hmiss
    · exact absurd (misses_of_map hvalue) (not_misses_commit _ _)
  obtain h | ⟨-, h⟩ := orElse_eq_done h
  · obtain ⟨target, mid, htarget, h⟩ := bind_eq_done_iff.mp h
    obtain ⟨_, mid, -, h⟩ := bind_eq_done_iff.mp h
    obtain ⟨value, last, hvalue, hstmt⟩ := bind_eq_done_iff.mp h
    cases hstmt
    obtain ⟨hread, hassignable⟩ := filter_eq_done htarget
    exact ⟨(expr_eq_done hread).1, head_ne_return hmiss hread, hassignable,
      (expr_eq_done (commit_eq_done_iff.mp hvalue)).1⟩
  · obtain ⟨value, last, hvalue, hstmt⟩ := bind_eq_done_iff.mp h
    cases hstmt
    exact ⟨(expr_eq_done hvalue).1, head_ne_return hmiss hvalue⟩

/-- What is read as a block has only well-named statements. -/
theorem yields_wellNamed_block (depth : Nat) :
    (block depth).Yields fun body => ∀ stmt ∈ body, stmt.WellNamed := by
  refine yields_bind fun _ => (yields_wellNamed_stmt depth).many.bind fun body hbody => ?_
  exact yields_bind fun _ => yields_pure hbody

/-- What is read as a getter has no parameter and only well-named statements. -/
theorem yields_wellNamed_getter (depth : Nat) : (getter depth).Yields fun getter =>
    getter.param = none ∧ ∀ stmt ∈ getter.body, stmt.WellNamed := by
  refine yields_bind fun _ => yields_bind fun _ => ?_
  refine Yields.bind
    (Yields.within _ (Yields.commit (Yields.orElse ?_ (yields_wellNamed_block depth))))
    fun body hbody => yields_pure ⟨rfl, hbody⟩
  refine yields_bind fun _ => (yields_wellNamed_expr depth).bind fun value hvalue => yields_pure ?_
  exact List.forall_mem_singleton.mpr hvalue

/-- What is read as a setter has an identifier as its parameter and only well-named statements. -/
theorem yields_wellNamed_setter (depth : Nat) : (setter depth).Yields fun setter =>
    (∃ param, setter.param = some param ∧ isIdentifier param = true) ∧
      ∀ stmt ∈ setter.body, stmt.WellNamed := by
  refine yields_bind fun _ => Yields.bind (P := (isIdentifier · = true)) ?_ fun param hparam => ?_
  · refine Yields.commit (yields_bind fun _ => ?_)
    refine (yields_spaced yields_wellNamed_identifier).bind fun param hparam => ?_
    exact yields_bind fun _ => yields_pure hparam
  · exact ((yields_wellNamed_block depth).commit.within _).bind fun body hbody =>
      yields_pure ⟨⟨param, rfl, hparam⟩, hbody⟩

/-- What is read as a property is well named. -/
theorem yields_wellNamed_property (depth : Nat) :
    (property depth).Yields Property.WellNamed := by
  unfold property
  refine yields_bind fun mutable => ?_
  refine (Yields.within _ (yields_spaced yields_wellNamed_identifier).commit).bind
    fun name hname => ?_
  refine (Yields.within _ (Yields.commit (yields_bind fun _ => yields_wellNamed_type depth))).bind
    fun type htype => ?_
  refine Yields.bind (Yields.optional (yields_bind fun _ => (yields_wellNamed_expr depth).commit))
    fun initializer hinitializer => ?_
  refine (yields_wellNamed_getter depth).optional.bind fun getter hgetter => ?_
  refine (yields_wellNamed_setter depth).optional.bind fun setter hsetter => yields_pure ?_
  exact ⟨hname, htype, hinitializer, hgetter, hsetter⟩

/-- What is read as a class is well named. -/
theorem yields_wellNamed_classDecl (depth : Nat) :
    (classDecl depth).Yields ClassDecl.WellNamed := by
  unfold classDecl
  refine (Yields.many (yields_bind fun _ => yields_wellNamed_identifier)).bind
    fun annotations hannotations => yields_bind fun _ => ?_
  refine (Yields.within _ (yields_spaced yields_wellNamed_identifier).commit).bind
    fun name hname => ?_
  refine Yields.bind (Yields.optional
    (yields_bind fun _ => (yields_wellNamed_type depth).sepBy₁.commit))
    fun supertypes hsupertypes => ?_
  refine Yields.bind (P := fun properties => ∀ p ∈ properties, p.WellNamed)
    (Yields.within _ (Yields.commit ?_)) fun properties hproperties => yields_pure ?_
  · refine yields_bind fun _ => (yields_wellNamed_property depth).many.bind
      fun properties hproperties => ?_
    exact yields_bind fun _ => yields_pure hproperties
  · refine ⟨hname, hannotations, ?_, hproperties⟩
    cases supertypes with
    | none => nofun
    | some supertypes => exact hsupertypes supertypes rfl

/-- The names that a text declares and uses are identifiers. -/
theorem wellNamed_of_parseModule {source : String} {m : Module}
    (h : parseModule source = .ok m) : ∀ c ∈ m.classes, c.WellNamed := by
  have hmodule : ∀ depth, (module depth).Yields fun m => ∀ c ∈ m.classes, c.WellNamed :=
    fun depth => (yields_wellNamed_classDecl depth).many.bind fun classes hclasses =>
      yields_bind fun _ => yields_pure hclasses
  unfold parseModule readWhole at h
  dsimp only at h
  split at h
  · next value rest hdone =>
    cases h
    exact hmodule _ _ _ _ hdone
  · cases h
  · cases h

end VersionedObjects.Grammar
