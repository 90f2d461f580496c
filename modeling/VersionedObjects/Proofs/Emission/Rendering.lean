import VersionedObjects.Emission.Class
import VersionedObjects.Grammar.Declaration
import VersionedObjects.Proofs.Computations

/-!
# What can be rendered

Every expression has code unless it uses `field` outside the accessors of a property, and every
statement does whose expressions do, unless it assigns something that has no place. From this it
follows for the parts of a class what they need in order to have code.
-/

namespace VersionedObjects.Declaration

/-- The statement does not assign, or assigns `field`, a name or a member. -/
def Stmt.hasPlace : Stmt → Bool
  | .assign target _ => Grammar.isAssignable target
  | _ => true

/-- The accessors of the property assign only what has a place. -/
structure Property.HasPlaces (p : Property) : Prop where
  getter : ∀ getter ∈ p.getter, ∀ stmt ∈ getter.body, stmt.hasPlace = true
  setter : ∀ setter ∈ p.setter, ∀ stmt ∈ setter.body, stmt.hasPlace = true

end VersionedObjects.Declaration

namespace VersionedObjects.Emission

open Declaration

/-! ## Expressions -/

mutual

/-- Every expression has code unless it uses `field` outside an accessor. -/
theorem succeeds_exprText (s : Scope) :
    (e : Expr) → (e.usesBacking = true → s.property.isSome = true) → Succeeds (exprText s e)
  | .literal value, _ => succeeds_ok _
  | .this, _ => succeeds_ok _
  | .name _, _ => succeeds_ok _
  | .newRecord _, _ => succeeds_ok _
  | .backing, h => by
    obtain ⟨property, hproperty⟩ := Option.isSome_iff_exists.mp (h rfl)
    rw [exprText, Scope.backingPlace, hproperty]
    exact succeeds_ok _
  | .list items, h => (succeeds_valueTexts s items h).map _
  | .member target _, h =>
    (succeeds_exprText s target h).bind fun _ =>
      succeeds_ite (succeeds_ok _) (succeeds_ite (succeeds_ok _) (succeeds_ok _))
  | .cast expr _, h => succeeds_exprText s expr h
  | .newChain inner, h => (succeeds_exprText s inner h).map _
  | .firstRecord inner, h => (succeeds_exprText s inner h).map _
  | .readable chain owner, h =>
    (succeeds_exprText s chain fun hc => h (by simp [Expr.usesBacking, hc])).bind fun _ =>
      (succeeds_exprText s owner fun ho => h (by simp [Expr.usesBacking, ho])).map _
  | .writable chain owner, h =>
    (succeeds_exprText s chain fun hc => h (by simp [Expr.usesBacking, hc])).bind fun _ =>
      (succeeds_exprText s owner fun ho => h (by simp [Expr.usesBacking, ho])).map _
  | .prependRecord chain record, h =>
    (succeeds_exprText s chain fun hc => h (by simp [Expr.usesBacking, hc])).bind fun _ =>
      (succeeds_exprText s record fun hr => h (by simp [Expr.usesBacking, hr])).map _

/-- The items of a list are emitted if their storage is that of a property. -/
theorem succeeds_valueTexts (s : Scope) :
    (items : List Expr) → (Expr.usesBackingList items = true → s.property.isSome = true) →
      Succeeds (valueTexts s items)
  | [], _ => succeeds_ok _
  | item :: rest, h =>
    (succeeds_exprText s item fun hi => h (by simp [Expr.usesBackingList, hi])).bind fun _ =>
      (succeeds_valueTexts s rest fun hr => h (by simp [Expr.usesBackingList, hr])).map _

end

/-- An expression is emitted if its storage is that of a property. -/
theorem succeeds_value {s : Scope} {e : Expr}
    (h : e.usesBacking = true → s.property.isSome = true) (expected : Option TypeExpr) :
    Succeeds (value s e expected) :=
  (succeeds_exprText s e h).map _

/-! ## Statements -/

/-- A place is emitted if its storage is that of a property. -/
theorem succeeds_placeText {s : Scope} {target : Expr}
    (hplace : Grammar.isAssignable target = true)
    (h : target.usesBacking = true → s.property.isSome = true) :
    Succeeds (placeText s target) := by
  cases target with
  | backing => exact succeeds_exprText s .backing h
  | name id => exact succeeds_ok _
  | member owner id => exact (succeeds_exprText s owner h).map _
  | _ => cases hplace

/-- An assignment is emitted if it has a place and its storage is that of a property. -/
theorem succeeds_assignText {s : Scope} {target e : Expr}
    (hplace : Grammar.isAssignable target = true)
    (htarget : target.usesBacking = true → s.property.isSome = true)
    (he : e.usesBacking = true → s.property.isSome = true) :
    Succeeds (assignText s target e) := by
  have hplain : Succeeds (do
      let place ← placeText s target
      return place ++ " = " ++ (← value s e (placeType? s target)) ++ ";") :=
    (succeeds_placeText hplace htarget).bind fun _ => (succeeds_value he _).map _
  cases target with
  | member owner id =>
    refine succeeds_ite ?_ hplain
    exact (succeeds_exprText s owner htarget).bind fun _ => (succeeds_value he _).map _
  | _ => exact hplain

/-- Every statement has code unless it assigns what has no place or uses `field` outside an
accessor. -/
theorem succeeds_stmtText {s : Scope} {stmt : Stmt} (hplace : stmt.hasPlace = true)
    (h : stmt.usesBacking = true → s.property.isSome = true) (isLast : Bool) :
    Succeeds (stmtText s isLast stmt) := by
  cases stmt with
  | «return» e => exact (succeeds_value h none).map _
  | expr e => exact (succeeds_exprText s e h).map _
  | notifyCreated => exact succeeds_ok _
  | assign target e =>
    exact succeeds_assignText hplace (fun ht => h (by simp [Stmt.usesBacking, ht]))
      fun he => h (by simp [Stmt.usesBacking, he])

section

variable {s : Scope} {stmts : List Stmt}

/-- By induction on the statements. -/
theorem succeeds_bodyLines (hplace : ∀ stmt ∈ stmts, stmt.hasPlace = true)
    (h : ∀ stmt ∈ stmts, stmt.usesBacking = true → s.property.isSome = true) :
    Succeeds (bodyLines s stmts) := by
  induction stmts with
  | nil => exact succeeds_ok _
  | cons stmt rest ih =>
    rw [List.forall_mem_cons] at hplace h
    exact (succeeds_stmtText hplace.1 h.1 _).bind fun _ => (ih hplace.2 h.2).map _

/-- Statements are emitted if assignments have places and their storage is that of a property. -/
theorem succeeds_stmtLines (hplace : ∀ stmt ∈ stmts, stmt.hasPlace = true)
    (h : ∀ stmt ∈ stmts, stmt.usesBacking = true → s.property.isSome = true) :
    Succeeds (stmtLines s stmts) :=
  succeeds_mapM fun stmt hstmt => (succeeds_stmtText (hplace stmt hstmt) (h stmt hstmt) false).map _

end

/-! ## Parts of classes -/

/-- In accessors `field` may be used. -/
theorem succeeds_accessors (s : Scope) (setterReceiver : String) {p : Property}
    (hp : p.HasPlaces) : Succeeds (accessors s setterReceiver p) := by
  have hgetter : Succeeds (bodyLines { s with property := some p.name }
      (p.getter.getD { body := [.return .backing] }).body) := by
    refine succeeds_bodyLines ?_ fun _ _ _ => rfl
    cases hg : p.getter with
    | none => exact List.forall_mem_singleton.mpr rfl
    | some getter => exact hp.getter getter hg
  have hsetter : Succeeds (bodyLines { s with property := some p.name }
      (p.setter.getD
        { param := some "value", body := [.assign .backing (.name "value")] }).body) := by
    refine succeeds_bodyLines ?_ fun _ _ _ => rfl
    cases hs : p.setter with
    | none => exact List.forall_mem_singleton.mpr rfl
    | some setter => exact hp.setter setter hs
  exact hgetter.bind fun _ => succeeds_ite (succeeds_ok _) (hsetter.map _)

/-- What the emission of a class needs: every accessor assigns what has a place, initializers do
without `field`, objects are constructed without arguments, and methods are those of interfaces. -/
structure Renderable (c : ClassDecl) : Prop where
  places : ∀ p ∈ c.properties, p.HasPlaces
  initializers : ∀ p ∈ c.properties, ∀ e ∈ p.initializer, e.usesBacking = false
  constructors : c.constructors = []
  methods : ∀ method ∈ c.methods, method.implements.isSome = true

section

variable {c : ClassDecl} {s : Scope}

/-- The accessors of a renderable class are rendered. -/
theorem succeeds_members (hc : Renderable c) (setterReceiver : String) :
    Succeeds (members c s setterReceiver) := by
  have hnone : c.methods.filter (·.implements.isNone) = [] :=
    List.filter_eq_nil_iff.mpr fun method hmethod => by
      simpa using Option.isSome_iff_ne_none.mp (hc.methods method hmethod)
  have hmethods : Succeeds ((c.methods.filter (·.implements.isNone)).mapM (methodFunction s)) := by
    rw [hnone]
    exact succeeds_ok []
  exact (succeeds_mapM fun p hp => succeeds_accessors s setterReceiver (hc.places p hp)).bind
    fun _ => hmethods.map _

/-- The lines that store the constructor's parameters are rendered. -/
theorem succeeds_storedLines (hc : Renderable c) (stored : List Parameter) :
    Succeeds (storedLines s c stored) := by
  refine succeeds_mapM fun member _ => ?_
  dsimp only
  split
  · next e he =>
    obtain ⟨p, hp, he⟩ := Option.bind_eq_some_iff.mp he
    have hfree := hc.initializers p (List.mem_of_find?_eq_some hp) e he
    exact (succeeds_value (fun huses => absurd (hfree.symm.trans huses) (by decide)) _).map _
  · exact succeeds_ok _

/-- A constructor without a superclass call passes nothing on. -/
theorem succeeds_superArgs : Succeeds (superArgs s {}) :=
  succeeds_ok _

end

end VersionedObjects.Emission
