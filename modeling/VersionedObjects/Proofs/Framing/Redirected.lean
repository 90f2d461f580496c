import Mathlib.Data.List.Forall2
import VersionedObjects.Proofs.Framing.Host

/-!
# Redirected accessors

A redirected expression has a read of the record in place of every `field`, however deep it
stands, and is otherwise what it was; a redirected statement assigns the record where it assigned
`field`. Nothing of the stored value is left in the accessors of a redirected property.
-/

namespace VersionedObjects.Framing

open Declaration

/-! ## What is replaced -/

/-- One expression has a read in place of every `field` of the other and is the same elsewhere. -/
inductive Replaces (read : Expr) : Expr → Expr → Prop where
  | backing : Replaces read .backing read
  | literal (value : Literal) : Replaces read (.literal value) (.literal value)
  | this : Replaces read .this .this
  | name (name : String) : Replaces read (.name name) (.name name)
  | newRecord (type : TypeExpr) : Replaces read (.newRecord type) (.newRecord type)
  | list {items items' : List Expr} :
      List.Forall₂ (Replaces read) items items' → Replaces read (.list items) (.list items')
  | member {target target' : Expr} (name : String) :
      Replaces read target target' → Replaces read (.member target name) (.member target' name)
  | readable {chain chain' owner owner' : Expr} : Replaces read chain chain' →
      Replaces read owner owner' → Replaces read (.readable chain owner) (.readable chain' owner')
  | writable {chain chain' owner owner' : Expr} : Replaces read chain chain' →
      Replaces read owner owner' → Replaces read (.writable chain owner) (.writable chain' owner')
  | cast {expr expr' : Expr} (type : TypeExpr) :
      Replaces read expr expr' → Replaces read (.cast expr type) (.cast expr' type)
  | newChain {inner inner' : Expr} :
      Replaces read inner inner' → Replaces read (.newChain inner) (.newChain inner')
  | firstRecord {inner inner' : Expr} :
      Replaces read inner inner' → Replaces read (.firstRecord inner) (.firstRecord inner')
  | prependRecord {chain chain' record record' : Expr} : Replaces read chain chain' →
      Replaces read record record' →
      Replaces read (.prependRecord chain record) (.prependRecord chain' record')

/-- One statement assigns a record where the other assigns `field` itself, and has a read in place
of every other `field`. -/
inductive ReplacesIn (read write : Expr) : Stmt → Stmt → Prop where
  | store {value value' : Expr} : Replaces read value value' →
      ReplacesIn read write (.assign .backing value) (.assign write value')
  | assign {target target' value value' : Expr} : target ≠ .backing →
      Replaces read target target' → Replaces read value value' →
      ReplacesIn read write (.assign target value) (.assign target' value')
  | return {value value' : Expr} : Replaces read value value' →
      ReplacesIn read write (.return value) (.return value')
  | expr {value value' : Expr} : Replaces read value value' →
      ReplacesIn read write (.expr value) (.expr value')
  | notifyCreated : ReplacesIn read write .notifyCreated .notifyCreated

mutual

/-- Redirecting an expression replaces every mention of the backing field in it, at any depth. -/
theorem replaces_redirect (read : Expr) : (e : Expr) → Replaces read e (redirect read e)
  | .backing => .backing
  | .literal value => .literal value
  | .this => .this
  | .name name => .name name
  | .newRecord type => .newRecord type
  | .list items => .list (replaces_redirectAll read items)
  | .member target name => .member name (replaces_redirect read target)
  | .readable chain owner => .readable (replaces_redirect read chain) (replaces_redirect read owner)
  | .writable chain owner => .writable (replaces_redirect read chain) (replaces_redirect read owner)
  | .cast expr type => .cast type (replaces_redirect read expr)
  | .newChain inner => .newChain (replaces_redirect read inner)
  | .firstRecord inner => .firstRecord (replaces_redirect read inner)
  | .prependRecord chain record =>
    .prependRecord (replaces_redirect read chain) (replaces_redirect read record)

/-- The same for the items of a list literal or the arguments of a call, one by one. -/
theorem replaces_redirectAll (read : Expr) :
    (items : List Expr) → List.Forall₂ (Replaces read) items (redirectAll read items)
  | [] => .nil
  | item :: rest => .cons (replaces_redirect read item) (replaces_redirectAll read rest)

end

/-- A redirected statement reads and assigns through the expressions it was given. -/
theorem replacesIn_redirectStmt (read write : Expr) (stmt : Stmt) :
    ReplacesIn read write stmt (redirectStmt read write stmt) := by
  have hexpr := replaces_redirect read
  cases stmt with
  | «return» value => exact .return (hexpr value)
  | expr value => exact .expr (hexpr value)
  | notifyCreated => exact .notifyCreated
  | assign target value =>
    cases target with
    | backing => exact .store (hexpr value)
    | _ => exact .assign nofun (hexpr _) (hexpr value)

/-- A redirected body replaces the backing field in each of its statements, in order. -/
theorem replacesIn_redirectStmts (read write : Expr) (body : List Stmt) :
    List.Forall₂ (ReplacesIn read write) body (body.map (redirectStmt read write)) := by
  rw [List.forall₂_map_right_iff]
  exact List.forall₂_same.mpr fun stmt _ => replacesIn_redirectStmt read write stmt

/-! ## What is left -/

mutual

/-- No mention of the backing field is left after redirection to an expression that has none itself.
-/
theorem usesBacking_redirect {read : Expr} (hread : read.usesBacking = false) :
    (e : Expr) → (redirect read e).usesBacking = false
  | .backing => hread
  | .literal _ | .this | .name _ | .newRecord _ => rfl
  | .list items => usesBacking_redirectAll hread items
  | .member target _ => usesBacking_redirect hread target
  | .cast inner _ => usesBacking_redirect hread inner
  | .newChain inner => usesBacking_redirect hread inner
  | .firstRecord inner => usesBacking_redirect hread inner
  | .readable chain owner | .writable chain owner => Bool.or_eq_false_iff.mpr
      ⟨usesBacking_redirect hread chain, usesBacking_redirect hread owner⟩
  | .prependRecord chain record => Bool.or_eq_false_iff.mpr
      ⟨usesBacking_redirect hread chain, usesBacking_redirect hread record⟩

/-- No item of a redirected list mentions the backing field. -/
theorem usesBacking_redirectAll {read : Expr} (hread : read.usesBacking = false) :
    (items : List Expr) → Expr.usesBackingList (redirectAll read items) = false
  | [] => rfl
  | item :: rest => Bool.or_eq_false_iff.mpr
      ⟨usesBacking_redirect hread item, usesBacking_redirectAll hread rest⟩

end

/-- A redirected statement neither reads nor assigns the backing field. -/
theorem usesBacking_redirectStmt {read write : Expr} (hread : read.usesBacking = false)
    (hwrite : write.usesBacking = false) (stmt : Stmt) :
    (redirectStmt read write stmt).usesBacking = false := by
  have hexpr := usesBacking_redirect hread
  cases stmt with
  | «return» value => exact hexpr value
  | expr value => exact hexpr value
  | notifyCreated => rfl
  | assign target value =>
    have hboth := Bool.or_eq_false_iff.mpr ⟨hexpr target, hexpr value⟩
    cases target with
    | backing => exact Bool.or_eq_false_iff.mpr ⟨hwrite, hexpr value⟩
    | _ => exact hboth

/-- A body redirected to the accesses of a record mentions the backing field nowhere. -/
theorem usesBacking_redirectStmts (recordType : TypeExpr) (name : String) (body : List Stmt) :
    (body.map (redirectStmt (readableField recordType name) (writableField recordType name))).any
      (·.usesBacking) = false := by
  rw [List.any_eq_false]
  intro stmt hstmt
  obtain ⟨old, -, rfl⟩ := List.mem_map.mp hstmt
  rw [Bool.not_eq_true]
  exact usesBacking_redirectStmt rfl rfl old

/-- The stored value is out of reach of a property with a getter whose accessors do without it. -/
theorem Rule.reachesBacking_eq_false_iff {p : Property} :
    reachesBacking p = false ↔ p.getter.isSome = true ∧
      (∀ getter ∈ p.getter, getter.usesBacking = false) ∧
      ∀ setter ∈ p.setter, setter.usesBacking = false := by
  unfold reachesBacking
  cases p.getter <;> cases p.setter <;> simp

/-- A redirected property goes through records, but for a setter that it has although it is not
mutable. -/
theorem Rule.reachesBacking_redirectProperty (recordType : TypeExpr) {p : Property}
    (hsetter : p.mutable = false → p.setter.any (·.usesBacking) = false) :
    reachesBacking (redirectProperty recordType p) = false := by
  have hbody := usesBacking_redirectStmts recordType p.name
  obtain ⟨name, type, mutable, initializer, getter, setter⟩ := p
  have hgetter : (redirectProperty recordType
      ⟨name, type, mutable, initializer, getter, setter⟩).getter.any (·.usesBacking) = false := by
    cases getter with
    | none => rfl
    | some getter => exact hbody getter.body
  have hkept : (redirectProperty recordType
      ⟨name, type, mutable, initializer, getter, setter⟩).setter.any (·.usesBacking) = false := by
    cases mutable with
    | false => exact hsetter rfl
    | true =>
      cases setter with
      | none => rfl
      | some setter => exact hbody setter.body
  rw [reachesBacking, hgetter, hkept]
  rfl

end VersionedObjects.Framing
