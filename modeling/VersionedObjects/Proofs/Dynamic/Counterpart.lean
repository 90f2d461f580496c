import VersionedObjects.Proofs.Dynamic.Constants
import VersionedObjects.Proofs.Framing.Host
import VersionedObjects.Proofs.Grammar.Sourced

/-!
# Framed and plain classes

A loaded class that may be framed, beside the plain class that it was made from: they have the
same properties, and each framed property has a slot of the record where the plain class has a
stored value.
-/

namespace VersionedObjects.Dynamic

open Declaration
open Framing

/-! ## Slots -/

namespace Slots

/-- Storing into a slot changes that slot and no other. -/
theorem slot_store (s : Slots) (i j : Nat) (value : Value) :
    (s.store i value).slot j = if j = i then value else s.slot j := by
  have hlength : i < (s ++ List.replicate (i + 1 - s.length) Value.null).length := by
    rw [List.length_append, List.length_replicate]
    omega
  unfold slot store
  by_cases hj : j = i
  · subst hj
    rw [if_pos rfl, List.getElem?_set_self hlength, Option.getD_some]
  · rw [if_neg hj, List.getElem?_set_ne (Ne.symm hj), List.getElem?_append]
    split
    · rfl
    · next hge =>
      rw [List.getElem?_eq_none (Nat.le_of_not_lt hge), List.getElem?_replicate]
      split <;> rfl

end Slots

/-! ## Layouts -/

/-- The layout of a record: the types of framed properties by name. -/
def layoutOf (ps : List Property) : Association TypeExpr :=
  ps.map fun p => (p.name, p.type)

/-- A name has no slot in the layout exactly when no property of the layout has it. -/
theorem position?_layoutOf_eq_none_iff {ps : List Property} {name : String} :
    (layoutOf ps).position? name = none ↔ name ∉ ps.map (·.name) := by
  rw [layoutOf, Association.position?, List.findIdx?_eq_none_iff]
  simp

/-- A slot belongs to the property of its name. -/
theorem name_of_position? {ps : List Property} {name : String} {k : Nat}
    (h : (layoutOf ps).position? name = some k) : (ps[k]?.map (·.name)) = some name := by
  obtain ⟨hlt, hname, -⟩ := List.findIdx?_eq_some_iff_getElem.mp h
  have hk : k < ps.length := by simpa [layoutOf] using hlt
  rw [List.getElem?_eq_getElem hk]
  simpa [layoutOf] using hname

/-- Two names do not share a slot. -/
theorem position?_injective {ps : List Property} {name other : String} {k : Nat}
    (h : (layoutOf ps).position? name = some k) (h' : (layoutOf ps).position? other = some k) :
    name = other :=
  Option.some.inj ((name_of_position? h).symm.trans (name_of_position? h'))

/-! ## Accessors -/

mutual

/-- To replace `field` by itself changes nothing. -/
theorem redirect_backing : (e : Expr) → redirect .backing e = e
  | .backing | .literal _ | .this | .name _ | .newRecord _ => rfl
  | .list items => by rw [redirect, redirectAll_backing items]
  | .member target _ => by rw [redirect, redirect_backing target]
  | .readable chain owner => by rw [redirect, redirect_backing chain, redirect_backing owner]
  | .writable chain owner => by rw [redirect, redirect_backing chain, redirect_backing owner]
  | .cast e _ => by rw [redirect, redirect_backing e]
  | .newChain e => by rw [redirect, redirect_backing e]
  | .firstRecord e => by rw [redirect, redirect_backing e]
  | .prependRecord chain record => by
    rw [redirect, redirect_backing chain, redirect_backing record]

/-- To replace `field` by itself changes no expression of a list. -/
theorem redirectAll_backing : (items : List Expr) → redirectAll .backing items = items
  | [] => rfl
  | item :: rest => by rw [redirectAll, redirect_backing item, redirectAll_backing rest]

end

/-- Redirecting to the backing field itself changes nothing. -/
theorem redirectStmt_backing (stmt : Stmt) : redirectStmt .backing .backing stmt = stmt := by
  cases stmt with
  | assign target value => cases target <;> simp [redirectStmt, redirect_backing]
  | «return» value => rw [redirectStmt, redirect_backing]
  | expr value => rw [redirectStmt, redirect_backing]
  | notifyCreated => rfl

/-- The property has the accessors of another, with `field` replaced. -/
structure RedirectedBy (read write : Expr) (q p : Property) : Prop where
  name : q.name = p.name
  type : q.type = p.type
  mutable : q.mutable = p.mutable
  getter : (q.getter.getD defaultGetter).body =
    (p.getter.getD defaultGetter).body.map (redirectStmt read write)
  setter : p.mutable = true → (q.setter.getD defaultSetter).body =
    (p.setter.getD defaultSetter).body.map (redirectStmt read write)
  param : p.mutable = true → (q.setter.getD defaultSetter).param =
    (p.setter.getD defaultSetter).param

/-- Every property is its own redirection to the backing field. -/
theorem redirectedBy_self (p : Property) : RedirectedBy .backing .backing p p := by
  have hmap (body : List Stmt) : body.map (redirectStmt .backing .backing) = body := by
    conv_rhs => rw [← List.map_id body]
    exact List.map_congr_left fun stmt _ => redirectStmt_backing stmt
  exact ⟨rfl, rfl, rfl, (hmap _).symm, fun _ => (hmap _).symm, fun _ => rfl⟩

/-- Accessors that a property does not give go through records like those it gives. -/
theorem redirectedBy_redirectProperty (recordType : TypeExpr) (p : Property) :
    RedirectedBy (readableField recordType p.name) (writableField recordType p.name)
      (Rule.redirectProperty recordType (Rule.withoutInitializer p)) p := by
  obtain ⟨name, type, mutable, initializer, getter, setter⟩ := p
  refine ⟨rfl, rfl, rfl, ?_, fun hmutable => ?_, fun hmutable => ?_⟩
  · cases getter <;> rfl
  · cases hmutable
    cases setter <;> rfl
  · cases hmutable
    cases setter <;> rfl

/-- The accessors of a property, given or not, are such that a text can contain them. -/
theorem isSourced_accessors {p : Property} (h : p.isSourced = true) :
    p.name ≠ recordField ∧ (p.getter.getD defaultGetter).body.all (·.isSourced) = true ∧
      (p.setter.getD defaultSetter).body.all (·.isSourced) = true := by
  rw [Property.isSourced, Bool.and_eq_true, Bool.and_eq_true, bne_iff_ne] at h
  obtain ⟨⟨hname, hgetter⟩, hsetter⟩ := h
  refine ⟨hname, ?_, ?_⟩
  · cases hg : p.getter with
    | none => rfl
    | some getter => simpa [hg, Accessor.isSourced] using hgetter
  · cases hs : p.setter with
    | none => rfl
    | some setter => simpa [hs, Accessor.isSourced] using hsetter

/-! ## Counterparts -/

/-- A loaded class with certain properties in records, and the plain class in place of which it
stands. -/
structure Counterpart (c plain : LoadedClass) (recordType : TypeExpr) (ps : List Property) :
    Prop where
  layout : c.layout = layoutOf ps
  isFramed : c.isFramed = false → ps = []
  properties : c.decl.properties = plain.decl.properties.map (hostProperty recordType ps)
  superclass : c.decl.superclass? = plain.decl.superclass?
  constructors : c.decl.constructors = []
  hidden : ∀ field ∈ c.decl.fields, field.isHidden = true
  initializers : c.decl.initializers = if c.isFramed then [chainBlock recordType ps] else []
  framable : Framable plain.decl ps
  plain_sourced : plain.decl.Sourced
  plain_distinct : DistinctProperties plain.decl
  plain_constant : ∀ p ∈ plain.decl.properties, ∀ e ∈ p.initializer, isConstant e = true
  plain_layout : plain.layout = []
  plain_record : plain.record = none

namespace Counterpart

variable {c plain : LoadedClass} {recordType : TypeExpr} {ps : List Property}

/-- A property of the framed class is that of the plain class as the framing has rewritten it. -/
theorem property? (h : Counterpart c plain recordType ps) (name : String) :
    c.decl.property? name = (plain.decl.property? name).map (hostProperty recordType ps) := by
  rw [ClassDecl.property?, h.properties]
  exact find?_map_property (hostProperty_name recordType ps) _ name

/-- The plain class has no slots. -/
theorem slot?_plain (h : Counterpart c plain recordType ps) (name : String) :
    plain.slot? name = none := by
  rw [LoadedClass.slot?, h.plain_layout]
  rfl

/-- A property without a slot is the same in both classes. -/
theorem hostProperty_of_slot?_none (h : Counterpart c plain recordType ps) {p : Property}
    (hslot : c.slot? p.name = none) : hostProperty recordType ps p = p := by
  rw [LoadedClass.slot?, h.layout, position?_layoutOf_eq_none_iff] at hslot
  rw [hostProperty, Rule.onNames, if_neg (by simpa using hslot)]

/-- The accessors of a property with a slot go through records. -/
theorem hostProperty_of_slot? (h : Counterpart c plain recordType ps) {p : Property} {k : Nat}
    (hslot : c.slot? p.name = some k) :
    hostProperty recordType ps p =
      Rule.redirectProperty recordType (Rule.withoutInitializer p) := by
  have hmem : p.name ∈ ps.map (·.name) := by
    by_contra hnot
    rw [← position?_layoutOf_eq_none_iff, ← h.layout] at hnot
    rw [LoadedClass.slot?, hnot] at hslot
    cases hslot
  rw [hostProperty, Rule.onNames, if_pos (by simpa using hmem)]
  rfl

/-- No two names share a slot. -/
theorem slot?_injective (h : Counterpart c plain recordType ps) {name other : String} {k : Nat}
    (hname : c.slot? name = some k) (hother : c.slot? other = some k) : name = other := by
  rw [LoadedClass.slot?, h.layout] at hname hother
  exact position?_injective hname hother

/-- Only framed classes have slots. -/
theorem isFramed_of_slot? (h : Counterpart c plain recordType ps) {name : String} {k : Nat}
    (hslot : c.slot? name = some k) : c.isFramed = true := by
  cases hframed : c.isFramed with
  | true => rfl
  | false =>
    rw [LoadedClass.slot?, h.layout, h.isFramed hframed] at hslot
    cases hslot

end Counterpart

end VersionedObjects.Dynamic
