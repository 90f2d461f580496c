import VersionedObjects.Proofs.Dynamic.Alike

/-!
# What evaluation keeps

An evaluation reaches the store and other accessors in a few places only. What all of these keep
of the runtime the evaluation keeps, and a failure that none of them can have it does not have
either, apart from evaluation errors. Main statements: `Premises.eval` and `Premises.runAll`.
-/

namespace VersionedObjects

/-! ## Code that writes records -/

namespace Declaration

namespace Expr

mutual

/-- The expression looks for the record that a write changes. -/
def writesRecord : Expr → Bool
  | writable .. => true
  | literal _ | this | name _ | backing | newRecord _ => false
  | list items => anyWritesRecord items
  | member target _ => target.writesRecord
  | readable chain owner => chain.writesRecord || owner.writesRecord
  | cast expr _ => expr.writesRecord
  | newChain inner | firstRecord inner => inner.writesRecord
  | prependRecord chain record => chain.writesRecord || record.writesRecord

/-- One of the expressions does. -/
def anyWritesRecord : List Expr → Bool
  | [] => false
  | item :: rest => item.writesRecord || anyWritesRecord rest

end

end Expr

/-- An expression of the statement looks for the record that a write changes. -/
def Stmt.writesRecord : Stmt → Bool
  | .return value | .expr value => value.writesRecord
  | .assign target value => target.writesRecord || value.writesRecord
  | .notifyCreated => false

end Declaration

namespace Dynamic

open Declaration
open Store (ObjectId)

/-! ## Operations -/

/-- An operation led to a state of some kind, with a value of some kind or a failure that is allowed
there. -/
def Kept {ε σ α : Type} (P : σ → Prop) (E : ε → σ → Prop) (Q : α → Prop) :
    EStateM.Result ε σ α → Prop
  | .ok a s => P s ∧ Q a
  | .error e s => P s ∧ E e s

/-- From a state of some kind the operation leads to one of the same kind. -/
def Keeps {ε σ α : Type} (P : σ → Prop) (E : ε → σ → Prop) (Q : α → Prop) (x : EStateM ε σ α) :
    Prop :=
  ∀ s, P s → Kept P E Q (x s)

/-- Whatever comes of it. -/
def anything {α : Type} (_ : α) : Prop :=
  True

section

variable {ε σ α β : Type} {P : σ → Prop} {E : ε → σ → Prop} {Q : α → Prop} {R : β → Prop}

/-- To give a value keeps a state of its kind. -/
theorem keeps_pure {a : α} (h : Q a) : Keeps P E Q (pure a) :=
  fun _ hr => ⟨hr, h⟩

/-- To fail as allowed keeps a state of its kind. -/
theorem keeps_throw {e : ε} (h : ∀ r, E e r) : Keeps P E Q (throwThe ε e) :=
  fun r hr => ⟨hr, h r⟩

/-- To look at the state keeps it. -/
theorem keeps_get : Keeps P E P (getThe σ) :=
  fun _ hr => ⟨hr, hr⟩

/-- A change of the state keeps its kind if it does so for every state. -/
theorem keeps_modify {f : σ → σ} (h : ∀ r, P r → P (f r)) :
    Keeps P E anything (modifyThe σ f : EStateM ε σ Unit) :=
  fun r hr => ⟨h r hr, trivial⟩

/-- A sequence keeps the kind if its first part does, and then all that may come next. -/
theorem Keeps.bind {x : EStateM ε σ α} {k : α → EStateM ε σ β} (hx : Keeps P E Q x)
    (hk : ∀ a, Q a → Keeps P E R (k a)) : Keeps P E R (x >>= k) := by
  intro r hr
  have hfirst := hx r hr
  cases hresult : x r with
  | ok a r' =>
    rw [hresult] at hfirst
    rw [bind_of_ok hresult]
    exact hk a hfirst.2 r' hfirst.1
  | error e r' =>
    rw [hresult] at hfirst
    rw [bind_of_error hresult]
    exact hfirst

/-- What is kept may be put more weakly. -/
theorem Kept.mono {result : EStateM.Result ε σ α} (h : Kept P E Q result) {P' : σ → Prop}
    {E' : ε → σ → Prop} {Q' : α → Prop} (hP : ∀ r, P r → P' r)
    (hE : ∀ e r, P r → E e r → E' e r) (hQ : ∀ a, Q a → Q' a) : Kept P' E' Q' result := by
  cases result with
  | ok a r => exact ⟨hP r h.1, hQ a h.2⟩
  | error e r => exact ⟨hP r h.1, hE e r h.1 h.2⟩

end

section

variable {α : Type} {P : Runtime → Prop} {E : Failure → Runtime → Prop} {Q : α → Prop}

/-- To fail with an error that is allowed keeps a state of its kind. -/
theorem keeps_fail (h : ∀ e r, E (.eval e) r) (e : EvalError) : Keeps P E Q (fail e) :=
  keeps_throw (h e)

/-- A result that fails as allowed keeps a state of its kind. -/
theorem keeps_orFail (h : ∀ e r, E (.eval e) r) {x : Except EvalError α}
    (hx : ∀ a, x = .ok a → Q a) : Keeps P E Q (orFail x) := by
  cases x with
  | ok a => exact keeps_pure (hx a rfl)
  | error e => exact keeps_fail h e

/-- An operation on the store keeps what it keeps of the world. -/
theorem keeps_onStore {action : Store.StoreM Slots α}
    (hok : ∀ r a w, P r → action.run r.world = .ok a w → P { r with world := w } ∧ Q a)
    (herror : ∀ r v w, P r → action.run r.world = .error v w →
      P { r with world := w } ∧ E (.violation v) { r with world := w }) :
    Keeps P E Q (onStore action) := by
  intro r hr
  unfold onStore
  cases h : action.run r.world with
  | ok a w =>
    change action r.world = _ at h
    rw [h]
    exact hok r a w hr h
  | error v w =>
    change action r.world = _ at h
    rw [h]
    exact herror r v w hr h

end

/-! ## Evaluation -/

/-- What the places keep at which an evaluation in a scope leaves it: other accessors, stored
values, and the records of the objects that the scope owns. Only code that writes records comes to
the last of these. -/
structure Premises (P : Runtime → Prop) (E : Failure → Runtime → Prop) (calls : Calls) (sc : Scope)
    (owns : ObjectId → Prop) (writes : Prop) : Prop where
  error : ∀ e r, E (.eval e) r
  get : ∀ name, Keeps P E anything (calls.get sc.self name)
  set : ∀ name value, Keeps P E anything (calls.set sc.self name value)
  setField : ∀ r name value, P r → P (r.modifyFields sc.self (·.put name value))
  object : ∀ r o, P r → (r.inst sc.self).object = some o → owns o
  announce : ∀ r o, P r → owns o → P { r with world := r.world.notifyCreated o }
  store : ∀ r o g change, P r → P { r with world := r.world.store o g change }
  readable : ∀ o, owns o → Keeps P E anything (onStore (Store.readable o))
  writable : writes → ∀ o, owns o → Keeps P E anything (onStore (Store.writable o))

namespace Premises

variable {P : Runtime → Prop} {E : Failure → Runtime → Prop} {calls : Calls} {sc : Scope}
  {owns : ObjectId → Prop} {writes : Prop}

/-! ### Scopes -/

/-- The instance of a scope has an object that the scope owns, if it has one. -/
theorem keeps_inst (h : Premises P E calls sc owns writes) :
    Keeps P E (fun self => ∀ o, self.object = some o → owns o) sc.inst :=
  keeps_get.bind fun r hr => keeps_pure fun o => h.object r o hr

/-- To ask for the class of a scope keeps the kind. -/
theorem keeps_className (h : Premises P E calls sc owns writes) :
    Keeps P E anything sc.className :=
  h.keeps_inst.bind fun _ _ => keeps_pure trivial

/-- To ask for the object of a scope gives one that the scope owns. -/
theorem keeps_object (h : Premises P E calls sc owns writes) : Keeps P E owns sc.object := by
  unfold Scope.object
  refine h.keeps_inst.bind fun self hself => ?_
  split
  · next o ho => exact keeps_pure (hself o ho)
  · exact h.keeps_className.bind fun _ _ => keeps_fail h.error _

/-- To ask for the property whose storage is meant keeps the kind. -/
theorem keeps_backingProperty (h : Premises P E calls sc owns writes) :
    Keeps P E anything sc.backingProperty := by
  unfold Scope.backingProperty
  split
  · exact keeps_pure trivial
  · exact keeps_fail h.error _

/-- To find the slot of a property keeps the kind. -/
theorem keeps_slot (h : Premises P E calls sc owns writes) (name : String) :
    Keeps P E anything (sc.slot name) := by
  unfold Scope.slot
  refine h.keeps_inst.bind fun self _ => ?_
  split
  · exact keeps_pure trivial
  · exact h.keeps_className.bind fun _ _ => keeps_fail h.error _

/-- To store into a field keeps the kind. -/
theorem keeps_setField (h : Premises P E calls sc owns writes) (name : String) (value : Value) :
    Keeps P E anything (sc.setField name value) := by
  unfold Scope.setField
  refine h.keeps_inst.bind fun self _ => ?_
  split
  · exact (keeps_modify fun r => h.setField r name value).bind fun _ _ => keeps_pure trivial
  · exact keeps_pure trivial

/-- To report that there is no stored value keeps the kind. -/
theorem keeps_noStoredValue {β : Type} (h : Premises P E calls sc owns writes)
    (property : String) : Keeps P E (anything (α := β)) (sc.noStoredValue property) :=
  h.keeps_className.bind fun _ _ => keeps_fail h.error _

/-- To take the value of an operand keeps the kind. -/
theorem keeps_toValue (h : Premises P E calls sc owns writes) (e : Expr) (operand : Operand) :
    Keeps P E anything (operand.toValue e) := by
  cases operand with
  | value v => exact keeps_pure trivial
  | _ => exact keeps_fail h.error _

/-- To find the owner of a record chain gives an object that the scope owns. -/
theorem keeps_chainOwner (h : Premises P E calls sc owns writes) (e : Expr) (c o : Operand) :
    Keeps P E owns (eval.chainOwner sc e c o) := by
  unfold eval.chainOwner
  split
  · exact h.keeps_object
  · exact keeps_fail h.error _

/-! ### Expressions -/

mutual

/-- By recursion over the expression. -/
theorem eval (h : Premises P E calls sc owns writes) (locals : Association Value) :
    (e : Expr) → (e.writesRecord = true → writes) →
      Keeps P E anything (Dynamic.eval calls sc locals e)
  | .literal _, _ => by
    rw [Dynamic.eval]
    exact keeps_pure trivial
  | .list items, hw => by
    rw [Dynamic.eval]
    exact (evalAll h locals items hw).bind fun _ _ => keeps_pure trivial
  | .name _, _ => by
    rw [Dynamic.eval]
    exact (keeps_orFail h.error fun _ _ => trivial).bind (Q := anything) fun _ _ =>
      keeps_pure trivial
  | .this, _ => by
    rw [Dynamic.eval]
    exact keeps_pure trivial
  | .backing, _ => by
    rw [Dynamic.eval]
    refine h.keeps_backingProperty.bind fun property _ => h.keeps_inst.bind fun self _ => ?_
    split
    · exact keeps_pure trivial
    · exact h.keeps_noStoredValue property
  | .member target id, hw => by
    rw [Dynamic.eval]
    refine (eval h locals target hw).bind fun operand _ => ?_
    split
    · split
      · exact keeps_pure trivial
      · exact keeps_fail h.error _
    · split
      · exact (h.keeps_slot id).bind fun _ _ => keeps_pure trivial
      · refine h.keeps_inst.bind fun self _ => ?_
        split
        · exact keeps_pure trivial
        · exact (h.get id).bind fun _ _ => keeps_pure trivial
      · exact keeps_fail h.error _
  | .readable chain owner, hw => by
    rw [Dynamic.eval]
    rw [Expr.writesRecord, Bool.or_eq_true] at hw
    refine (eval h locals chain fun hc => hw (.inl hc)).bind fun c _ =>
      (eval h locals owner fun ho => hw (.inr ho)).bind fun o _ =>
        (h.keeps_chainOwner chain c o).bind fun object hobject => ?_
    exact (h.readable object hobject).bind fun _ _ => keeps_pure trivial
  | .writable chain owner, hw => by
    -- any part of a write may write itself
    have hwrites : writes := hw rfl
    rw [Dynamic.eval]
    refine (eval h locals chain fun _ => hwrites).bind fun c _ =>
      (eval h locals owner fun _ => hwrites).bind fun o _ =>
        (h.keeps_chainOwner chain c o).bind fun object hobject => ?_
    exact (h.writable hwrites object hobject).bind fun _ _ => keeps_pure trivial
  | .cast inner _, hw => by
    rw [Dynamic.eval]
    exact eval h locals inner hw
  | .firstRecord chain, hw => by
    rw [Dynamic.eval]
    refine (eval h locals chain hw).bind fun operand _ => ?_
    split
    · exact h.keeps_object.bind fun _ _ => keeps_get.bind fun _ _ => keeps_pure trivial
    · exact keeps_fail h.error _
  | .newRecord _, _ => by
    rw [Dynamic.eval]
    exact keeps_fail h.error _
  | .newChain _, _ => by
    rw [Dynamic.eval]
    exact keeps_fail h.error _
  | .prependRecord .., _ => by
    rw [Dynamic.eval]
    exact keeps_fail h.error _

/-- Each expression in turn. -/
theorem evalAll (h : Premises P E calls sc owns writes) (locals : Association Value) :
    (items : List Expr) → (Expr.anyWritesRecord items = true → writes) →
      Keeps P E anything (Dynamic.evalAll calls sc locals items)
  | [], _ => by
    rw [Dynamic.evalAll]
    exact keeps_pure trivial
  | item :: rest, hw => by
    rw [Dynamic.evalAll]
    rw [Expr.anyWritesRecord, Bool.or_eq_true] at hw
    exact (eval h locals item fun hi => hw (.inl hi)).bind fun operand _ =>
      (h.keeps_toValue item operand).bind fun _ _ =>
        (evalAll h locals rest fun hr => hw (.inr hr)).bind fun _ _ => keeps_pure trivial

end

/-- To evaluate an expression to a value keeps the kind. -/
theorem evalValue (h : Premises P E calls sc owns writes) (locals : Association Value) {e : Expr}
    (hw : e.writesRecord = true → writes) :
    Keeps P E anything (Dynamic.evalValue calls sc locals e) :=
  (h.eval locals e hw).bind fun operand _ => h.keeps_toValue e operand

/-! ### Statements -/

/-- An assignment keeps the kind. -/
theorem assign (h : Premises P E calls sc owns writes) (locals : Association Value)
    {target : Expr} (value : Value) (hw : target.writesRecord = true → writes) :
    Keeps P E anything (Dynamic.assign calls sc locals target value) := by
  cases target with
  | name id => exact keeps_pure trivial
  | backing =>
    refine h.keeps_backingProperty.bind fun property _ =>
      (h.keeps_setField property value).bind fun found _ => ?_
    split
    · exact keeps_pure trivial
    · exact h.keeps_noStoredValue property
  | member inner id =>
    refine (h.eval locals inner hw).bind fun operand _ => ?_
    split
    · next o record _ =>
      exact (h.keeps_slot id).bind fun i _ =>
        (keeps_modify fun r => h.store r o record.generation (·.store i value)).bind fun _ _ =>
          keeps_pure trivial
    · refine h.keeps_inst.bind fun self _ => ?_
      split
      · exact (h.set id value).bind fun _ _ => keeps_pure trivial
      · refine (h.keeps_setField id value).bind fun found _ => ?_
        split
        · exact keeps_pure trivial
        · exact keeps_fail h.error _
    · exact keeps_fail h.error _
  | _ => exact keeps_fail h.error _

/-- A statement keeps the kind. -/
theorem exec (h : Premises P E calls sc owns writes) (locals : Association Value) {stmt : Stmt}
    (hw : stmt.writesRecord = true → writes) :
    Keeps P E anything (Dynamic.exec calls sc locals stmt) := by
  cases stmt with
  | «return» value => exact (h.evalValue locals hw).bind fun _ _ => keeps_pure trivial
  | expr value => exact (h.eval locals value hw).bind fun _ _ => keeps_pure trivial
  | assign target value =>
    rw [Stmt.writesRecord, Bool.or_eq_true] at hw
    exact (h.evalValue locals fun hv => hw (.inr hv)).bind fun v _ =>
      (h.assign locals v fun ht => hw (.inl ht)).bind fun _ _ => keeps_pure trivial
  | notifyCreated =>
    exact h.keeps_object.bind fun o ho =>
      (keeps_modify fun r hr => h.announce r o hr ho).bind fun _ _ => keeps_pure trivial

/-- By induction on the statements. -/
theorem run (h : Premises P E calls sc owns writes) {body : List Stmt}
    (hw : body.any (·.writesRecord) = true → writes) (locals : Association Value) :
    Keeps P E anything (Dynamic.run calls sc locals body) := by
  induction body generalizing locals with
  | nil => exact keeps_pure trivial
  | cons stmt rest ih =>
    rw [List.any_cons, Bool.or_eq_true] at hw
    rw [Dynamic.run]
    refine (h.exec locals fun hs => hw (.inl hs)).bind fun result _ => ?_
    split
    · exact keeps_pure trivial
    · exact ih (fun hr => hw (.inr hr)) _

/-- By induction on the statements. -/
theorem runAll (h : Premises P E calls sc owns writes) {body : List Stmt}
    (hw : body.any (·.writesRecord) = true → writes) (locals : Association Value) :
    Keeps P E anything (Dynamic.runAll calls sc locals body) := by
  induction body generalizing locals with
  | nil => exact keeps_pure trivial
  | cons stmt rest ih =>
    rw [List.any_cons, Bool.or_eq_true] at hw
    rw [Dynamic.runAll]
    exact (h.exec locals fun hs => hw (.inl hs)).bind fun result _ =>
      ih (fun hr => hw (.inr hr)) _

end Premises

end Dynamic

end VersionedObjects
