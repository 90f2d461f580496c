import VersionedObjects.Proofs.Dynamic.Alike
import VersionedObjects.Proofs.Framing.Host
import VersionedObjects.Proofs.Store.WritableFrame

/-!
# Access to records

What the expressions that framing puts in place of stored values do: the slot of the readable
record, the slot of the writable record, and the slot of the first record of an object under
construction.
-/

namespace VersionedObjects.Dynamic

open Declaration Framing
open Store (ObjectId World Record)

variable {calls : Calls} {sc : Scope} {locals : Association Value} {r : Runtime}

/-! ## Scopes -/

/-- A scope's instance is the one at its own id. -/
theorem inst_apply (sc : Scope) (r : Runtime) : sc.inst r = .ok (r.inst sc.self) r :=
  rfl

/-- An instance with an object hands it over. -/
theorem object_apply {o : ObjectId} (h : (r.inst sc.self).object = some o) :
    sc.object r = .ok o r := by
  unfold Scope.object
  rw [bind_of_ok (inst_apply sc r), h]
  rfl

/-- A framed name is looked up in the layout of the instance's class. -/
theorem slot_apply {name : String} {k : Nat} (h : (r.inst sc.self).cls.slot? name = some k) :
    sc.slot name r = .ok k r := by
  unfold Scope.slot
  rw [bind_of_ok (inst_apply sc r), h]
  rfl

/-- A store action that succeeds changes the world of the runtime and nothing else. -/
theorem onStore_apply {β : Type} {action : Store.StoreM Slots β} {b : β} {w : World Slots}
    (h : action.run r.world = .ok b w) : onStore action r = .ok b { r with world := w } := by
  unfold onStore
  change action r.world = _ at h
  rw [h]

/-! ## Reading -/

/-- Evaluating `this` gives the instance and leaves the runtime alone. -/
theorem eval_this : eval calls sc locals .this r = .ok .this r := by
  rw [eval]
  rfl

/-- Evaluating the chain of the instance gives the chain and leaves the runtime alone. -/
theorem eval_chainExpr : eval calls sc locals chainExpr r = .ok .chain r := by
  rw [chainExpr, eval, bind_of_ok eval_this, if_pos rfl]
  rfl

/-- The chain of an instance belongs to the instance's object. -/
theorem chainOwner_apply {o : ObjectId} (h : (r.inst sc.self).object = some o) (chain : Expr) :
    eval.chainOwner sc chain .chain .this r = .ok o r := by
  rw [eval.chainOwner]
  exact object_apply h

/-- The slot of the record that a read uses. -/
theorem eval_readableField {o : ObjectId} (h : (r.inst sc.self).object = some o) {name : String}
    (hname : name ≠ recordField) {k : Nat} (hslot : (r.inst sc.self).cls.slot? name = some k)
    (recordType : TypeExpr) {record : Record Slots} {w : World Slots}
    (hread : (Store.readable o).run r.world = .ok record w) :
    eval calls sc locals (readableField recordType name) r =
      .ok (.value (record.value.slot k)) { r with world := w } := by
  have hcast : eval calls sc locals (.cast (.readable chainExpr .this) recordType) r =
      .ok (.record o record) { r with world := w } := by
    rw [eval, eval, bind_of_ok eval_chainExpr, bind_of_ok eval_this,
      bind_of_ok (chainOwner_apply h _), bind_of_ok (onStore_apply hread)]
    rfl
  rw [readableField, eval, bind_of_ok hcast, if_neg hname]
  dsimp only
  rw [bind_of_ok (slot_apply (r := { r with world := w }) hslot)]
  rfl

/-! ## Writing -/

/-- Assigning to a slot of a record stores into the record, wherever the record comes from. -/
theorem assign_record {inner : Expr} {o : ObjectId} {record : Record Slots} {r' : Runtime}
    (hinner : eval calls sc locals inner r = .ok (.record o record) r') {name : String} {k : Nat}
    (hslot : (r'.inst sc.self).cls.slot? name = some k) (value : Value) :
    assign calls sc locals (.member inner name) value r =
      .ok locals { r' with world := r'.world.store o record.generation (·.store k value) } := by
  rw [assign, bind_of_ok hinner]
  dsimp only
  rw [bind_of_ok (slot_apply hslot)]
  rfl

/-- The slot of the record that a write changes. -/
theorem assign_writableField {o : ObjectId} (h : (r.inst sc.self).object = some o) {name : String}
    {k : Nat} (hslot : (r.inst sc.self).cls.slot? name = some k) (recordType : TypeExpr)
    {record : Record Slots} {w : World Slots}
    (hwrite : (Store.writable o).run r.world = .ok record w) (value : Value) :
    assign calls sc locals (writableField recordType name) value r =
      .ok locals { r with world := w.store o record.generation (·.store k value) } := by
  have hcast : eval calls sc locals (.cast (.writable chainExpr .this) recordType) r =
      .ok (.record o record) { r with world := w } := by
    rw [eval, eval, bind_of_ok eval_chainExpr, bind_of_ok eval_this,
      bind_of_ok (chainOwner_apply h _), bind_of_ok (onStore_apply hwrite)]
    rfl
  exact assign_record hcast hslot value

/-- The slot of the first record. -/
theorem assign_firstRecordField {o : ObjectId} (h : (r.inst sc.self).object = some o)
    {name : String} {k : Nat} (hslot : (r.inst sc.self).cls.slot? name = some k)
    (recordType : TypeExpr) {record : Record Slots}
    (hfirst : (r.world.object o).chain.first? = some record) (value : Value) :
    assign calls sc locals (firstRecordField recordType name) value r =
      .ok locals { r with world := r.world.store o record.generation (·.store k value) } := by
  have hget : (getThe Runtime : EvalM Runtime) r = .ok r r := rfl
  have hcast : eval calls sc locals (.cast (.firstRecord chainExpr) recordType) r =
      .ok (.record o record) r := by
    rw [eval, eval, bind_of_ok eval_chainExpr]
    dsimp only
    rw [bind_of_ok (object_apply h), bind_of_ok hget, hfirst]
    rfl
  exact assign_record hcast hslot value

end VersionedObjects.Dynamic
