import VersionedObjects.Proofs.Dynamic.Alike

/-!
# Constants

Literals, and lists of constants. A constant has the same value wherever it is evaluated.
-/

namespace VersionedObjects.Dynamic

open Declaration

mutual

/-- The expression is a literal or a list of constants. -/
def isConstant : Expr → Bool
  | .literal _ => true
  | .list items => areConstant items
  | _ => false

/-- All expressions are constants. -/
def areConstant : List Expr → Bool
  | [] => true
  | item :: rest => isConstant item && areConstant rest

end

mutual

/-- The value of a constant expression. -/
def constantValue : Expr → Value
  | .literal value => .ofLiteral value
  | .list items => .list (constantValues items)
  | _ => .null

/-- The values of constant expressions. -/
def constantValues : List Expr → List Value
  | [] => []
  | item :: rest => constantValue item :: constantValues rest

end

mutual

/-- A constant has its value without any instance. -/
theorem constant_eq (locals : Association Value) :
    (e : Expr) → isConstant e = true → constant locals e = .ok (constantValue e)
  | .literal _, _ => rfl
  | .list items, h => by
    rw [constant, constants_eq locals items h]
    rfl

/-- Constants have their values without any instance. -/
theorem constants_eq (locals : Association Value) :
    (items : List Expr) → areConstant items = true →
      constant.constants locals items = .ok (constantValues items)
  | [], _ => rfl
  | item :: rest, h => by
    rw [areConstant, Bool.and_eq_true] at h
    rw [constant.constants, constant_eq locals item h.1, constants_eq locals rest h.2]
    rfl

end

mutual

/-- Inside an instance a constant has the same value. -/
theorem eval_constant (calls : Calls) (sc : Scope) (locals : Association Value) :
    (e : Expr) → isConstant e = true →
      ∀ r, eval calls sc locals e r = .ok (.value (constantValue e)) r
  | .literal _, _, r => by
    rw [eval]
    rfl
  | .list items, h, r => by
    rw [eval, bind_of_ok (evalAll_constants calls sc locals items h r)]
    rfl

/-- Inside an instance constants have the same values. -/
theorem evalAll_constants (calls : Calls) (sc : Scope) (locals : Association Value) :
    (items : List Expr) → areConstant items = true →
      ∀ r, evalAll calls sc locals items r = .ok (constantValues items) r
  | [], _, r => by
    rw [evalAll]
    rfl
  | item :: rest, h, r => by
    rw [areConstant, Bool.and_eq_true] at h
    have hvalue : Operand.toValue item (.value (constantValue item)) r =
        .ok (constantValue item) r := rfl
    rw [evalAll, bind_of_ok (eval_constant calls sc locals item h.1 r), bind_of_ok hvalue,
      bind_of_ok (evalAll_constants calls sc locals rest h.2 r)]
    rfl

end

/-- The value that a property has at first. -/
def initialValue (p : Property) : Value :=
  p.initializer.elim (Value.zeroOf p.type) constantValue

end VersionedObjects.Dynamic
