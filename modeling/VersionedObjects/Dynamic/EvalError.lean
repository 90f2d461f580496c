import VersionedObjects.Association
import VersionedObjects.Dynamic.Value
import VersionedObjects.Store.World

/-!
# Evaluation errors

Why an instance could not be made, read or written.
-/

namespace VersionedObjects.Dynamic

open Declaration (Expr)
open Store (ObjectId)

/-- Why an evaluation failed. -/
inductive EvalError where
  | unknownClass (name : String)
  | unknownProperty (className property : String)
  | readOnly (className property : String)
  | typeMismatch (className property expected actual : String)
  | unboundName (name : String)
  | missingReturn (className property : String)
  | arity (className : String) (expected actual : Nat)
  | noOpenFrame (className property : String)
  | notVisible (className : String) (object : ObjectId)
  | unsupported (detail : String)
  | load (detail : String)
  deriving DecidableEq, Inhabited, Repr

/-- The error as text, given the names of objects. -/
def EvalError.text (name : ObjectId → String) : EvalError → String
  | unknownClass cls => "Unknown class: " ++ cls
  | unknownProperty cls property => cls ++ " has no property " ++ property
  | readOnly cls property => cls ++ "." ++ property ++ " is read-only"
  | typeMismatch cls property expected actual =>
    cls ++ "." ++ property ++ " expects " ++ expected ++ ", got " ++ actual
  | unboundName id => "Unbound name: " ++ id
  | missingReturn cls property => cls ++ "." ++ property ++ " returned no value"
  | arity cls expected actual =>
    cls ++ s!" expects {expected} constructor arguments, got {actual}"
  | noOpenFrame cls property =>
    "Cannot write " ++ cls ++ "." ++ property ++ ": no frame is open on this thread"
  | notVisible cls object => cls ++ " " ++ name object ++ " does not exist in this frame"
  | unsupported detail => "Unsupported in dynamic classes: " ++ detail
  | load detail => "Load failed: " ++ detail

/-- The value of an expression that needs no instance. -/
def constant (locals : Association Value) : Expr → Except EvalError Value
  | .literal value => .ok (.ofLiteral value)
  | .list items => do return .list (← constants items)
  | .name id =>
    match locals.get? id with
    | some value => .ok value
    | none => .error (.unboundName id)
  | other => .error (.unsupported (other.text ++ " outside an instance"))
where
  /-- The values of expressions that need no instance. -/
  constants : List Expr → Except EvalError (List Value)
    | [] => .ok []
    | item :: rest => do return (← constant locals item) :: (← constants rest)

end VersionedObjects.Dynamic
