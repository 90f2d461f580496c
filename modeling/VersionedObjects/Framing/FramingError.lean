import VersionedObjects.Text.Quoted

/-!
# Framing errors

Why a class cannot be framed. The other classes of its module are framed all the same.
-/

namespace VersionedObjects.Framing

/-- Why a class cannot be framed. -/
inductive Cause where
  | missingBackingField (property : String)
  | missingRecordBase (base : String)
  | missingBaseConstructor (base : String)
  | invalidIdentifier (name : String)
  | reservedName (name : String)
  /-- A rule left the class inconsistent. -/
  | rule (rule message : String)
  deriving DecidableEq, Inhabited, Repr

/-- The class that cannot be framed, and why. -/
structure FramingError where
  className : String
  cause : Cause
  deriving DecidableEq, Inhabited, Repr

/-- The error as text. -/
def FramingError.text (e : FramingError) : String :=
  match e.cause with
  | .missingBackingField property =>
    e.className ++ "." ++ property ++
      " has no backing field; computed-only properties cannot be framed"
  | .missingRecordBase base =>
    e.className ++ ": base record type " ++ base ++ " is not known to the class environment"
  | .missingBaseConstructor base =>
    e.className ++ ": base record type " ++ base ++ " has no zero-argument constructor"
  | .invalidIdentifier name =>
    e.className ++ ": " ++ Text.quote name ++ " is not a valid identifier"
  | .reservedName name =>
    e.className ++ ": property name " ++ Text.quote name ++ " is reserved for generated members"
  | .rule rule message =>
    e.className ++ ": rule " ++ rule ++ " left the class inconsistent: " ++ message

end VersionedObjects.Framing
