/-!
# Types as written

A type in a declaration is a name, type arguments and a mark for nullable types: `List<Int>?`.
-/

namespace VersionedObjects.Declaration

/-- A type as written in a declaration. -/
inductive TypeExpr where
  | mk (name : String) (args : List TypeExpr) (nullable : Bool)
  deriving Inhabited, Repr

namespace TypeExpr

/-- The name before the arguments. -/
def name : TypeExpr → String
  | mk name _ _ => name

/-- The type arguments. -/
def args : TypeExpr → List TypeExpr
  | mk _ args _ => args

/-- The type has a question mark. -/
def nullable : TypeExpr → Bool
  | mk _ _ nullable => nullable

/-- A plain type: no arguments, not nullable. -/
def named (name : String) : TypeExpr :=
  mk name [] false

/-- A type with arguments that is not nullable. -/
def generic (name : String) (args : List TypeExpr) : TypeExpr :=
  mk name args false

mutual

/-- Equality of types is decidable. -/
def decEq : (a b : TypeExpr) → Decidable (a = b)
  | mk n₁ a₁ q₁, mk n₂ a₂ q₂ =>
    match decEqList a₁ a₂ with
    | isTrue h =>
      if hn : n₁ = n₂ ∧ q₁ = q₂ then isTrue (by rw [h, hn.1, hn.2])
      else isFalse fun e => by cases e; exact hn ⟨rfl, rfl⟩
    | isFalse h => isFalse fun e => by cases e; exact h rfl

/-- Equality of lists of types is decidable. -/
def decEqList : (as bs : List TypeExpr) → Decidable (as = bs)
  | [], [] => isTrue rfl
  | [], _ :: _ => isFalse nofun
  | _ :: _, [] => isFalse nofun
  | a :: as, b :: bs =>
    match decEq a b, decEqList as bs with
    | isTrue h, isTrue hs => isTrue (by rw [h, hs])
    | isFalse h, _ => isFalse fun e => by cases e; exact h rfl
    | _, isFalse hs => isFalse fun e => by cases e; exact hs rfl

end

instance : DecidableEq TypeExpr := decEq

mutual

/-- The type in declaration syntax. -/
def text : TypeExpr → String
  | mk name args nullable =>
    name ++ (match args with
      | [] => ""
      | arg :: rest => "<" ++ arg.text ++ textMore rest ++ ">") ++
    (if nullable then "?" else "")

/-- Further type arguments, each after a comma. -/
def textMore : List TypeExpr → String
  | [] => ""
  | arg :: rest => ", " ++ arg.text ++ textMore rest

end

end TypeExpr

end VersionedObjects.Declaration
