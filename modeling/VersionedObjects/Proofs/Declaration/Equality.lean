import VersionedObjects.Declaration.ClassDecl

/-!
# Equality of declarations

Whether two declarations are the same can be decided. Unlike the comparison that programs use,
which takes floating point literals as numbers, this one tells all literals apart.
-/

namespace VersionedObjects.Declaration

namespace Expr

mutual

/-- The expressions are the same, literals included. -/
def same : Expr → Expr → Bool
  | literal a, literal b => decide (a = b)
  | list as, list bs => sameAll as bs
  | this, this => true
  | name a, name b => decide (a = b)
  | backing, backing => true
  | member a n, member b m => same a b && decide (n = m)
  | readable a₁ a₂, readable b₁ b₂ => same a₁ b₁ && same a₂ b₂
  | writable a₁ a₂, writable b₁ b₂ => same a₁ b₁ && same a₂ b₂
  | cast a s, cast b t => same a b && decide (s = t)
  | newRecord s, newRecord t => decide (s = t)
  | newChain a, newChain b => same a b
  | firstRecord a, firstRecord b => same a b
  | prependRecord a₁ a₂, prependRecord b₁ b₂ => same a₁ b₁ && same a₂ b₂
  | _, _ => false

/-- The lists have the same expressions. -/
def sameAll : List Expr → List Expr → Bool
  | [], [] => true
  | a :: as, b :: bs => same a b && sameAll as bs
  | _, _ => false

end

mutual

/-- Comparing expressions decides their equality. -/
theorem same_iff : (a b : Expr) → (same a b = true ↔ a = b)
  | literal _, b => by cases b <;> simp [same]
  | list as, b => by
    cases b with
    | list bs => simpa [same] using sameAll_iff as bs
    | _ => simp [same]
  | this, b => by cases b <;> simp [same]
  | name _, b => by cases b <;> simp [same]
  | backing, b => by cases b <;> simp [same]
  | member a _, b => by
    cases b with
    | member b _ => simp [same, same_iff a b]
    | _ => simp [same]
  | readable a₁ a₂, b => by
    cases b with
    | readable b₁ b₂ => simp [same, same_iff a₁ b₁, same_iff a₂ b₂]
    | _ => simp [same]
  | writable a₁ a₂, b => by
    cases b with
    | writable b₁ b₂ => simp [same, same_iff a₁ b₁, same_iff a₂ b₂]
    | _ => simp [same]
  | cast a _, b => by
    cases b with
    | cast b _ => simp [same, same_iff a b]
    | _ => simp [same]
  | newRecord _, b => by cases b <;> simp [same]
  | newChain a, b => by
    cases b with
    | newChain b => simp [same, same_iff a b]
    | _ => simp [same]
  | firstRecord a, b => by
    cases b with
    | firstRecord b => simp [same, same_iff a b]
    | _ => simp [same]
  | prependRecord a₁ a₂, b => by
    cases b with
    | prependRecord b₁ b₂ => simp [same, same_iff a₁ b₁, same_iff a₂ b₂]
    | _ => simp [same]

/-- Comparing lists of expressions decides their equality. -/
theorem sameAll_iff : (as bs : List Expr) → (sameAll as bs = true ↔ as = bs)
  | [], [] => by simp [sameAll]
  | [], _ :: _ => by simp [sameAll]
  | _ :: _, [] => by simp [sameAll]
  | a :: as, b :: bs => by simp [sameAll, same_iff a b, sameAll_iff as bs]

end

instance : DecidableEq Expr := fun a b => decidable_of_iff _ (same_iff a b)

end Expr

deriving instance DecidableEq for Stmt
deriving instance DecidableEq for Accessor
deriving instance DecidableEq for Property
deriving instance DecidableEq for Constructor
deriving instance DecidableEq for Method
deriving instance DecidableEq for ClassDecl
deriving instance DecidableEq for Module

end VersionedObjects.Declaration
