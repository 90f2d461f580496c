import VersionedObjects.Declaration.TypeExpr
import VersionedObjects.Number.Binary64

/-!
# Expressions and statements

What initializers, accessors, constructors and methods are made of. Sources contain literals,
lists, `this`, names, `field` and field paths; the operations on records and record chains appear
in framed classes only.
-/

namespace VersionedObjects.Declaration

open Number (Binary64)

/-- A literal value. -/
inductive Literal where
  | int (value : Int64)
  | float (value : Binary64)
  | bool (value : Bool)
  | string (value : String)
  | null
  deriving DecidableEq, Inhabited, Repr

/-- Literals compare by value, floating point numbers as numbers. -/
instance : BEq Literal where
  beq
    | .int a, .int b => a == b
    | .float a, .float b => a == b
    | .bool a, .bool b => a == b
    | .string a, .string b => a == b
    | .null, .null => true
    | _, _ => false

/-- An expression. -/
inductive Expr where
  | literal (value : Literal)
  | list (items : List Expr)
  | this
  /-- A local variable or a parameter. -/
  | name (name : String)
  /-- The word `field` in an accessor: the stored value of the property. -/
  | backing
  /-- A member of an object or record. -/
  | member (target : Expr) (name : String)
  /-- The record of a chain that a read uses. -/
  | readable (chain owner : Expr)
  /-- The record of a chain that a write changes. -/
  | writable (chain owner : Expr)
  | cast (expr : Expr) (type : TypeExpr)
  /-- A fresh record of a record type. -/
  | newRecord (type : TypeExpr)
  /-- A record chain with one record. -/
  | newChain (initial : Expr)
  /-- The oldest record of a chain. -/
  | firstRecord (chain : Expr)
  /-- A record linked into a chain as its newest. -/
  | prependRecord (chain record : Expr)
  deriving Inhabited, Repr

namespace Expr

mutual

/-- Expressions compare by structure, floating point literals as numbers. -/
def beq : Expr → Expr → Bool
  | literal a, literal b => a == b
  | list as, list bs => beqList as bs
  | this, this => true
  | name a, name b => a == b
  | backing, backing => true
  | member a n, member b m => beq a b && n == m
  | readable a₁ a₂, readable b₁ b₂ => beq a₁ b₁ && beq a₂ b₂
  | writable a₁ a₂, writable b₁ b₂ => beq a₁ b₁ && beq a₂ b₂
  | cast a s, cast b t => beq a b && s == t
  | newRecord s, newRecord t => s == t
  | newChain a, newChain b => beq a b
  | firstRecord a, firstRecord b => beq a b
  | prependRecord a₁ a₂, prependRecord b₁ b₂ => beq a₁ b₁ && beq a₂ b₂
  | _, _ => false

/-- Lists of expressions compare item by item. -/
def beqList : List Expr → List Expr → Bool
  | [], [] => true
  | a :: as, b :: bs => beq a b && beqList as bs
  | _, _ => false

end

instance : BEq Expr := ⟨beq⟩

mutual

/-- The word `field` occurs in the expression. -/
def usesBacking : Expr → Bool
  | backing => true
  | literal _ | this | name _ | newRecord _ => false
  | list items => usesBackingList items
  | member target _ => target.usesBacking
  | readable chain owner | writable chain owner => chain.usesBacking || owner.usesBacking
  | cast expr _ => expr.usesBacking
  | newChain inner | firstRecord inner => inner.usesBacking
  | prependRecord chain record => chain.usesBacking || record.usesBacking

/-- The word `field` occurs in one of the expressions. -/
def usesBackingList : List Expr → Bool
  | [] => false
  | item :: rest => item.usesBacking || usesBackingList rest

end

/-- The expression is `this`. -/
def isThis : Expr → Bool
  | this => true
  | _ => false

end Expr

/-- A statement. -/
inductive Stmt where
  | return (value : Expr)
  /-- The target is `field`, a name or a member. -/
  | assign (target value : Expr)
  | expr (value : Expr)
  /-- Announces the object under construction. -/
  | notifyCreated
  deriving Inhabited, Repr

namespace Stmt

/-- Statements compare by structure. -/
def beq : Stmt → Stmt → Bool
  | .return a, .return b => a == b
  | .assign t v, .assign t' v' => t == t' && v == v'
  | .expr a, .expr b => a == b
  | .notifyCreated, .notifyCreated => true
  | _, _ => false

instance : BEq Stmt := ⟨beq⟩

/-- The word `field` occurs in the statement. -/
def usesBacking : Stmt → Bool
  | .return value | .expr value => value.usesBacking
  | .assign target value => target.usesBacking || value.usesBacking
  | .notifyCreated => false

end Stmt

end VersionedObjects.Declaration
