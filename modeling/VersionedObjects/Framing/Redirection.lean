import VersionedObjects.Declaration.ClassDecl

/-!
# From stored values to records

Inside a framed class the word `field` stands for a slot of a record: a read goes to the readable
record, an assignment to the writable one.
-/

namespace VersionedObjects.Framing

open Declaration

/-- The record chain of the object. -/
def chainExpr : Expr :=
  .member .this recordField

/-- A slot of the record that a read uses. -/
def readableField (recordType : TypeExpr) (name : String) : Expr :=
  .member (.cast (.readable chainExpr .this) recordType) name

/-- A slot of the record that a write changes. -/
def writableField (recordType : TypeExpr) (name : String) : Expr :=
  .member (.cast (.writable chainExpr .this) recordType) name

/-- A slot of the first record, for use under construction. -/
def firstRecordField (recordType : TypeExpr) (name : String) : Expr :=
  .member (.cast (.firstRecord chainExpr) recordType) name

mutual

/-- The expression with every `field` replaced. -/
def redirect (read : Expr) : Expr → Expr
  | .backing => read
  | .list items => .list (redirectAll read items)
  | .member target name => .member (redirect read target) name
  | .readable chain owner => .readable (redirect read chain) (redirect read owner)
  | .writable chain owner => .writable (redirect read chain) (redirect read owner)
  | .cast expr type => .cast (redirect read expr) type
  | .newChain inner => .newChain (redirect read inner)
  | .firstRecord inner => .firstRecord (redirect read inner)
  | .prependRecord chain record => .prependRecord (redirect read chain) (redirect read record)
  | .literal value => .literal value
  | .this => .this
  | .name name => .name name
  | .newRecord type => .newRecord type

/-- The expressions with every `field` replaced. -/
def redirectAll (read : Expr) : List Expr → List Expr
  | [] => []
  | item :: rest => redirect read item :: redirectAll read rest

end

/-- The statement with `field` replaced, where it is assigned by one expression and elsewhere by
another. -/
def redirectStmt (read write : Expr) : Stmt → Stmt
  | .assign .backing value => .assign write (redirect read value)
  | .assign target value => .assign (redirect read target) (redirect read value)
  | .return value => .return (redirect read value)
  | .expr value => .expr (redirect read value)
  | .notifyCreated => .notifyCreated

end VersionedObjects.Framing
