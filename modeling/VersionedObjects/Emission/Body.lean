import VersionedObjects.Association
import VersionedObjects.Declaration.Printer
import VersionedObjects.Emission.Identifier

/-!
# Bodies of generated Rust

Statements and expressions in the scope of a class: what `this` and `field` mean, the types of
members, and which of them live in records. Record handles are locked where a member is accessed;
members that are not copied are cloned where their value is taken.
-/

namespace VersionedObjects.Emission

open Declaration

/-- Why no code could be generated. -/
inductive EmitError where
  | missingRecordType (host record : String)
  | unsupported (className detail : String)
  deriving DecidableEq, Inhabited, Repr

/-- The error as text. -/
def EmitError.text : EmitError → String
  | missingRecordType host record =>
    host ++ " is framed but its record type " ++ record ++ " is not in the module"
  | unsupported className detail => className ++ ": cannot render " ++ detail

/-- A computation that may find no code. -/
abbrev EmitM := Except EmitError

/-- The scope of a body. -/
structure Scope where
  className : String
  /-- What `this` is called. -/
  receiver : String := "self"
  /-- The property whose accessor the body is. -/
  property : Option String := none
  types : Association TypeExpr
  /-- The members that live in records. -/
  framed : List String := []

namespace Scope

/-- The access goes to a member that lives in records. -/
def isFramedAccess (s : Scope) (target : Expr) (name : String) : Bool :=
  target.isThis && s.framed.contains name

/-- The failure on something that has no code. -/
def unsupported {β : Type} (s : Scope) (detail : String) : EmitM β :=
  .error (.unsupported s.className detail)

/-- The member that `field` stands for. -/
def backingPlace (s : Scope) : EmitM String :=
  match s.property with
  | some property => .ok (s.receiver ++ "." ++ identifier property)
  | none => s.unsupported "field outside an accessor"

end Scope

/-- The code of a literal. -/
def literalText : Literal → String
  | .string value => "String::from(" ++ Text.quote value ++ ")"
  | .null => "None"
  | literal => literal.text

/-- The expression without casts around it. -/
def stripCast : Expr → Expr
  | .cast expr _ => stripCast expr
  | expr => expr

/-- What follows a target to lock its record. -/
def lockSuffix (target : Expr) (write : Bool) : String :=
  match stripCast target with
  | .readable .. => ".read()"
  | .writable .. => ".write()"
  | .firstRecord _ => if write then ".write()" else ".read()"
  | _ => ""

/-- The type of the member that an expression moves out of its place. -/
def movedType? (s : Scope) : Expr → Option TypeExpr
  | .member target name => if s.isFramedAccess target name then none else s.types.get? name
  | .backing => s.property.bind s.types.get?
  | _ => none

/-- The code for the value of an expression, given its code: members are cloned unless copied. -/
def valueText (s : Scope) (expr : Expr) (code : String) : String :=
  match movedType? s expr with
  | some type => if isCopied type then code else code ++ ".clone()"
  | none => code

mutual

/-- The code of an expression. -/
def exprText (s : Scope) : Expr → EmitM String
  | .literal value => .ok (literalText value)
  | .list items => do
    return "vec![" ++ commaSeparated (← valueTexts s items) ++ "]"
  | .this => .ok s.receiver
  | .name id => .ok (identifier id)
  | .backing => s.backingPlace
  | .member target id => do
    let code ← exprText s target
    if id = recordField then return code ++ ".frame_record"
    else if s.isFramedAccess target id then return code ++ "." ++ identifier id ++ "()"
    else return code ++ lockSuffix target false ++ "." ++ identifier id
  | .readable chain owner => do
    return "readable(&" ++ (← exprText s chain) ++ ", " ++ (← exprText s owner) ++ ")"
  | .writable chain owner => do
    return "writable(&" ++ (← exprText s chain) ++ ", " ++ (← exprText s owner) ++ ")"
  | .cast expr _ => exprText s expr
  | .newRecord type => .ok (typeText type ++ "::default()")
  | .newChain initial => do
    return "RecordChain::new_in(manager, \"" ++ s.className ++ "\", " ++ (← exprText s initial) ++
      ")"
  | .firstRecord chain => do return (← exprText s chain) ++ ".first_record()"
  | .prependRecord chain record => do
    return (← exprText s chain) ++ ".prepend(" ++ (← exprText s record) ++ ")"

/-- The code for the values of expressions. -/
def valueTexts (s : Scope) : List Expr → EmitM (List String)
  | [] => .ok []
  | item :: rest => do
    let code ← exprText s item
    return valueText s item code :: (← valueTexts s rest)

end

/-- A value of a nullable type is wrapped where it is written as a literal or list. -/
def needsSome (expr : Expr) (expected : Option TypeExpr) : Bool :=
  expected.any (·.nullable) &&
    match expr with
    | .literal .null => false
    | .literal _ | .list _ => true
    | _ => false

/-- The code for the value of an expression where a type is expected. -/
def value (s : Scope) (expr : Expr) (expected : Option TypeExpr) : EmitM String := do
  let code := valueText s expr (← exprText s expr)
  return if needsSome expr expected then "Some(" ++ code ++ ")" else code

/-- The code of an assignment target. -/
def placeText (s : Scope) : Expr → EmitM String
  | .backing => s.backingPlace
  | .name id => .ok (identifier id)
  | .member target id => do
    return (← exprText s target) ++ lockSuffix target true ++ "." ++ identifier id
  | other => s.unsupported ("assignment to " ++ other.text)

/-- The type of an assignment target. -/
def placeType? (s : Scope) : Expr → Option TypeExpr
  | .member _ id => s.types.get? id
  | .backing => s.property.bind s.types.get?
  | _ => none

/-- The code of an assignment. Members that live in records are set by their setters. -/
def assignText (s : Scope) (target expr : Expr) : EmitM String := do
  let plain : EmitM String := do
    let place ← placeText s target
    return place ++ " = " ++ (← value s expr (placeType? s target)) ++ ";"
  match target with
  | .member owner id =>
    if s.isFramedAccess owner id then
      let code ← exprText s owner
      return code ++ ".set_" ++ snakeCase id ++ "(" ++ (← value s expr (s.types.get? id)) ++ ");"
    else plain
  | _ => plain

/-- The code of a statement; the last one of a body leaves its value without `return`. -/
def stmtText (s : Scope) (isLast : Bool) : Stmt → EmitM String
  | .return expr => do
    let code ← value s expr none
    return if isLast then code else "return " ++ code ++ ";"
  | .assign target expr => assignText s target expr
  | .expr expr => do return (← exprText s expr) ++ ";"
  | .notifyCreated => .ok ("notify_created(&" ++ s.receiver ++ ");")

/-- The indentation of statements. -/
def indentation : String := "        "

/-- The lines of a body. -/
def bodyLines (s : Scope) : List Stmt → EmitM (List String)
  | [] => .ok []
  | stmt :: rest => do
    let line ← stmtText s rest.isEmpty stmt
    return (indentation ++ line) :: (← bodyLines s rest)

/-- The lines of statements that something follows. -/
def stmtLines (s : Scope) (stmts : List Stmt) : EmitM (List String) :=
  stmts.mapM fun stmt => return indentation ++ (← stmtText s false stmt)

end VersionedObjects.Emission
