import VersionedObjects.Declaration.ClassDecl
import VersionedObjects.Json.Basic

/-!
# Writing modules as JSON

Every member is written. How numbers with a fraction are written is up to the caller; literals
that are infinite have no JSON number and become null.
-/

namespace VersionedObjects.Declaration

open Number (Binary64)

/-- A list of items as JSON. -/
def jsonList {α : Type} (json : α → Json) (items : List α) : Json :=
  .array (items.map json)

/-- What may be absent as JSON. -/
def jsonOption {α : Type} (json : α → Json) : Option α → Json
  | some value => json value
  | none => .null

/-- An alternative with its content. -/
def jsonVariant (name : String) (content : Json) : Json :=
  .object [(name, content)]

mutual

/-- A type as JSON. -/
def TypeExpr.json : TypeExpr → Json
  | .mk name args nullable =>
    .object [("name", .string name), ("args", .array (TypeExpr.jsons args)),
      ("nullable", .bool nullable)]

/-- Types as JSON. -/
def TypeExpr.jsons : List TypeExpr → List Json
  | [] => []
  | type :: rest => type.json :: TypeExpr.jsons rest

end

/-- A literal as JSON. -/
def Literal.json (float : Binary64 → Json) : Literal → Json
  | .int n => jsonVariant "Int" (.int n.toInt)
  | .float x => jsonVariant "Float" (if x.isInfinite then .null else float x)
  | .bool b => jsonVariant "Bool" (.bool b)
  | .string s => jsonVariant "String" (.string s)
  | .null => .string "Null"

mutual

/-- An expression as JSON. -/
def Expr.json (float : Binary64 → Json) : Expr → Json
  | .literal value => jsonVariant "Literal" (value.json float)
  | .list items => jsonVariant "List" (.array (Expr.jsons float items))
  | .this => .string "This"
  | .name id => jsonVariant "Local" (.string id)
  | .backing => .string "BackingField"
  | .member target id =>
    jsonVariant "FieldGet" (.object [("target", target.json float), ("name", .string id)])
  | .readable chain owner =>
    jsonVariant "Readable"
      (.object [("chain", chain.json float), ("instance", owner.json float)])
  | .writable chain owner =>
    jsonVariant "Writable"
      (.object [("chain", chain.json float), ("instance", owner.json float)])
  | .cast expr type => jsonVariant "Cast" (.object [("expr", expr.json float), ("ty", type.json)])
  | .newRecord type => jsonVariant "NewRecord" type.json
  | .newChain initial => jsonVariant "NewChain" (initial.json float)
  | .firstRecord chain => jsonVariant "FirstRecord" (chain.json float)
  | .prependRecord chain record =>
    jsonVariant "PrependRecord"
      (.object [("chain", chain.json float), ("record", record.json float)])

/-- Expressions as JSON. -/
def Expr.jsons (float : Binary64 → Json) : List Expr → List Json
  | [] => []
  | expr :: rest => expr.json float :: Expr.jsons float rest

end

/-- A statement as JSON. -/
def Stmt.json (float : Binary64 → Json) : Stmt → Json
  | .return value => jsonVariant "Return" (value.json float)
  | .assign target value =>
    jsonVariant "Assign" (.object [("target", target.json float), ("value", value.json float)])
  | .expr value => jsonVariant "Expr" (value.json float)
  | .notifyCreated => .string "NotifyCreated"

/-- Statements as JSON. -/
def bodyJson (float : Binary64 → Json) : List Stmt → Json :=
  jsonList (Stmt.json float)

/-- An accessor as JSON. -/
def Accessor.json (float : Binary64 → Json) (a : Accessor) : Json :=
  .object [("param", jsonOption .string a.param), ("body", bodyJson float a.body)]

/-- A property as JSON. -/
def Property.json (float : Binary64 → Json) (p : Property) : Json :=
  .object
    [("name", .string p.name), ("ty", p.type.json), ("mutable", .bool p.mutable),
      ("initializer", jsonOption (Expr.json float) p.initializer),
      ("getter", jsonOption (Accessor.json float) p.getter),
      ("setter", jsonOption (Accessor.json float) p.setter)]

/-- A field as JSON. -/
def Field.json (f : Field) : Json :=
  .object [("name", .string f.name), ("ty", f.type.json), ("hidden", .bool f.isHidden)]

/-- A parameter as JSON. -/
def Parameter.json (p : Parameter) : Json :=
  .object [("name", .string p.name), ("ty", p.type.json)]

/-- A constructor as JSON. -/
def Constructor.json (float : Binary64 → Json) (c : Constructor) : Json :=
  .object
    [("params", jsonList Parameter.json c.params),
      ("super_call", jsonOption (jsonList (Expr.json float)) c.superCall),
      ("body", bodyJson float c.body)]

/-- A receiver as JSON. -/
def Receiver.json : Receiver → Json
  | .shared => .string "ref"
  | .mutable => .string "mut"
  | .absent => .string "none"

/-- A method as JSON. -/
def Method.json (float : Binary64 → Json) (m : Method) : Json :=
  .object
    [("name", .string m.name), ("params", jsonList Parameter.json m.params),
      ("returns", jsonOption TypeExpr.json m.returns), ("body", bodyJson float m.body),
      ("implements", jsonOption .string m.implements), ("receiver", m.receiver.json)]

/-- An origin as JSON. -/
def Origin.json : Origin → Json
  | .declared => .string "declared"
  | .recordOf i => jsonVariant "synthetic_record" (.object [("host_index", .int i)])

/-- A class as JSON. -/
def ClassDecl.json (float : Binary64 → Json) (c : ClassDecl) : Json :=
  .object
    [("name", .string c.name), ("annotations", jsonList .string c.annotations),
      ("supertypes", jsonList TypeExpr.json c.supertypes),
      ("properties", jsonList (Property.json float) c.properties),
      ("fields", jsonList Field.json c.fields),
      ("constructors", jsonList (Constructor.json float) c.constructors),
      ("methods", jsonList (Method.json float) c.methods),
      ("initializers", jsonList (bodyJson float) c.initializers), ("origin", c.origin.json)]

/-- A module as JSON. -/
def Module.json (float : Binary64 → Json) (m : Module) : Json :=
  .object [("classes", jsonList (ClassDecl.json float) m.classes)]

end VersionedObjects.Declaration
