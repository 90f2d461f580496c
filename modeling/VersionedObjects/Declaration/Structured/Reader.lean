import VersionedObjects.Declaration.ClassDecl
import VersionedObjects.Json.Reader

/-!
# Reading modules as JSON

Structures are objects whose unknown members are skipped, or arrays of their members in order.
Alternatives are a name, or an object with the name and the content. Readable values nest less
deep than the limit of the reader, so that limit bounds the recursion.
-/

namespace VersionedObjects.Declaration

open Json (required? defaulted? unit?)

/-- A type. -/
def TypeExpr.ofJson? : Nat → Json → Option TypeExpr
  | 0, _ => none
  | depth + 1, json => do
    match ← json.structure? ["name", "args", "nullable"] with
    | [name, args, nullable] =>
      return .mk (← required? Json.string? name)
        (← defaulted? [] (Json.list? (ofJson? depth)) args)
        (← defaulted? false Json.bool? nullable)
    | _ => none

/-- A literal. -/
def Literal.ofJson? (json : Json) : Option Literal := do
  match ← json.variant? with
  | ("Int", some content) => return .int (← content.int64?)
  | ("Float", some content) => return .float (← content.float?)
  | ("Bool", some content) => return .bool (← content.bool?)
  | ("String", some content) => return .string (← content.string?)
  | ("Null", content) =>
    let _ ← unit? content
    return .null
  | _ => none

/-- An expression. -/
def Expr.ofJson? : Nat → Json → Option Expr
  | 0, _ => none
  | depth + 1, json => do
    let pair (names : List String) (content : Json) : Option (Option Json × Option Json) := do
      match ← content.structure? names with
      | [a, b] => return (a, b)
      | _ => none
    match ← json.variant? with
    | ("Literal", some content) => return .literal (← Literal.ofJson? content)
    | ("List", some content) => return .list (← content.list? (ofJson? depth))
    | ("This", content) =>
      let _ ← unit? content
      return .this
    | ("Local", some content) => return .name (← content.string?)
    | ("BackingField", content) =>
      let _ ← unit? content
      return .backing
    | ("FieldGet", some content) =>
      let (target, id) ← pair ["target", "name"] content
      return .member (← required? (ofJson? depth) target) (← required? Json.string? id)
    | ("Readable", some content) =>
      let (chain, owner) ← pair ["chain", "instance"] content
      return .readable (← required? (ofJson? depth) chain) (← required? (ofJson? depth) owner)
    | ("Writable", some content) =>
      let (chain, owner) ← pair ["chain", "instance"] content
      return .writable (← required? (ofJson? depth) chain) (← required? (ofJson? depth) owner)
    | ("Cast", some content) =>
      let (expr, type) ← pair ["expr", "ty"] content
      return .cast (← required? (ofJson? depth) expr)
        (← required? (TypeExpr.ofJson? Json.depthLimit) type)
    | ("NewRecord", some content) => return .newRecord (← TypeExpr.ofJson? Json.depthLimit content)
    | ("NewChain", some content) => return .newChain (← ofJson? depth content)
    | ("FirstRecord", some content) => return .firstRecord (← ofJson? depth content)
    | ("PrependRecord", some content) =>
      let (chain, record) ← pair ["chain", "record"] content
      return .prependRecord (← required? (ofJson? depth) chain)
        (← required? (ofJson? depth) record)
    | _ => none

/-- A type at any readable depth. -/
def type? : Json → Option TypeExpr :=
  TypeExpr.ofJson? Json.depthLimit

/-- An expression at any readable depth. -/
def expr? : Json → Option Expr :=
  Expr.ofJson? Json.depthLimit

/-- A statement. -/
def Stmt.ofJson? (json : Json) : Option Stmt := do
  match ← json.variant? with
  | ("Return", some content) => return .return (← expr? content)
  | ("Assign", some content) =>
    match ← content.structure? ["target", "value"] with
    | [target, value] => return .assign (← required? expr? target) (← required? expr? value)
    | _ => none
  | ("Expr", some content) => return .expr (← expr? content)
  | ("NotifyCreated", content) =>
    let _ ← unit? content
    return .notifyCreated
  | _ => none

/-- Statements in order. -/
def body? : Json → Option (List Stmt) :=
  Json.list? Stmt.ofJson?

/-- An accessor. -/
def Accessor.ofJson? (json : Json) : Option Accessor := do
  match ← json.structure? ["param", "body"] with
  | [param, body] =>
    return { param := ← defaulted? none (Json.option? Json.string?) param
             body := ← required? body? body }
  | _ => none

/-- A property. -/
def Property.ofJson? (json : Json) : Option Property := do
  match ← json.structure? ["name", "ty", "mutable", "initializer", "getter", "setter"] with
  | [name, type, mutable, initializer, getter, setter] =>
    return { name := ← required? Json.string? name
             type := ← required? type? type
             mutable := ← required? Json.bool? mutable
             initializer := ← defaulted? none (Json.option? expr?) initializer
             getter := ← defaulted? none (Json.option? Accessor.ofJson?) getter
             setter := ← defaulted? none (Json.option? Accessor.ofJson?) setter }
  | _ => none

/-- A field. -/
def Field.ofJson? (json : Json) : Option Field := do
  match ← json.structure? ["name", "ty", "hidden"] with
  | [name, type, isHidden] =>
    return { name := ← required? Json.string? name
             type := ← required? type? type
             isHidden := ← defaulted? false Json.bool? isHidden }
  | _ => none

/-- A parameter. -/
def Parameter.ofJson? (json : Json) : Option Parameter := do
  match ← json.structure? ["name", "ty"] with
  | [name, type] =>
    return { name := ← required? Json.string? name, type := ← required? type? type }
  | _ => none

/-- A constructor. -/
def Constructor.ofJson? (json : Json) : Option Constructor := do
  match ← json.structure? ["params", "super_call", "body"] with
  | [params, superCall, body] =>
    return { params := ← defaulted? [] (Json.list? Parameter.ofJson?) params
             superCall := ← defaulted? none (Json.option? (Json.list? expr?)) superCall
             body := ← defaulted? [] body? body }
  | _ => none

/-- A receiver. -/
def Receiver.ofJson? (json : Json) : Option Receiver := do
  let (name, content) ← json.variant?
  let _ ← unit? content
  match name with
  | "ref" => return .shared
  | "mut" => return .mutable
  | "none" => return .absent
  | _ => none

/-- A method. -/
def Method.ofJson? (json : Json) : Option Method := do
  match ← json.structure? ["name", "params", "returns", "body", "implements", "receiver"] with
  | [name, params, returns, body, implements, receiver] =>
    return { name := ← required? Json.string? name
             params := ← defaulted? [] (Json.list? Parameter.ofJson?) params
             returns := ← defaulted? none (Json.option? type?) returns
             body := ← required? body? body
             implements := ← defaulted? none (Json.option? Json.string?) implements
             receiver := ← defaulted? .shared Receiver.ofJson? receiver }
  | _ => none

/-- An origin. -/
def Origin.ofJson? (json : Json) : Option Origin := do
  match ← json.variant? with
  | ("declared", content) =>
    let _ ← unit? content
    return .declared
  | ("synthetic_record", some content) =>
    match ← content.structure? ["host_index"] with
    | [hostIndex] => return .recordOf (← required? Json.nat? hostIndex)
    | _ => none
  | _ => none

/-- A class. -/
def ClassDecl.ofJson? (json : Json) : Option ClassDecl := do
  match ← json.structure? ["name", "annotations", "supertypes", "properties", "fields",
      "constructors", "methods", "initializers", "origin"] with
  | [name, annotations, supertypes, properties, fields, constructors, methods, initializers,
      origin] =>
    return { name := ← required? Json.string? name
             annotations := ← defaulted? [] (Json.list? Json.string?) annotations
             supertypes := ← defaulted? [] (Json.list? type?) supertypes
             properties := ← defaulted? [] (Json.list? Property.ofJson?) properties
             fields := ← defaulted? [] (Json.list? Field.ofJson?) fields
             constructors := ← defaulted? [] (Json.list? Constructor.ofJson?) constructors
             methods := ← defaulted? [] (Json.list? Method.ofJson?) methods
             initializers := ← defaulted? [] (Json.list? body?) initializers
             origin := ← defaulted? .declared Origin.ofJson? origin }
  | _ => none

/-- A module. -/
def Module.ofJson? (json : Json) : Option Module := do
  match ← json.structure? ["classes"] with
  | [classes] => return { classes := ← defaulted? [] (Json.list? ClassDecl.ofJson?) classes }
  | _ => none

/-- The module that a JSON text denotes. -/
def Module.ofJsonText? (text : String) : Option Module := do
  Module.ofJson? (← Json.parse? text)

end VersionedObjects.Declaration
