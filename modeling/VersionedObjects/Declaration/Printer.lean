import VersionedObjects.Declaration.ClassDecl
import VersionedObjects.Number.Layout
import VersionedObjects.Text.Quoted

/-!
# Declarations as text

Prints modules in declaration syntax. What a source cannot declare (fields, constructors, methods,
initializer blocks and operations on records) is printed for inspection.
-/

namespace VersionedObjects.Declaration

open Text (quote)

/-- The texts with `, ` between them. -/
def commaSeparated (texts : List String) : String :=
  String.intercalate ", " texts

/-- The literal in declaration syntax. -/
def Literal.text : Literal → String
  | .int value => toString value.toInt
  | .float value => value.text
  | .bool value => if value then "true" else "false"
  | .string value => quote value
  | .null => "null"

namespace Expr

mutual

/-- The expression in declaration syntax. -/
def text : Expr → String
  | literal value => value.text
  | list [] => "[]"
  | list (item :: rest) => "[" ++ item.text ++ textMore rest ++ "]"
  | this => "this"
  | name id => id
  | backing => "field"
  | member target id => target.text ++ "." ++ id
  | readable chain owner => "_readable(" ++ chain.text ++ ", " ++ owner.text ++ ")"
  | writable chain owner => "_writable(" ++ chain.text ++ ", " ++ owner.text ++ ")"
  | cast expr type => "(" ++ expr.text ++ " as " ++ type.text ++ ")"
  | newRecord type => type.text ++ "()"
  | newChain initial => "_newChain(" ++ initial.text ++ ")"
  | firstRecord chain => "_first(" ++ chain.text ++ ")"
  | prependRecord chain record => "_prepend(" ++ chain.text ++ ", " ++ record.text ++ ")"

/-- Further items of a list, each after a comma. -/
def textMore : List Expr → String
  | [] => ""
  | item :: rest => ", " ++ item.text ++ textMore rest

end

end Expr

/-- The statement in declaration syntax. -/
def Stmt.text : Stmt → String
  | .return value => "return " ++ value.text
  | .assign target value => target.text ++ " = " ++ value.text
  | .expr value => value.text
  | .notifyCreated => "_notifyCreated(this)"

/-- A block of statements, one on a line, closed at the given indentation. -/
def blockText (body : List Stmt) (indent : String) : String :=
  "\x7b\n" ++ String.join (body.map fun stmt => indent ++ "  " ++ stmt.text ++ "\n") ++ indent ++
    "\x7d"

/-- The parameter in declaration syntax. -/
def Parameter.text (p : Parameter) : String :=
  p.name ++ ": " ++ p.type.text

/-- The property in declaration syntax. -/
def Property.text (p : Property) : String :=
  (if p.mutable then "var" else "val") ++ " " ++ p.name ++ ": " ++ p.type.text ++
    (p.initializer.elim "" fun value => " = " ++ value.text) ++
    (p.getter.elim "" fun getter => "\n    get() " ++ blockText getter.body "    ") ++
    (p.setter.elim "" fun setter =>
      "\n    set(" ++ setter.param.getD "value" ++ ") " ++ blockText setter.body "    ")

/-- The field as printed for inspection. -/
def Field.text (f : Field) : String :=
  (if f.isHidden then "hidden " else "") ++ "field " ++ f.name ++ ": " ++ f.type.text

/-- The constructor as printed for inspection. -/
def Constructor.text (c : Constructor) : String :=
  "constructor(" ++ commaSeparated (c.params.map (·.text)) ++ ")" ++
    (c.superCall.elim "" fun args => " : super(" ++ commaSeparated (args.map (·.text)) ++ ")") ++
    " " ++ blockText c.body "  "

/-- The method as printed for inspection. -/
def Method.text (m : Method) : String :=
  "fun " ++ m.name ++ "(" ++ commaSeparated (m.params.map (·.text)) ++ ")" ++
    (m.returns.elim "" fun type => ": " ++ type.text) ++ " " ++ blockText m.body "  "

/-- The class in declaration syntax. -/
def ClassDecl.text (c : ClassDecl) : String :=
  let line (text : String) : String := "  " ++ text ++ "\n"
  String.join (c.annotations.map fun mark => "@" ++ mark ++ "\n") ++
    "class " ++ c.name ++
    (if c.supertypes.isEmpty then ""
     else " : " ++ commaSeparated (c.supertypes.map (·.text))) ++
    " \x7b\n" ++
    String.join (c.fields.map fun f => line f.text) ++
    String.join (c.properties.map fun p => line p.text) ++
    String.join (c.constructors.map fun k => line k.text) ++
    String.join (c.initializers.map fun block => line ("init " ++ blockText block "  ")) ++
    String.join (c.methods.map fun m => line m.text) ++
    "\x7d"

/-- The module in declaration syntax: its classes with a blank line between them. -/
def Module.text (m : Module) : String :=
  String.intercalate "\n\n" (m.classes.map (·.text))

end VersionedObjects.Declaration
