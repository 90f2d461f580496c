import VersionedObjects.Declaration.TypeExpr
import VersionedObjects.Text.LetterCase

/-!
# Names and types in generated Rust

Members are named in snake case. A name that is a word of Rust is written raw, or with an
underscore after it where Rust admits no raw form.
-/

namespace VersionedObjects.Emission

open Declaration

/-- Words that may be written raw. -/
def rawWords : List String :=
  ["as", "async", "await", "break", "const", "continue", "dyn", "else", "enum", "extern",
    "false", "fn", "for", "if", "impl", "in", "let", "loop", "match", "mod", "move", "mut", "pub",
    "ref", "return", "static", "struct", "trait", "true", "type", "unsafe", "use", "where",
    "while", "yield", "box", "final", "macro", "override", "priv", "typeof", "unsized", "virtual"]

/-- Words that have no raw form. -/
def pathWords : List String :=
  ["crate", "self", "super"]

/-- The name in snake case, given whether a lower case letter or digit stands before it. -/
def snakeFrom (afterLower : Bool) : List Char → List Char
  | [] => []
  | c :: rest =>
    if Text.isUpper c then
      (if afterLower then ['_'] else []) ++ Text.toLower c ++ snakeFrom false rest
    else c :: snakeFrom (Text.isLower c || c.isDigit) rest

/-- The name in snake case: an underscore goes between a lower case letter or digit and an upper
case letter. -/
def snakeCase (name : String) : String :=
  String.ofList (snakeFrom false name.toList)

/-- The name as an identifier. -/
def identifier (name : String) : String :=
  let snake := snakeCase name
  if pathWords.contains snake then snake ++ "_"
  else if rawWords.contains snake then "r#" ++ snake
  else snake

/-- Values of the type are copied, not cloned. -/
def isCopied (type : TypeExpr) : Bool :=
  type.args.isEmpty && ["Int", "Long", "Double", "Float", "Boolean"].contains type.name

mutual

/-- The Rust spelling of a type. -/
def typeText : TypeExpr → String
  | .mk name args nullable =>
    let text :=
      match name, args with
      | "Int", _ | "Long", _ => "i64"
      | "Double", _ => "f64"
      | "Float", _ => "f32"
      | "Boolean", _ => "bool"
      | "String", _ => "String"
      | "List", [item] => "Vec<" ++ typeText item ++ ">"
      | name, [] => name
      | name, arg :: rest => name ++ "<" ++ typeText arg ++ typeTextMore rest ++ ">"
    if nullable then "Option<" ++ text ++ ">" else text

/-- Further type arguments, each after a comma. -/
def typeTextMore : List TypeExpr → String
  | [] => ""
  | arg :: rest => ", " ++ typeText arg ++ typeTextMore rest

end

end VersionedObjects.Emission
