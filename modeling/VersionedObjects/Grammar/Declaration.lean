import VersionedObjects.Grammar.Token
import VersionedObjects.Declaration.ClassDecl

/-!
# The grammar of declarations

```text
module    = {class} end
class     = {"@" ident} "class" ident [":" type {"," type}] "{" {property} "}"
property  = ("var" | "val") ident ":" type ["=" expr] [getter] [setter]
getter    = "get" "(" ")" ("=" expr | block)
setter    = "set" "(" ident ")" block
block     = "{" {stmt [";"]} "}"
stmt      = "return" expr | expr "=" expr | expr
expr      = primary {"." ident}
primary   = literal | "[" [expr {"," expr}] "]" | "this" | "field" | ident
type      = ident ["<" type {"," type} ">"] ["?"]
```

Types and expressions nest no deeper than the text is long, so a depth of one more than its
length reads everything.
-/

namespace VersionedObjects.Grammar

open Declaration
open Reader

/-- Reads a type of a depth. -/
def type : Nat → Reader TypeExpr
  | 0 => fail
  | depth + 1 => do
    let name ← spaced identifier
    let args ← optional do
      symbol '<'
      let args ← sepBy₁ (symbol ',') (type depth)
      commit (symbol '>')
      return args
    let nullable ← optional (char '?')
    return .mk name (args.getD []) nullable.isSome

/-- Reads a dot and an identifier. -/
def pathStep : Reader String := do
  char '.'
  identifier

/-- Reads an expression of a depth. -/
def expr : Nat → Reader Expr
  | 0 => fail
  | depth + 1 => do
    let head ← spaced <|
      orElse (do return .literal (← literal)) <|
      orElse (do
        char '['
        let items ← sepBy (symbol ',') (expr depth)
        commit (symbol ']')
        return .list items) <|
      orElse (do keyword "this"; return .this) <|
      orElse (do keyword "field"; return .backing)
        (do return .name (← identifier))
    let path ← many pathStep
    return path.foldl .member head

/-- An assignment may change the expression. -/
def isAssignable : Expr → Bool
  | .backing | .name _ | .member .. => true
  | _ => false

/-- Reads a statement with expressions of a depth. -/
def stmt (depth : Nat) : Reader Stmt := do
  let stmt ← spaced <|
    orElse (do
      keyword "return"
      return .return (← commit (expr depth))) <|
    orElse (do
      let target ← filter (expr depth) isAssignable
      symbol '='
      return .assign target (← commit (expr depth)))
      (do return .expr (← expr depth))
  let _ ← optional (symbol ';')
  return stmt

/-- Reads statements in braces. -/
def block (depth : Nat) : Reader (List Stmt) := do
  symbol '\x7b'
  let body ← many (stmt depth)
  commit (symbol '\x7d')
  return body

/-- Reads a getter. -/
def getter (depth : Nat) : Reader Accessor := do
  spaced (keyword "get")
  commit do
    symbol '('
    symbol ')'
  let body ← within "getter body" <| commit <|
    orElse (do
      symbol '='
      return [.return (← expr depth)])
      (block depth)
  return { body }

/-- Reads a setter. -/
def setter (depth : Nat) : Reader Accessor := do
  spaced (keyword "set")
  let param ← commit do
    symbol '('
    let param ← spaced identifier
    symbol ')'
    return param
  let body ← within "setter body" (commit (block depth))
  return { param := some param, body }

/-- Reads a property. -/
def property (depth : Nat) : Reader Property := do
  let mutable ← spaced <|
    orElse (do keyword "var"; return true) (do keyword "val"; return false)
  let name ← within "property name" (commit (spaced identifier))
  let type ← within "property type" <| commit do
    symbol ':'
    type depth
  let initializer ← optional do
    symbol '='
    commit (expr depth)
  let getter ← optional (getter depth)
  let setter ← optional (setter depth)
  return { name, type, mutable, initializer, getter, setter }

/-- Reads a class. -/
def classDecl (depth : Nat) : Reader ClassDecl := do
  let annotations ← many do
    symbol '@'
    identifier
  spaced (keyword "class")
  let name ← within "class name" (commit (spaced identifier))
  let supertypes ← optional do
    symbol ':'
    commit (sepBy₁ (symbol ',') (type depth))
  let properties ← within "class body" <| commit do
    symbol '\x7b'
    let properties ← many (property depth)
    symbol '\x7d'
    return properties
  return { name, annotations, supertypes := supertypes.getD [], properties }

/-- Reads nothing at the end of the text. -/
def endOfText : Reader Unit
  | [] => .done () []
  | s => .miss (.here s)

/-- Reads a module and the end of the text. -/
def module (depth : Nat) : Reader Module := do
  let classes ← many (classDecl depth)
  within "class declaration" (spaced endOfText)
  return { classes }

/-- Reads an expression and the end of the text. -/
def wholeExpr (depth : Nat) : Reader Expr := do
  let value ← expr depth
  within "end of expression" (spaced endOfText)
  return value

end VersionedObjects.Grammar
