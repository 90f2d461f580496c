import VersionedObjects.Declaration.Printer

/-!
# Values

What the properties of loaded classes hold. A value prints in declaration syntax.
-/

namespace VersionedObjects.Dynamic

open Declaration
open Number (Binary64)

/-- A value of a property. -/
inductive Value where
  | null
  | bool (value : Bool)
  | int (value : Int64)
  | float (value : Binary64)
  | string (value : String)
  | list (items : List Value)
  deriving Inhabited, Repr

namespace Value

mutual

/-- Values compare by structure, floating point numbers as numbers. -/
def beq : Value → Value → Bool
  | null, null => true
  | bool a, bool b => a == b
  | int a, int b => a == b
  | float a, float b => a == b
  | string a, string b => a == b
  | list as, list bs => beqList as bs
  | _, _ => false

/-- Lists compare item by item. -/
def beqList : List Value → List Value → Bool
  | [], [] => true
  | a :: as, b :: bs => beq a b && beqList as bs
  | _, _ => false

end

instance : BEq Value := ⟨beq⟩

/-- The value of a literal. -/
def ofLiteral : Literal → Value
  | .int value => int value
  | .float value => float value
  | .bool value => bool value
  | .string value => string value
  | .null => null

/-- The name of the value's type. -/
def typeName : Value → String
  | null => "Null"
  | bool _ => "Boolean"
  | int _ => "Int"
  | float _ => "Double"
  | string _ => "String"
  | list _ => "List"

mutual

/-- The value in declaration syntax. -/
def text : Value → String
  | null => "null"
  | bool value => if value then "true" else "false"
  | int value => toString value.toInt
  | float value => value.text
  | string value => Text.quote value
  | list [] => "[]"
  | list (item :: rest) => "[" ++ item.text ++ textMore rest ++ "]"

/-- Further items of a list, each after a comma. -/
def textMore : List Value → String
  | [] => ""
  | item :: rest => ", " ++ item.text ++ textMore rest

end

/-- The value that a fresh property of a type holds. -/
def zeroOf (type : TypeExpr) : Value :=
  if type.nullable then null
  else
    match type.name with
    | "Int" | "Long" => int 0
    | "Double" | "Float" => float Binary64.zero
    | "Boolean" => bool false
    | "String" => string ""
    | "List" => list []
    | _ => null

/-- The names of the types whose values are checked. -/
def checkedTypes : List String :=
  ["Int", "Long", "Double", "Float", "Boolean", "String", "List"]

mutual

/-- The value may be stored in a property of the type. Types that are not built in admit every
value but null. -/
def conforms : Value → TypeExpr → Bool
  | null, type => type.nullable
  | int _, type => ["Int", "Long"].contains type.name || !checkedTypes.contains type.name
  | float _, type => ["Double", "Float"].contains type.name || !checkedTypes.contains type.name
  | bool _, type => type.name == "Boolean" || !checkedTypes.contains type.name
  | string _, type => type.name == "String" || !checkedTypes.contains type.name
  | list items, type =>
    if type.name == "List" then
      match type.args with
      | item :: _ => allConform items item
      | [] => true
    else !checkedTypes.contains type.name

/-- Every value may be stored in a property of the type. -/
def allConform : List Value → TypeExpr → Bool
  | [], _ => true
  | value :: rest, type => value.conforms type && allConform rest type

end

end Value

/-! ## Records -/

/-- The values of the framed properties of a class, in order. -/
abbrev Slots := List Value

namespace Slots

/-- A fresh record of properties of given types. -/
def ofTypes (types : List TypeExpr) : Slots :=
  types.map Value.zeroOf

/-- The value of a slot, null where there is none. -/
def slot (s : Slots) (i : Nat) : Value :=
  s[i]?.getD .null

/-- Stores a value in a slot; missing slots before it become null. -/
def store (s : Slots) (i : Nat) (value : Value) : Slots :=
  (s ++ List.replicate (i + 1 - s.length) Value.null).set i value

/-- Merges one slot: what one side left alone follows the other side. -/
def mergeSlot (mine base theirs : Value) : Option Value :=
  if mine == theirs || mine == base then some theirs
  else if theirs == base then some mine
  else none

/-- Merges records slot by slot; a slot that both sides changed to different values is a
conflict. -/
def merge (mine base theirs : Slots) : Option Slots :=
  (List.range (max mine.length theirs.length)).mapM fun i =>
    mergeSlot (mine.slot i) (base.slot i) (theirs.slot i)

end Slots

end VersionedObjects.Dynamic
