/-!
# Showing structures

Data is shown for debugging as a tree on one line: names with fields, names with items, lists,
sets and maps.
-/

namespace VersionedObjects.Inspection

/-- Data as it is shown. -/
inductive Shown where
  | atom (text : String)
  /-- A name with items, as in `Some(1)`. -/
  | tuple (name : String) (items : List Shown)
  /-- A name with named fields. -/
  | fields (name : String) (fields : List (String × Shown))
  | list (items : List Shown)
  | set (items : List Shown)
  | map (entries : List (String × Shown))
  deriving Inhabited, Repr

namespace Shown

mutual

/-- The tree on one line. -/
def line : Shown → String
  | atom text => text
  | tuple name items => name ++ "(" ++ itemsLine items ++ ")"
  | fields name [] => name
  | fields name entries => name ++ " \x7b " ++ fieldsLine entries ++ " \x7d"
  | list items => "[" ++ itemsLine items ++ "]"
  | set items => "\x7b" ++ itemsLine items ++ "\x7d"
  | map entries => "\x7b" ++ fieldsLine entries ++ "\x7d"

/-- Items with commas between them. -/
def itemsLine : List Shown → String
  | [] => ""
  | [item] => item.line
  | item :: rest => item.line ++ ", " ++ itemsLine rest

/-- Names with what they stand for, with commas between them. -/
def fieldsLine : List (String × Shown) → String
  | [] => ""
  | [(name, value)] => name ++ ": " ++ value.line
  | (name, value) :: rest => name ++ ": " ++ value.line ++ ", " ++ fieldsLine rest

end

/-- A truth value. -/
def ofBool (b : Bool) : Shown :=
  atom (if b then "true" else "false")

/-- A number. -/
def ofNat (n : Nat) : Shown :=
  atom (toString n)

/-- What may be absent. -/
def ofOption : Option Shown → Shown
  | none => atom "None"
  | some value => tuple "Some" [value]

end Shown

end VersionedObjects.Inspection
