/-!
# Items of generated Rust

Generated code is a list of items: structures and blocks of functions. The items are printed here
and nowhere else, with a blank line between any two and between the parts of a block.
-/

namespace VersionedObjects.Emission

/-- A field of a structure. -/
structure StructField where
  isPublic : Bool := false
  name : String
  type : String
  deriving DecidableEq, Inhabited, Repr

/-- A function; the lines of its body have their indentation. -/
structure Function where
  doc : Option String := none
  isPublic : Bool := true
  name : String
  params : List String
  result : Option String := none
  body : List String
  deriving DecidableEq, Inhabited, Repr

/-- An item. -/
inductive Item where
  /-- A structure with the lines before it. -/
  | structure (lines : List String) (name : String) (fields : List StructField)
  /-- A block of functions, with an associated type first if there is one. -/
  | block (header : String) (type : Option (String × String)) (functions : List Function)
  deriving DecidableEq, Inhabited, Repr

/-- The lines as text. -/
def linesText (lines : List String) : String :=
  String.join (lines.map (· ++ "\n"))

/-- The field as a line. -/
def StructField.line (f : StructField) : String :=
  "    " ++ (if f.isPublic then "pub " else "") ++ f.name ++ ": " ++ f.type ++ ","

/-- The function as text. -/
def Function.text (f : Function) : String :=
  (f.doc.elim "" fun doc => "    /// " ++ doc ++ "\n") ++
    "    " ++ (if f.isPublic then "pub " else "") ++ "fn " ++ f.name ++ "(" ++
    String.intercalate ", " f.params ++ ")" ++ (f.result.elim "" (" -> " ++ ·)) ++ " \x7b\n" ++
    linesText f.body ++ "    \x7d\n"

/-- The item as text. -/
def Item.text : Item → String
  | .structure lines name fields =>
    linesText lines ++ "pub struct " ++ name ++ " \x7b\n" ++ linesText (fields.map (·.line)) ++
      "\x7d\n"
  | .block header type functions =>
    let typeLine := type.map fun (name, value) => "    type " ++ name ++ " = " ++ value ++ ";\n"
    "impl " ++ header ++ " \x7b\n" ++
      String.intercalate "\n" (typeLine.toList ++ functions.map (·.text)) ++ "\x7d\n"

end VersionedObjects.Emission
