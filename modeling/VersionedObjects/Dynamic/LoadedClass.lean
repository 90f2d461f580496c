import VersionedObjects.Dynamic.EvalError

/-!
# Loaded classes

A class ready for use: its declaration after framing and the layout of its records.
-/

namespace VersionedObjects.Dynamic

open Declaration

/-- A class from which instances are made. -/
structure LoadedClass where
  decl : ClassDecl
  /-- The record type of a framed class. -/
  record : Option ClassDecl
  /-- The types of the record's slots by property, in order. -/
  layout : Association TypeExpr
  deriving Inhabited

namespace LoadedClass

/-- The name of the class. -/
def name (c : LoadedClass) : String :=
  c.decl.name

/-- The class keeps a record chain. -/
def isFramed (c : LoadedClass) : Bool :=
  c.record.isSome

/-- The slot of a property. -/
def slot? (c : LoadedClass) (property : String) : Option Nat :=
  c.layout.position? property

/-- A fresh record. -/
def freshRecord (c : LoadedClass) : Slots :=
  .ofTypes (c.layout.map (·.2))

/-- The slots that the fields of a record type give. -/
def layoutOf (record : Option ClassDecl) : Association TypeExpr :=
  .ofPairs ((record.elim [] (·.fields)).map fun f => (f.name, f.type))

/-- A declared class with the record type that its module has for it. -/
def ofModule (m : Module) (decl : ClassDecl) : Except EvalError LoadedClass :=
  match decl.field? recordField with
  | none => .ok { decl, record := none, layout := layoutOf none }
  | some field =>
    match m.class? field.type.name with
    | some record => .ok { decl, record := some record, layout := layoutOf (some record) }
    | none => .error (.load (decl.name ++ " is framed but " ++ field.type.name ++ " is missing"))

end LoadedClass

/-- Loaded classes by name. -/
abbrev ClassTable := Association LoadedClass

/-- Loads the declared classes of a framed module in order, up to the first that fails; the names
of the loaded classes, and the table as far as it came. -/
def ClassTable.load (table : ClassTable) (m : Module) :
    List ClassDecl → Except EvalError (List String) × ClassTable
  | [] => (.ok [], table)
  | decl :: rest =>
    if decl.origin != .declared then table.load m rest
    else
      match LoadedClass.ofModule m decl with
      | .error e => (.error e, table)
      | .ok c =>
        let (names, table) := ClassTable.load (table.put decl.name c) m rest
        (names.map (decl.name :: ·), table)

end VersionedObjects.Dynamic
