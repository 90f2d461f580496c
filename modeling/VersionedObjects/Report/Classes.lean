import VersionedObjects.Dynamic.LoadedClass
import VersionedObjects.Framing.Facts
import VersionedObjects.Report.Basic

/-!
# Reports of classes

The facts of the classes of a module, and loaded classes.
-/

namespace VersionedObjects.Report

open Declaration (ClassDecl Module jsonList jsonOption)
open VersionedObjects.Dynamic (ClassTable LoadedClass)
open Framing (ClassFacts Facts ancestors)

/-- What framing finds in one class of a module. -/
def classFacts (m : Module) (facts : Facts) (c : ClassDecl) : Json :=
  let fact := (facts.get? c.name).getD {}
  .object
    [("class", .string c.name), ("ancestors", texts ((ancestors m c).map (·.name))),
      ("is_framed", .bool c.isFramed),
      ("superclass", jsonOption .string (c.superclass?.map (·.text))),
      ("backing", jsonList (fun p => .bool p.hasBackingField) c.properties),
      ("fact_framed", .bool fact.framed), ("fact_properties", texts fact.properties)]

/-- The facts of a module, by name and for each class. -/
def facts (m : Module) : Json :=
  let all := Facts.analyze m
  let fact (entry : String × ClassFacts) : Json :=
    .object
      [("class", .string entry.1), ("framed", .bool entry.2.framed),
        ("properties", texts entry.2.properties)]
  .object [("facts", jsonList fact all), ("classes", jsonList (classFacts m all) m.classes)]

/-- A loaded class with the layout of its records. -/
def loadedClass (c : LoadedClass) : Json :=
  .object
    [("name", .string c.name), ("framed", .bool c.isFramed),
      ("layout", jsonList (fun (slot, type) => texts [slot, type.text]) c.layout),
      ("fresh", slots c.freshRecord)]

/-- Loaded classes in the order of their names. -/
def classes (table : ClassTable) : Json :=
  jsonList loadedClass ((table.map (·.2)).mergeSort fun a b => a.name ≤ b.name)

end VersionedObjects.Report
