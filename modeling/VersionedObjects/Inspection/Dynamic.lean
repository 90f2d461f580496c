import VersionedObjects.Dynamic.Runtime
import VersionedObjects.Inspection.Store

/-!
# Showing instances

Values, instances and loaded classes as they are shown for debugging.
-/

namespace VersionedObjects.Dynamic

open Inspection (Shown)
open Store (ObjectId showObject)

mutual

/-- A value as it is shown. -/
def Value.shown : Value → Shown
  | .null => .atom "Null"
  | .bool b => .tuple "Bool" [.ofBool b]
  | .int n => .tuple "Int" [.atom (toString n.toInt)]
  | .float x => .tuple "Float" [.atom x.text]
  | .string s => .tuple "String" [.atom (Text.quote s)]
  | .list items => .tuple "List" [.list (shownItems items)]

/-- The items of a list as they are shown. -/
def Value.shownItems : List Value → List Shown
  | [] => []
  | item :: rest => item.shown :: shownItems rest

end

/-- An instance as it is shown, given the names of objects. -/
def Runtime.showInstance (r : Runtime) (name : ObjectId → String) (i : InstanceId) : Shown :=
  let inst := r.inst i
  let framed :=
    match inst.object with
    | some o =>
      [("id", showObject (name o)), ("generations", (r.world.object o).chain.shownGenerations)]
    | none => []
  let fields := inst.fields.map fun (name, value) => (Text.quote name, value.shown)
  .fields inst.cls.name (framed ++ [("fields", .map fields)])

/-- The names of loaded classes in order of the alphabet. -/
def ClassTable.names (table : ClassTable) : List String :=
  (Association.keys table).mergeSort (· ≤ ·)

/-- Loaded classes as they are shown. -/
def ClassTable.shown (table : ClassTable) : Shown :=
  .fields "DynamicRuntime" [("classes", .list (table.names.map fun n => .atom (Text.quote n)))]

end VersionedObjects.Dynamic
