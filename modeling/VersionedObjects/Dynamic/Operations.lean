import VersionedObjects.Dynamic.Construction

/-!
# Operations on instances

Making, reading and writing instances. Accessors have no conditions, so calls of accessors that
nest deeper than there are accessors never end; the bounds here are well above what ends.
-/

namespace VersionedObjects.Dynamic

open Store (ManagerId)

/-- How deep calls of accessors may nest. -/
def callDepth : Nat := 2000

/-- Calls to the standard depth. -/
def Calls.standard : Calls :=
  .ofDepth callDepth

/-- Reads a property. -/
def readProperty (i : InstanceId) (property : String) : EvalM Value :=
  getProperty .standard i property

/-- Writes a property. -/
def writeProperty (i : InstanceId) (property : String) (value : Value) : EvalM Unit :=
  setProperty .standard i property value

/-- Reads every property in order. -/
def readProperties (i : InstanceId) : EvalM (Association Value) :=
  properties .standard i

/-- Makes an instance of the class of a name. A path of superclasses longer than there are classes
never ends. -/
def makeInstance (m : ManagerId) (name : String) (args : List Value) : EvalM InstanceId := do
  let table := (← getThe Runtime).table m
  instantiate .standard (table.length + 1) m name args

/-- The parts of an instance, from the class itself up its superclasses. -/
def parts (r : Runtime) (i : InstanceId) : List InstanceId :=
  partsFrom r.instances.length i
where
  /-- The parts up to a number. -/
  partsFrom : Nat → InstanceId → List InstanceId
    | 0, i => [i]
    | n + 1, i => i :: ((r.inst i).base.elim [] (partsFrom n))

end VersionedObjects.Dynamic
