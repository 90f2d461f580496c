import VersionedObjects.Dynamic.LoadedClass
import VersionedObjects.Store.Scope

/-!
# The state of a program

The store with its frames and objects, the loaded classes of every manager, and the instances. An
instance has a part for each class on its path of inheritance; the part of the superclass is an
instance of its own.
-/

namespace VersionedObjects.Dynamic

open Store (World ManagerId ObjectId Violation)

/-- An instance by its position. -/
abbrev InstanceId := Nat

/-- An instance of a loaded class. -/
structure Instance where
  cls : LoadedClass
  /-- The object that holds the framed properties. -/
  object : Option ObjectId
  /-- The stored values of all others. -/
  fields : Association Value
  /-- The part of the superclass. -/
  base : Option InstanceId
  deriving Inhabited

/-- The store, the loaded classes and the instances. -/
structure Runtime where
  world : World Slots := {}
  /-- The loaded classes of each manager. -/
  tables : List ClassTable := []
  instances : List Instance := []

instance : Inhabited Runtime := ⟨{}⟩

/-- How an operation on the runtime fails. -/
inductive Failure where
  | eval (error : EvalError)
  /-- The store was misused. -/
  | violation (violation : Violation)
  /-- Calls nested deeper than the given depth. -/
  | exhausted
  deriving DecidableEq, Inhabited, Repr

/-- An operation on the runtime; what it did before it fails is kept. -/
abbrev EvalM := EStateM Failure Runtime

namespace Runtime

/-- The loaded classes of a manager. -/
def table (r : Runtime) (m : ManagerId) : ClassTable :=
  r.tables[m]?.getD []

/-- The instance at a position. -/
def inst (r : Runtime) (i : InstanceId) : Instance :=
  r.instances[i]?.getD default

/-- The runtime with one more manager, which has no classes. -/
def addManager (r : Runtime) (config : Store.Config) : Runtime :=
  { r with world := r.world.addManager config, tables := r.tables ++ [[]] }

/-- The runtime with the loaded classes of a manager changed. -/
def setTable (r : Runtime) (m : ManagerId) (table : ClassTable) : Runtime :=
  { r with tables := r.tables.set m table }

/-- The runtime with the fields of an instance changed. -/
def modifyFields (r : Runtime) (i : InstanceId) (f : Association Value → Association Value) :
    Runtime :=
  { r with instances := r.instances.modify i fun inst => { inst with fields := f inst.fields } }

end Runtime

instance : MonadStateOf (World Slots) EvalM where
  get := return (← getThe Runtime).world
  set world := modifyThe Runtime fun r => { r with world }
  modifyGet f := modifyGetThe Runtime fun r =>
    let (a, world) := f r.world
    (a, { r with world })

instance : MonadExceptOf Violation EvalM where
  throw violation := throwThe Failure (.violation violation)
  tryCatch body handle := tryCatchThe Failure body fun
    | .violation violation => handle violation
    | failure => throwThe Failure failure

/-- Runs an operation of the store. -/
def onStore {β : Type} (action : Store.StoreM Slots β) : EvalM β := fun r =>
  match action r.world with
  | .ok b world => .ok b { r with world }
  | .error violation world => .error (.violation violation) { r with world }

/-- Fails with an evaluation error. -/
def fail {β : Type} (e : EvalError) : EvalM β :=
  throwThe Failure (.eval e)

/-- The value of a computation that may fail. -/
def orFail {β : Type} : Except EvalError β → EvalM β
  | .ok b => return b
  | .error e => fail e

end VersionedObjects.Dynamic
