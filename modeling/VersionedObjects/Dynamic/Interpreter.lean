import VersionedObjects.Dynamic.Runtime

/-!
# Evaluation of accessors

Expressions and statements are evaluated by structure. They may read and write properties of
their instance, which runs other accessors; that is bounded by a depth of calls.
-/

namespace VersionedObjects.Dynamic

open Declaration
open Store (ObjectId Record)

/-- What an expression denotes. -/
inductive Operand where
  | value (value : Value)
  | this
  /-- The record chain of the instance. -/
  | chain
  | record (object : ObjectId) (record : Record Slots)
  deriving Inhabited

/-- Reading and writing properties of instances. -/
structure Calls where
  get : InstanceId → String → EvalM Value
  set : InstanceId → String → Value → EvalM Unit

/-- Where a body runs: the instance, and the property whose accessor it is. -/
structure Scope where
  self : InstanceId
  property : Option String

namespace Scope

/-- The instance of the scope. -/
def inst (s : Scope) : EvalM Instance :=
  return (← getThe Runtime).inst s.self

/-- The name of the instance's class. -/
def className (s : Scope) : EvalM String :=
  return (← s.inst).cls.name

/-- The object of the instance, which must be framed. -/
def object (s : Scope) : EvalM ObjectId := do
  match (← s.inst).object with
  | some o => return o
  | none => fail (.unsupported ((← s.className) ++ " is not framed"))

/-- The property that `field` refers to. -/
def backingProperty (s : Scope) : EvalM String :=
  match s.property with
  | some property => return property
  | none => fail (.unsupported "`field` outside a property accessor")

/-- The slot of a property in the records of the instance. -/
def slot (s : Scope) (property : String) : EvalM Nat := do
  match (← s.inst).cls.slot? property with
  | some i => return i
  | none => fail (.unknownProperty (← s.className) property)

/-- Stores a value in a field of the instance; false if it has none of the name. -/
def setField (s : Scope) (name : String) (value : Value) : EvalM Bool := do
  if (← s.inst).fields.has name then
    modifyThe Runtime (·.modifyFields s.self (·.put name value))
    return true
  else return false

/-- The failure of `field` for a property that stores nothing. -/
def noStoredValue {β : Type} (s : Scope) (property : String) : EvalM β := do
  fail (.unsupported ((← s.className) ++ "." ++ property ++ " has no stored value"))

end Scope

/-- The value of an operand that must be one. -/
def Operand.toValue (expr : Expr) : Operand → EvalM Value
  | .value v => return v
  | _ => fail (.unsupported (expr.text ++ " is not a value"))

mutual

/-- What an expression denotes. -/
def eval (calls : Calls) (s : Scope) (locals : Association Value) : Expr → EvalM Operand
  | .literal value => return .value (.ofLiteral value)
  | .list items => return .value (.list (← evalAll calls s locals items))
  | .name id => return .value (← orFail (constant locals (.name id)))
  | .this => return .this
  | .backing => do
    let property ← s.backingProperty
    match (← s.inst).fields.get? property with
    | some value => return .value value
    | none => s.noStoredValue property
  | .member target id => do
    let operand ← eval calls s locals target
    if id = recordField then
      match operand with
      | .this => return .chain
      | _ => fail (.unsupported (Expr.member target id).text)
    else
      match operand with
      | .record _ record => return .value (record.value.slot (← s.slot id))
      | .this =>
        let self ← s.inst
        match self.fields.get? id, self.cls.decl.property? id with
        | some value, none => return .value value
        | _, _ => return .value (← calls.get s.self id)
      | _ => fail (.unsupported ("field access " ++ (Expr.member target id).text))
  | .readable chain owner => do
    let c ← eval calls s locals chain
    let o ← eval calls s locals owner
    let object ← chainOwner s chain c o
    return .record object (← onStore (Store.readable object))
  | .writable chain owner => do
    let c ← eval calls s locals chain
    let o ← eval calls s locals owner
    let object ← chainOwner s chain c o
    return .record object (← onStore (Store.writable object))
  | .cast expr _ => eval calls s locals expr
  | .firstRecord chain => do
    match ← eval calls s locals chain with
    | .chain =>
      let o ← s.object
      return .record o ((((← getThe Runtime).world.object o).chain.first?).getD default)
    | _ => fail (.unsupported (Expr.firstRecord chain).text)
  | .newRecord type => fail (.unsupported ((Expr.newRecord type).text ++ " outside construction"))
  | .newChain initial =>
    fail (.unsupported ((Expr.newChain initial).text ++ " outside construction"))
  | .prependRecord chain record =>
    fail (.unsupported ((Expr.prependRecord chain record).text ++ " outside construction"))
where
  /-- The object of a record access, which must go to the chain of the instance itself. -/
  chainOwner (s : Scope) (chain : Expr) : Operand → Operand → EvalM ObjectId
    | .chain, .this => s.object
    | _, _ => fail (.unsupported ("record access on " ++ chain.text))

/-- The values of expressions in order. -/
def evalAll (calls : Calls) (s : Scope) (locals : Association Value) :
    List Expr → EvalM (List Value)
  | [] => return []
  | item :: rest => do
    let value ← (← eval calls s locals item).toValue item
    return value :: (← evalAll calls s locals rest)

end

/-- The value of an expression. -/
def evalValue (calls : Calls) (s : Scope) (locals : Association Value) (expr : Expr) :
    EvalM Value := do
  (← eval calls s locals expr).toValue expr

/-- Assigns a value; the local names afterwards. -/
def assign (calls : Calls) (s : Scope) (locals : Association Value) (target : Expr)
    (value : Value) : EvalM (Association Value) := do
  match target with
  | .name id => return locals.put id value
  | .backing =>
    let property ← s.backingProperty
    if ← s.setField property value then return locals else s.noStoredValue property
  | .member inner id =>
    match ← eval calls s locals inner with
    | .record o record =>
      let i ← s.slot id
      modifyThe Runtime fun r =>
        { r with world := r.world.store o record.generation (·.store i value) }
      return locals
    | .this =>
      let self ← s.inst
      if (self.cls.decl.property? id).isSome then
        calls.set s.self id value
        return locals
      else if ← s.setField id value then return locals
      else fail (.unknownProperty self.cls.name id)
    | _ => fail (.unsupported ("assignment to " ++ inner.text))
  | other => fail (.unsupported ("assignment to " ++ other.text))

/-- Executes a statement: the value that it returns, and the local names afterwards. -/
def exec (calls : Calls) (s : Scope) (locals : Association Value) :
    Stmt → EvalM (Option Value × Association Value)
  | .return expr => return (some (← evalValue calls s locals expr), locals)
  | .expr expr => do
    let _ ← eval calls s locals expr
    return (none, locals)
  | .assign target expr => do
    let value ← evalValue calls s locals expr
    return (none, ← assign calls s locals target value)
  | .notifyCreated => do
    let o ← s.object
    modifyThe Runtime fun r => { r with world := r.world.notifyCreated o }
    return (none, locals)

/-- Runs statements up to the first that returns a value. -/
def run (calls : Calls) (s : Scope) (locals : Association Value) :
    List Stmt → EvalM (Option Value)
  | [] => return none
  | stmt :: rest => do
    match ← exec calls s locals stmt with
    | (some value, _) => return some value
    | (none, locals) => run calls s locals rest

/-- Runs all statements, whatever they return. -/
def runAll (calls : Calls) (s : Scope) (locals : Association Value) : List Stmt → EvalM Unit
  | [] => return ()
  | stmt :: rest => do
    let (_, locals) ← exec calls s locals stmt
    runAll calls s locals rest

/-- Fails if the instance has no record that a read right now would find. -/
def ensureVisible (self : Instance) : EvalM Unit := do
  match self.object with
  | some o =>
    if !(← getThe Runtime).world.hasVisibleRecord o then fail (.notVisible self.cls.name o)
  | none => return ()

/-- The body of a getter that reads the stored value. -/
def defaultGetter : Accessor :=
  { body := [.return .backing] }

/-- The body of a setter that changes the stored value. -/
def defaultSetter : Accessor :=
  { param := some "value", body := [.assign .backing (.name "value")] }

/-- Reads a property through its getter, own ones before those of the superclass. -/
def getProperty (calls : Calls) (i : InstanceId) (property : String) : EvalM Value := do
  let self := (← getThe Runtime).inst i
  match self.cls.decl.property? property with
  | none =>
    match self.base with
    | some base => calls.get base property
    | none => fail (.unknownProperty self.cls.name property)
  | some decl =>
    ensureVisible self
    let getter := decl.getter.getD defaultGetter
    match ← run calls { self := i, property := some property } [] getter.body with
    | some value => return value
    | none => fail (.missingReturn self.cls.name property)

/-- Writes a property through its setter. -/
def setProperty (calls : Calls) (i : InstanceId) (property : String) (value : Value) :
    EvalM Unit := do
  let self := (← getThe Runtime).inst i
  match self.cls.decl.property? property with
  | none =>
    match self.base with
    | some base => calls.set base property value
    | none => fail (.unknownProperty self.cls.name property)
  | some decl =>
    if !decl.mutable then fail (.readOnly self.cls.name property)
    if !value.conforms decl.type then
      fail (.typeMismatch self.cls.name property decl.type.text value.typeName)
    if (self.cls.slot? property).isSome && (← getThe Runtime).world.current.isNone then
      fail (.noOpenFrame self.cls.name property)
    ensureVisible self
    let setter := decl.setter.getD defaultSetter
    let locals : Association Value := [(setter.param.getD "value", value)]
    let _ ← run calls { self := i, property := some property } locals setter.body

/-- Calls that nest up to a depth. -/
def Calls.ofDepth : Nat → Calls
  | 0 =>
    { get := fun _ _ => throwThe Failure .exhausted
      set := fun _ _ _ => throwThe Failure .exhausted }
  | depth + 1 =>
    let inner := ofDepth depth
    { get := getProperty inner, set := setProperty inner }

/-- The names of all properties of an instance, own ones first, each once. -/
def propertyNames (r : Runtime) : Nat → InstanceId → List String
  | 0, _ => []
  | depth + 1, i =>
    let self := r.inst i
    let own := self.cls.decl.properties.map (·.name)
    match self.base with
    | none => own
    | some base =>
      (propertyNames r depth base).foldl (fun names name =>
        if names.contains name then names else names ++ [name]) own

/-- Every property of an instance with its value. -/
def properties (calls : Calls) (i : InstanceId) : EvalM (Association Value) := do
  let r ← getThe Runtime
  let values ← (propertyNames r (r.instances.length + 1) i).mapM fun name =>
    return (name, ← calls.get i name)
  return .ofPairs values

end VersionedObjects.Dynamic
