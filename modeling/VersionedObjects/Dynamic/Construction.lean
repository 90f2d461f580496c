import VersionedObjects.Dynamic.Interpreter

/-!
# Making instances

The part of the superclass is made first, then the record chain of a framed class and the stored
values; then the rest of the first initializer block, the other blocks and the body of the
constructor run. The path of superclasses is followed up to a depth.
-/

namespace VersionedObjects.Dynamic

open Declaration
open Store (ManagerId)

/-- The values of plain fields and of the properties that no record holds. -/
def storedValues (c : LoadedClass) (locals : Association Value) :
    Except EvalError (Association Value) := do
  let plain := (c.decl.fields.filter (!·.isHidden)).map fun f => (f.name, Value.zeroOf f.type)
  let stored := c.decl.properties.filter fun p => (c.slot? p.name).isNone && p.hasBackingField
  let values ← stored.mapM fun p => do
    match p.initializer with
    | some initializer => return (p.name, ← constant locals initializer)
    | none => return (p.name, Value.zeroOf p.type)
  return .ofPairs (plain ++ values)

/-- The first initializer block of a framed class, which must start with its record chain, without
that start. -/
def chainBlock? (c : ClassDecl) : Option (List Stmt) :=
  match c.initializers.head? with
  | some (.assign _ (.newChain _) :: rest) => some rest
  | _ => none

/-- Makes an instance of a class of a manager. -/
def construct (calls : Calls) (m : ManagerId) : Nat → LoadedClass → List Value → EvalM InstanceId
  | 0, _, _ => throwThe Failure .exhausted
  | depth + 1, c, args => do
    let decl := c.decl
    let constructor := decl.constructors.head?.getD {}
    if constructor.params.length ≠ args.length then
      fail (.arity decl.name constructor.params.length args.length)
    let locals := Association.ofPairs ((constructor.params.map (·.name)).zip args)
    let table := (← getThe Runtime).table m
    let superclass := decl.superclass?.bind fun type => table.get? type.name
    let base ← superclass.mapM fun baseClass => do
      let baseArgs ← orFail ((constructor.superCall.getD []).mapM (constant locals))
      construct calls m depth baseClass baseArgs
    let (object, body) ←
      if c.isFramed then
        match chainBlock? decl with
        | some rest => do
          let o ← modifyGetThe (Store.World Slots) fun w =>
            w.newObject m decl.name Slots.merge c.freshRecord
          pure (some o, rest ++ decl.initializers.tail.flatten)
        | none =>
          fail (.load (decl.name ++ " is framed but does not build its record chain"))
      else pure (none, decl.initializers.flatten)
    let fields ← orFail (storedValues c locals)
    let i ← modifyGetThe Runtime fun r =>
      (r.instances.length,
        { r with instances := r.instances ++ [{ cls := c, object, fields, base }] })
    runAll calls { self := i, property := none } locals (body ++ constructor.body)
    return i

/-- Makes an instance of the class of a name. -/
def instantiate (calls : Calls) (depth : Nat) (m : ManagerId) (name : String)
    (args : List Value) : EvalM InstanceId := do
  match ((← getThe Runtime).table m).get? name with
  | some c => construct calls m depth c args
  | none => fail (.unknownClass name)

end VersionedObjects.Dynamic
