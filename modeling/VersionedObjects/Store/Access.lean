import VersionedObjects.Store.Lifecycle

/-!
# Reading and writing objects

A read uses the newest record that the current frame sees, or, outside a frame of the object's
manager, the newest committed one. A write goes to the frame's own record, which is branched from
the one it would read. A violation leaves the world as far as the operation had come.
-/

namespace VersionedObjects.Store

variable {α : Type}

/-- An operation on the world that may be misused. -/
abbrev StoreM (α β : Type) := EStateM Violation (World α) β

namespace World

/-- The newest record of an object that a view shows. -/
def select? (w : World α) (o : ObjectId) (view : Visibility) : Option (Record α) :=
  (w.object o).chain.select? view

/-- The newest committed record of an object. -/
def selectCommitted? (w : World α) (o : ObjectId) : Option (Record α) :=
  w.select? o (w.manager (w.object o).manager).now

/-- A read right now would find a record. -/
def hasVisibleRecord (w : World α) (o : ObjectId) : Bool :=
  match w.currentFrameOf? (w.object o).manager with
  | some f => (w.select? o (w.frame f).view).isSome
  | none => (w.selectCommitted? o).isSome

/-- Registers an object with a frame. -/
def touch (w : World α) (f : FrameId) (o : ObjectId) : World α :=
  w.modifyFrame f fun frame =>
    if frame.touched.contains o then frame else { frame with touched := frame.touched ++ [o] }

/-- The frame that an object made now would belong to: the current one, if it is an open writable
frame of the manager. -/
def makingFrame? (w : World α) (m : ManagerId) : Option FrameId :=
  (w.currentFrameOf? m).filter fun f => (w.frame f).isActive && !(w.frame f).options.readOnly

/-- Makes an object with one record, which belongs to the current frame or is committed at
once. -/
def newObject (w : World α) (m : ManagerId) (typeName : String) (merge : α → α → α → Option α)
    (initial : α) : ObjectId × World α :=
  let o := w.objects.length
  let withRecord (w : World α) (g : Generation) : World α :=
    let chain : Chain α := .singleton { generation := g, base := none, value := initial }
    { w with objects := w.objects ++ [{ manager := m, typeName, merge, chain }] }
  match w.makingFrame? m with
  | some f => (o, (withRecord w (w.frame f).generation).touch f o)
  | none =>
    let (g, w) := w.mint m
    (o, withRecord w g)

/-- Announces an object, the first time. -/
def notifyCreated (w : World α) (o : ObjectId) : World α :=
  let object := w.object o
  if object.announced then w
  else
    let w := w.modifyObject o fun object => { object with announced := true }
    let w := w.count object.manager fun c => { c with created := c.created + 1 }
    let generation := (object.chain.first?.map (·.generation)).getD 0
    w.tell (.created object.manager o object.typeName generation)

/-- Stores a value into the record of a generation, if it is still in the chain. -/
def store (w : World α) (o : ObjectId) (g : Generation) (f : α → α) : World α :=
  w.modifyChain o fun chain => chain.modify g fun r => { r with value := f r.value }

end World

/-- The record that a read of an object in a frame uses. -/
def readableIn (f : FrameId) (o : ObjectId) : StoreM α (Record α) := do
  let w ← get
  let frame := w.frame f
  if !frame.isActive then throw (.closedFrame "read" frame.generation frame.state)
  match w.select? o frame.view with
  | none => throw (.invisible (w.object o).typeName o frame.generation)
  | some r =>
    if frame.options.observed then set (w.tell (.read o))
    return r

/-- The record that a read of an object uses. -/
def readable (o : ObjectId) : StoreM α (Record α) := do
  let w ← get
  match w.currentFrameOf? (w.object o).manager with
  | some f => readableIn f o
  | none =>
    match w.selectCommitted? o with
    | some r => return r
    | none => throw (.uncommitted (w.object o).typeName o)

/-- Branches the record of a frame from the one that it reads. -/
def branch (f : FrameId) (o : ObjectId) : StoreM α (Record α) := do
  let w ← get
  let frame := w.frame f
  match w.select? o frame.view with
  | none => throw (.noBase (w.object o).typeName o frame.generation)
  | some base =>
    let r : Record α :=
      { generation := frame.generation, base := some base.generation, value := base.value }
    set (w.modifyChain o (·.link r))
    return r

/-- Tells the observer of a frame of the first write to an object; the observer may then close the
frame, once. -/
def observeWrite (f : FrameId) (o : ObjectId) : StoreM α Unit := do
  let w ← get
  let options := (w.frame f).options
  if options.observed then
    let w := w.tell (.wrote o)
    let w := w.modifyFrame f fun frame => { frame with options := frame.options.afterFirstWrite }
    match options.closing? with
    | none => set w
    | some .commit => set (w.commitActive f).2
    | some .discard => set (w.discardActive f)

/-- The record that a write to an object in a frame changes. -/
def writableIn (f : FrameId) (o : ObjectId) : StoreM α (Record α) := do
  let w ← get
  let frame := w.frame f
  let object := w.object o
  let g := frame.generation
  if !frame.isActive then throw (.closedFrame "write" g frame.state)
  if frame.options.readOnly then throw (.readOnlyFrame object.typeName o g)
  if frame.manager != object.manager then throw (.foreignFrame object.typeName o g)
  let firstWrite := !frame.written.contains o
  if firstWrite then
    modify fun w =>
      (w.modifyFrame f fun frame => { frame with written := frame.written ++ [o] }).touch f o
  let r ←
    match object.chain.find? g with
    | some r => pure r
    | none => branch f o
  if firstWrite then observeWrite f o
  return r

/-- The record that a write to an object changes. -/
def writable (o : ObjectId) : StoreM α (Record α) := do
  let w ← get
  match w.current with
  | some f => writableIn f o
  | none => throw (.noFrame (w.object o).typeName o)

/-- Reads an object. -/
def read (o : ObjectId) : StoreM α α := do
  return (← readable o).value

/-- Changes an object. -/
def write (o : ObjectId) (f : α → α) : StoreM α Unit := do
  let r ← writable o
  modify (·.store o r.generation f)

end VersionedObjects.Store
