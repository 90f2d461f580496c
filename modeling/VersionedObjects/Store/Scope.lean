import VersionedObjects.Store.Access

/-!
# Running inside a frame

A frame is current while something runs inside it. A frame may be entered again while it is
current; another one may not. Who runs inside a frame holds on to it, so it is not discarded
before the end.
-/

namespace VersionedObjects.Store

variable {α β : Type} {m : Type → Type} [Monad m] [MonadStateOf (World α) m]
  [MonadExceptOf Violation m] [MonadFinally m]

/-- Applies a function to the world. -/
def change (f : World α → World α) : m Unit :=
  modifyThe (World α) f

/-- Runs something with a frame current. -/
def enter (α : Type) [MonadStateOf (World α) m] (f : FrameId) (body : m β) : m β := do
  let w ← getThe (World α)
  match w.current with
  | some g =>
    if g ≠ f then
      throwThe Violation (.otherFrameCurrent (w.frame f).generation (w.frame g).generation)
  | none => pure ()
  change fun w : World α => { w.hold f with current := some f }
  try body
  finally change fun w' : World α => { w' with current := w.current }.release f

/-- Opens a frame and runs something that holds it. -/
def holding (α : Type) [MonadStateOf (World α) m] (manager : ManagerId) (options : FrameOptions)
    (body : FrameId → m β) : m (Except Refusal β) := do
  match ← modifyGetThe (World α) fun w => w.openFrame manager options with
  | .error refusal => return .error refusal
  | .ok f =>
    try return .ok (← body f)
    finally change fun w : World α => w.release f

/-- Commits a frame, which must be open. -/
def commit (α : Type) [MonadStateOf (World α) m] (f : FrameId) :
    m (Except Refusal CommitEvent) := do
  match ← modifyGetThe (World α) fun w => w.commit f with
  | .ok result => return result
  | .error violation => throwThe Violation violation

/-- Runs something in a new frame and commits it. -/
def withFrame (α : Type) [MonadStateOf (World α) m] (manager : ManagerId)
    (body : FrameId → m β) : m (Except Refusal β) := do
  let result ← holding α manager {} fun f => do
    let value ← enter α f (body f)
    return (← commit α f).map fun _ => value
  return result.bind id

/-- Runs something in a new frame, and commits the frame or, when it fails, discards it. -/
def tryWithFrame (α : Type) [MonadStateOf (World α) m] {ε : Type} (manager : ManagerId)
    (body : FrameId → m (Except ε β)) : m (Except Refusal (Except ε β)) := do
  let result ← holding α manager {} fun f => do
    match ← enter α f (body f) with
    | .ok value => return (← commit α f).map fun _ => Except.ok value
    | .error e =>
      change fun w : World α => w.discard f
      return .ok (.error e)
  return result.bind id

/-- Runs something in a new frame that cannot write, and discards it. -/
def readFrame (α : Type) [MonadStateOf (World α) m] (manager : ManagerId)
    (body : FrameId → m β) : m (Except Refusal β) :=
  holding α manager { readOnly := true } fun f => do
    let value ← enter α f (body f)
    change fun w : World α => w.discard f
    return value

end VersionedObjects.Store
