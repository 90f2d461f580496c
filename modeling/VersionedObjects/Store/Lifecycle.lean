import VersionedObjects.Store.World

/-!
# Opening and closing frames

A frame captures the generations that are open when it is opened. The first of two concurrent
frames to commit wins: a later one must merge each value that was committed meanwhile, or is
discarded. Merged values are published under generations of their own, which stay open until the
commit is done.
-/

namespace VersionedObjects.Store

variable {α : Type}

/-- What a commit finds in one chain. -/
inductive CommitCheck (α : Type) where
  | clean
  /-- The frame's value, reconciled with the record of a committed generation. -/
  | merge (committed : Generation) (value : α)
  | conflict (committed : Generation)

/-- Looks for a record that another frame committed and the frame with the view never saw. -/
def Object.checkCommit (object : Object α) (view : Visibility) (isOpen : Generation → Bool) :
    CommitCheck α :=
  match object.chain.find? view.generation with
  | none => .clean
  | some mine =>
    let unseen (r : Record α) : Bool :=
      r.generation != view.generation && !r.discarded && !view.canSee r.generation &&
        !isOpen r.generation
    match object.chain.newest? unseen with
    | none => .clean
    | some committed =>
      match mine.base.bind object.chain.find? with
      | none => .conflict committed.generation
      | some base =>
        match object.merge mine.value base.value committed.value with
        | some value => .merge committed.generation value
        | none => .conflict committed.generation

/-- A value to publish: the object, the committed generation it builds on, and the value. -/
structure PendingMerge (α : Type) where
  object : ObjectId
  base : Generation
  value : α

namespace World

/-- Opens a frame, unless the manager has as many open frames as it may. -/
def openFrame (w : World α) (m : ManagerId) (options : FrameOptions) :
    Except Refusal FrameId × World α :=
  let manager := w.manager m
  if manager.config.maxOpenFrames ≤ manager.openTable.length then
    (.error (.tooManyOpenFrames manager.config.maxOpenFrames), w)
  else
    let invalid := manager.openGenerations
    let frame : Frame := { manager := m, view := .ofFrame manager.next invalid, options }
    let w := { w with frames := w.frames ++ [frame] }
    let w := w.modifyManager m (·.openNext invalid)
    (.ok (w.frames.length - 1), w.count m fun c => { c with opened := c.opened + 1 })

/-- Takes a generation from the clock of a manager. -/
def mint (w : World α) (m : ManagerId) : Generation × World α :=
  ((w.manager m).next, w.modifyManager m fun manager => { manager with next := manager.next + 1 })

/-- Discards an open frame: its records disappear from every chain, then its generation is
closed. -/
def discardActive (w : World α) (f : FrameId) : World α :=
  let frame := w.frame f
  let g := frame.generation
  let w := frame.listed.foldl (fun w o => w.modifyChain o (·.discard g)) w
  let w := w.modifyManager frame.manager (·.closeAll [g])
  let w := w.modifyFrame f fun frame => { frame with state := .discarded }
  w.count frame.manager fun c => { c with discarded := c.discarded + 1 }

/-- Discards a frame; a closed one is left alone. -/
def discard (w : World α) (f : FrameId) : World α :=
  if (w.frame f).isActive then w.discardActive f else w

/-- Checks touched objects in order: the first conflict, or every value to merge. -/
def checkTouched (w : World α) (view : Visibility) (isOpen : Generation → Bool) :
    List ObjectId → Except (ObjectId × Generation) (List (PendingMerge α))
  | [] => .ok []
  | o :: rest =>
    match (w.object o).checkCommit view isOpen with
    | .clean => w.checkTouched view isOpen rest
    | .conflict committed => .error (o, committed)
    | .merge committed value =>
      (w.checkTouched view isOpen rest).map ({ object := o, base := committed, value } :: ·)

/-- Publishes a merged value in place of the record of a generation, under a generation that is
open until it is closed with the frame's. -/
def publishMerge (w : World α) (m : ManagerId) (g : Generation) (merge : PendingMerge α) :
    Generation × World α :=
  let minted := (w.manager m).next
  let w := w.modifyManager m (·.openNext [])
  (minted, w.modifyChain merge.object fun chain =>
    (chain.unlink g).link { generation := minted, base := some merge.base, value := merge.value })

/-- Publishes merged values in order. -/
def publishMerges (w : World α) (m : ManagerId) (g : Generation) :
    List (PendingMerge α) → List Generation × World α
  | [] => ([], w)
  | merge :: rest =>
    let (minted, w) := w.publishMerge m g merge
    let (more, w) := w.publishMerges m g rest
    (minted :: more, w)

/-- Trims one chain; the result has the number of records dropped. -/
def trimObject (w : World α) (o : ObjectId) (view : GcView) : Nat × World α :=
  ((w.object o).chain.trimCount view, w.modifyChain o (·.trim view))

/-- Trims the chains of objects, and counts what is dropped for a manager. -/
def trimAll (w : World α) (m : ManagerId) (view : GcView) (objects : List ObjectId) : World α :=
  objects.foldl (fun w o =>
    let (dropped, w) := w.trimObject o view
    w.count m fun c => { c with recordsTrimmed := c.recordsTrimmed + dropped }) w

/-- Commits an open frame. A frame that loses to a committed one is discarded. -/
def commitActive (w : World α) (f : FrameId) : Except Refusal CommitEvent × World α :=
  let frame := w.frame f
  let m := frame.manager
  let g := frame.generation
  match w.checkTouched frame.view (w.manager m).isOpen frame.listed with
  | .error (o, committed) =>
    (.error (.conflict o (w.object o).typeName g committed),
      (w.discardActive f).count m fun c => { c with conflicts := c.conflicts + 1 })
  | .ok merges =>
    let (minted, w) := w.publishMerges m g merges
    let w := w.modifyManager m (·.closeAll (g :: minted))
    let w := w.modifyFrame f fun frame => { frame with state := .committed }
    let w := w.count m fun c =>
      { c with committed := c.committed + 1, merged := c.merged + merges.length }
    let w :=
      match (w.manager m).config.gc with
      | .onCommit => w.trimAll m (w.manager m).gcView frame.listed
      | .manual => w
    let event : CommitEvent :=
      { generation := g, changed := frame.listed, merged := merges.map (·.object),
        mergedGenerations := minted }
    (.ok event, w.tell (.committed m event))

/-- Commits a frame, which must be open. -/
def commit (w : World α) (f : FrameId) : Except Violation (Except Refusal CommitEvent) × World α :=
  let frame := w.frame f
  if frame.isActive then
    let (result, w) := w.commitActive f
    (.ok result, w)
  else (.error (.closedFrame "commit" frame.generation frame.state), w)

/-- Adds a holder of a frame. -/
def hold (w : World α) (f : FrameId) : World α :=
  w.modifyFrame f fun frame => { frame with holders := frame.holders + 1 }

/-- Takes away a holder of a frame; an open frame without holders is discarded. -/
def release (w : World α) (f : FrameId) : World α :=
  let w := w.modifyFrame f fun frame => { frame with holders := frame.holders - 1 }
  if (w.frame f).holders = 0 then w.discard f else w

/-- Trims the chain of an object with the readers of a manager; the result has the number of
records dropped. -/
def collect (w : World α) (m : ManagerId) (o : ObjectId) : Nat × World α :=
  let (dropped, w) := w.trimObject o (w.manager m).gcView
  (dropped, w.count m fun c => { c with recordsTrimmed := c.recordsTrimmed + dropped })

end World

end VersionedObjects.Store
