import VersionedObjects.Report.Basic
import VersionedObjects.Store.World

/-!
# Reports of the store

Records, frames, views, events and counters. Objects are reported by the names that they are
given, lists of them in the order of their names.
-/

namespace VersionedObjects.Report

open Declaration (jsonList jsonOption)
open VersionedObjects.Dynamic (Slots)
open Store (CommitEvent Counters Event Frame GcView Manager ObjectId Record Visibility)

/-- Names of objects in order. -/
def names (name : ObjectId → String) (objects : List ObjectId) : Json :=
  texts ((objects.map name).mergeSort (· ≤ ·))

/-- A record. -/
def record (r : Record Slots) : Json :=
  .object
    [("generation", count r.generation), ("base", jsonOption count r.base),
      ("discarded", .bool r.discarded), ("values", slots r.value)]

/-- A frame. -/
def frame (name : ObjectId → String) (f : Frame) : Json :=
  .object
    [("generation", count f.generation), ("invalid", counts f.view.invalid),
      ("state", .string f.state.text), ("read_only", .bool f.options.readOnly),
      ("touched", names name f.touched)]

/-- What a commit published. -/
def commitEvent (name : ObjectId → String) (e : CommitEvent) : Json :=
  .object
    [("generation", count e.generation), ("changed", names name e.changed),
      ("merged", names name e.merged),
      ("merged_generations", counts (Store.ascending e.mergedGenerations))]

/-- What observers are told. -/
def event (name : ObjectId → String) : Event → Json
  | .created _ o typeName g =>
    .object [("created", .string (name o)), ("type", .string typeName), ("generation", count g)]
  | .committed _ e => .object [("committed", commitEvent name e)]
  | .read o => .object [("read", .string (name o))]
  | .wrote o => .object [("wrote", .string (name o))]

/-- A view. -/
def view (v : Visibility) : Json :=
  .object
    [("generation", count v.generation), ("invalid", counts v.invalid),
      ("own", .bool (v.canSee v.generation))]

/-- What trimming respects. -/
def gcView (v : GcView) : Json :=
  .object
    [("watermark", count v.watermark), ("readers", jsonList view v.readers),
      ("open", counts v.opened)]

/-- The clock of a manager. -/
def clock (m : Manager) : Json :=
  .object
    [("open", counts m.openGenerations), ("watermark", count m.watermark), ("now", view m.now)]

/-- What a manager has done, and how many of its frames are open. -/
def counters (m : Manager) : Json :=
  let c := m.counters
  .object
    [("opened", count c.opened), ("committed", count c.committed),
      ("discarded", count c.discarded), ("conflicts", count c.conflicts),
      ("merged", count c.merged), ("created", count c.created),
      ("records_trimmed", count c.recordsTrimmed), ("open_now", count m.openTable.length)]

end VersionedObjects.Report
