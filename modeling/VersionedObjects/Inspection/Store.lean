import VersionedObjects.Inspection.Basic
import VersionedObjects.Store.World
import VersionedObjects.Text.Quoted

/-!
# Showing the store

Generations, records, chains, frames and managers as they are shown for debugging. Objects are
shown by the names that they are given.
-/

namespace VersionedObjects.Store

open Inspection (Shown)

/-- A generation as it is shown. -/
def showGeneration (g : Generation) : Shown :=
  .tuple "Generation" [.ofNat g]

/-- An object as it is shown. -/
def showObject (name : String) : Shown :=
  .tuple "ObjectId" [.atom name]

/-- A record as it is shown, given how its value is. -/
def Record.shown {α : Type} (value : α → Shown) (r : Record α) : Shown :=
  .fields "StateRecord"
    [("generation", showGeneration r.generation),
      ("base", .ofOption (r.base.map showGeneration)),
      ("discarded", .ofBool r.discarded),
      ("value", value r.value)]

/-- The generations of a chain as they are shown. -/
def Chain.shownGenerations {α : Type} (c : Chain α) : Shown :=
  .list (c.generations.map showGeneration)

/-- An object with its type and the generations of its chain. -/
def Object.shown {α : Type} (name : String) (object : Object α) : Shown :=
  .fields "RecordChain"
    [("id", showObject name),
      ("type_name", .atom (Text.quote object.typeName)),
      ("generations", object.chain.shownGenerations)]

/-- The choices of a frame as they are shown. -/
def FrameOptions.shown (options : FrameOptions) : Shown :=
  let observer : Option Shown :=
    if options.observed then some (.atom (Text.quote "<function>")) else none
  .fields "FrameOptions"
    [("read_only", .ofBool options.readOnly),
      ("read_observer", .ofOption observer),
      ("write_observer", .ofOption observer)]

/-- A frame as it is shown. -/
def Frame.shown (f : Frame) : Shown :=
  .fields "Frame"
    [("generation", showGeneration f.generation),
      ("invalid", .tuple "InvalidSet" [.set (f.view.invalid.map showGeneration)]),
      ("state", .atom f.state.text),
      ("options", f.options.shown)]

/-- The name of a policy as it is shown. -/
def GcPolicy.shown : GcPolicy → Shown
  | onCommit => .atom "OnCommit"
  | manual => .atom "Manual"

/-- The settings of a manager as they are shown. -/
def Config.shown (config : Config) : Shown :=
  .fields "FramesConfig"
    [("gc", config.gc.shown),
      ("max_open_frames", .ofNat config.maxOpenFrames),
      ("trace_reads", .ofBool config.traceReads)]

/-- A manager as it is shown. -/
def Manager.shown (m : Manager) : Shown :=
  .fields "FrameManager"
    [("config", m.config.shown),
      ("next_generation", showGeneration m.next),
      ("open", .list (m.openGenerations.map showGeneration))]

end VersionedObjects.Store
