import VersionedObjects.Emission.Class
import VersionedObjects.Json.Reader
import VersionedObjects.Store.World

/-!
# Settings

The settings of the store and of code generation, as a JSON file gives them. What is missing has
its default; unknown members are skipped.
-/

namespace VersionedObjects

open Json (defaulted? unit?)

/-- A policy by its name. -/
def Store.GcPolicy.ofJson? (json : Json) : Option Store.GcPolicy := do
  let (name, content) ← json.variant?
  let _ ← unit? content
  match name with
  | "on_commit" => return .onCommit
  | "manual" => return .manual
  | _ => none

/-- The settings of a manager. -/
def Store.Config.ofJson? (json : Json) : Option Store.Config := do
  let standard : Store.Config := {}
  match ← json.structure? ["gc", "max_open_frames", "trace_reads"] with
  | [gc, maxOpenFrames, traceReads] =>
    return { gc := ← defaulted? standard.gc Store.GcPolicy.ofJson? gc
             maxOpenFrames := ← defaulted? standard.maxOpenFrames Json.nat? maxOpenFrames
             traceReads := ← defaulted? standard.traceReads Json.bool? traceReads }
  | _ => none

/-- The choices for generated code. -/
def Emission.EmitConfig.ofJson? (json : Json) : Option Emission.EmitConfig := do
  let standard : Emission.EmitConfig := {}
  match ← json.structure? ["runtime_path", "record_suffix", "derive_debug"] with
  | [runtimePath, recordSuffix, deriveDebug] =>
    return { runtimePath := ← defaulted? standard.runtimePath Json.string? runtimePath
             recordSuffix := ← defaulted? standard.recordSuffix Json.string? recordSuffix
             deriveDebug := ← defaulted? standard.deriveDebug Json.bool? deriveDebug }
  | _ => none

/-- All settings. -/
structure Settings where
  runtime : Store.Config := {}
  emit : Emission.EmitConfig := {}
  deriving DecidableEq, Inhabited, Repr

namespace Settings

/-- The settings that a JSON value gives. -/
def ofJson? (json : Json) : Option Settings := do
  match ← json.structure? ["runtime", "emit"] with
  | [runtime, emit] =>
    return { runtime := ← defaulted? {} Store.Config.ofJson? runtime
             emit := ← defaulted? {} Emission.EmitConfig.ofJson? emit }
  | _ => none

/-- The settings that a JSON text gives. -/
def ofText? (text : String) : Option Settings := do
  ofJson? (← Json.parse? text)

end Settings

/-- The name of a policy as JSON. -/
def Store.GcPolicy.json : Store.GcPolicy → Json
  | .onCommit => .string "on_commit"
  | .manual => .string "manual"

/-- The settings of a manager as JSON. -/
def Store.Config.json (config : Store.Config) : Json :=
  .object
    [("gc", config.gc.json), ("max_open_frames", .int config.maxOpenFrames),
      ("trace_reads", .bool config.traceReads)]

/-- The choices for generated code as JSON. -/
def Emission.EmitConfig.json (config : Emission.EmitConfig) : Json :=
  .object
    [("runtime_path", .string config.runtimePath), ("record_suffix", .string config.recordSuffix),
      ("derive_debug", .bool config.deriveDebug)]

/-- All settings as JSON. -/
def Settings.json (settings : Settings) : Json :=
  .object [("runtime", settings.runtime.json), ("emit", settings.emit.json)]

end VersionedObjects
