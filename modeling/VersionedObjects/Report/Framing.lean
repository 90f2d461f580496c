import VersionedObjects.Framing.Pipeline
import VersionedObjects.Report.Errors

/-!
# Reports of framing

What became of the classes of a module, and what each rule has done.
-/

namespace VersionedObjects.Report

open Declaration (jsonList)
open Framing (FramedClass Pipeline Summary)

/-- A framed class and its record type. -/
def framedClass (f : FramedClass) : Json :=
  .object
    [("host", .string f.host.name), ("record", .string f.record.name),
      ("framed", texts f.framed)]

/-- What became of the classes of a module. -/
def summary (s : Summary) : Json :=
  .object
    [("seen", count s.seen), ("transformed", count s.transformed), ("skipped", count s.skipped),
      ("properties", count s.properties), ("success", .bool s.success),
      ("errors", jsonList framingError s.errors)]

/-- What each rule of a pipeline has done. -/
def stats (p : Pipeline) : Json :=
  .array <| p.stats.map fun (rule, s) =>
    .object
      [("rule", .string rule), ("applications", count s.applications),
        ("transformations", count s.transformations), ("errors", count s.errors),
        ("success_rate", float s.successRate)]

end VersionedObjects.Report
