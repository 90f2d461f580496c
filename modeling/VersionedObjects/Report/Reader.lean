import VersionedObjects.Dynamic.Value
import VersionedObjects.Json.Basic
import VersionedObjects.Store.Retention

/-!
# Reading what is reported on

Values, views and sets of readers from JSON. What is missing or does not fit has the least value.
-/

namespace VersionedObjects.Report

open VersionedObjects.Dynamic (Slots Value)
open Number (Binary64)
open Store (GcView Visibility)

mutual

/-- The value that a JSON value stands for; integers beyond 64 bits with a sign are rounded. -/
def readValue : Json → Value
  | .null | .unreadable | .object _ => .null
  | .bool b => .bool b
  | .int n =>
    match (Json.int n).int64? with
    | some n => .int n
    | none => .float (Binary64.ofRatio (n < 0) n.natAbs 1)
  | .float x => .float x
  | .string s => .string s
  | .array items => .list (readValues items)

/-- The values that JSON values stand for. -/
def readValues : List Json → List Value
  | [] => []
  | item :: rest => readValue item :: readValues rest

end

/-- The items of a list. -/
def readItems : Json → List Json
  | .array items => items
  | _ => []

/-- The values of a record. -/
def readSlots (json : Json) : Slots :=
  readValues (readItems json)

/-- A member that is a number. -/
def readCount (json : Json) (name : String) : Nat :=
  ((json.member? name).bind Json.nat?).getD 0

/-- A member that is a list of generations. -/
def readGenerations (json : Json) (name : String) : List Store.Generation :=
  Store.ascending ((((json.member? name).map readItems).getD []).filterMap Json.nat?)

/-- A view: that of a frame, or a snapshot. -/
def readView (json : Json) : Visibility :=
  let generation := readCount json "generation"
  let invalid := readGenerations json "invalid"
  match (json.member? "snapshot").bind Json.bool? with
  | some true => .snapshot generation invalid
  | _ => .ofFrame generation invalid

/-- What trimming respects. -/
def readGcView (json : Json) : GcView :=
  { watermark := readCount json "watermark"
    readers := (((json.member? "readers").map readItems).getD []).map readView
    opened := readGenerations json "open" }

end VersionedObjects.Report
