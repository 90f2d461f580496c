import VersionedObjects.Declaration.Structured.Printer
import VersionedObjects.Dynamic.Value
import VersionedObjects.Number.Layout

/-!
# Reports

What the library has done and found is reported as JSON. Numbers with a fraction are reported by
their exact text, in a member of its own, so that no reader rounds them.
-/

namespace VersionedObjects.Report

open Declaration (jsonList jsonOption)
open VersionedObjects.Dynamic (Value Slots)
open Number (Binary64)

/-- A number that need not be an integer. -/
def float (x : Binary64) : Json :=
  .object [("$float", .string x.text)]

/-- A count. -/
def count (n : Nat) : Json :=
  .int n

/-- Texts. -/
def texts (items : List String) : Json :=
  jsonList .string items

/-- Counts. -/
def counts (items : List Nat) : Json :=
  jsonList count items

/-- An error by its kind. -/
def error (kind : String) : Json :=
  .object [("error", .string kind)]

/-- An error by its kind with its text. -/
def errorText (kind text : String) : Json :=
  .object [("error", .string kind), ("message", .string text)]

mutual

/-- A value. -/
def value : Value → Json
  | .null => .null
  | .bool b => .bool b
  | .int n => .int n.toInt
  | .float x => float x
  | .string s => .string s
  | .list items => .array (values items)

/-- The items of a list. -/
def values : List Value → List Json
  | [] => []
  | item :: rest => value item :: values rest

end

/-- The values of a record. -/
def slots (s : Slots) : Json :=
  .array (values s)

end VersionedObjects.Report
