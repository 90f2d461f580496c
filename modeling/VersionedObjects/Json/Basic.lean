import VersionedObjects.Number.Binary64

/-!
# JSON values

Numbers are split into integers of 64 bits, signed or not, and all others, which are double
precision. What is well formed but has no value (half of a surrogate pair, a number beyond every
double, nesting beyond the limit) is kept as `unreadable`: it does no harm where it is skipped.
-/

namespace VersionedObjects

open Number (Binary64)

/-- A JSON value. -/
inductive Json where
  | null
  | bool (value : Bool)
  | int (value : Int)
  | float (value : Binary64)
  | string (value : String)
  | array (items : List Json)
  /-- Members in order, also those of one name. -/
  | object (members : List (String × Json))
  | unreadable
  deriving Inhabited, Repr

namespace Json

/-- The first member of the name. -/
def member? (name : String) : Json → Option Json
  | object members => members.lookup name
  | _ => none

/-- The text of a string. -/
def string? : Json → Option String
  | string value => some value
  | _ => none

/-- The value of a boolean. -/
def bool? : Json → Option Bool
  | bool value => some value
  | _ => none

/-- A natural number of 64 bits. -/
def nat? : Json → Option Nat
  | int (.ofNat n) => some n
  | _ => none

/-- A signed integer of 64 bits. -/
def int64? : Json → Option Int64
  | int n => if -Int.pow 2 63 ≤ n ∧ n < Int.pow 2 63 then some (Int64.ofInt n) else none
  | _ => none

/-- A number, integers rounded to double precision. -/
def float? : Json → Option Binary64
  | int n => some (Binary64.ofRatio (n < 0) n.natAbs 1)
  | float x => some x
  | _ => none

/-- A list whose items all have a value. -/
def list? {α : Type} (item? : Json → Option α) : Json → Option (List α)
  | array items => items.mapM item?
  | _ => none

/-- A value or null. -/
def option? {α : Type} (value? : Json → Option α) : Json → Option (Option α)
  | null => some none
  | json => (value? json).map some

/-- The members of a structure: those of an object by name, known ones at most once, or the items
of an array by position. -/
def structure? (names : List String) : Json → Option (List (Option Json))
  | object members =>
    if names.all fun name => (members.filter (·.1 == name)).length ≤ 1 then
      some (names.map fun name => members.lookup name)
    else none
  | array items =>
    if items.length ≤ names.length then
      some (items.map some ++ List.replicate (names.length - items.length) none)
    else none
  | _ => none

/-- The alternative that a value names, with its content: a bare name or an object with one
member. -/
def variant? : Json → Option (String × Option Json)
  | string name => some (name, none)
  | object [(name, content)] => some (name, some content)
  | _ => none

/-- A member that must be there. -/
def required? {α : Type} (value? : Json → Option α) : Option Json → Option α
  | some json => value? json
  | none => none

/-- A member that has a value when it is missing. -/
def defaulted? {α : Type} (default : α) (value? : Json → Option α) : Option Json → Option α
  | some json => value? json
  | none => some default

/-- An alternative without content, alone or with null. -/
def unit? : Option Json → Option Unit
  | none | some null => some ()
  | _ => none

end Json

end VersionedObjects
