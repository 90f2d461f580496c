import VersionedObjects.Json.Basic
import VersionedObjects.Number.Layout
import VersionedObjects.Text.Quoted

/-!
# Writing JSON

Values on one line in ASCII: every other character is written as its UTF-16 units.
-/

namespace VersionedObjects.Json

/-- A UTF-16 unit as an escape. -/
def unitEscape (n : Nat) : List Char :=
  let digits := Text.hexDigits n
  ['\\', 'u'] ++ List.replicate (4 - digits.length) '0' ++ digits

/-- One character of a string. -/
def encodeChar (c : Char) : List Char :=
  if c = '"' ∨ c = '\\' then ['\\', c]
  else if 0x20 ≤ c.toNat ∧ c.toNat < 0x7f then [c]
  else if c.toNat < 0x10000 then unitEscape c.toNat
  else
    let n := c.toNat - 0x10000
    unitEscape (0xd800 + n / 0x400) ++ unitEscape (0xdc00 + n % 0x400)

/-- A string with its quotes. -/
def encodeString (text : String) : String :=
  String.ofList ('"' :: text.toList.flatMap encodeChar ++ ['"'])

mutual

/-- The value as text. What has no value is null. -/
def text : Json → String
  | null | unreadable => "null"
  | bool value => if value then "true" else "false"
  | int value => toString value
  | float value => value.text
  | string value => encodeString value
  | array [] => "[]"
  | array (item :: rest) => "[" ++ item.text ++ textMore rest ++ "]"
  | object [] => "\x7b\x7d"
  | object ((name, value) :: rest) =>
    "\x7b" ++ encodeString name ++ ":" ++ value.text ++ membersText rest ++ "\x7d"

/-- Further items, each after a comma. -/
def textMore : List Json → String
  | [] => ""
  | item :: rest => "," ++ item.text ++ textMore rest

/-- Further members, each after a comma. -/
def membersText : List (String × Json) → String
  | [] => ""
  | (name, value) :: rest => "," ++ encodeString name ++ ":" ++ value.text ++ membersText rest

end

end VersionedObjects.Json
