import VersionedObjects.Text.Printable

/-!
# Quoted text

Text between double quotes on one line. A quote and a backslash get a backslash before them; NUL,
tab, line feed and carriage return have letters; any other character that is not printable is
written as its code point in lower case hexadecimal between braces.
-/

namespace VersionedObjects.Text

/-- The digits of a number in lower case hexadecimal. -/
def hexDigits (n : Nat) : List Char :=
  Nat.toDigits 16 n

/-- One character of quoted text. -/
def quoteChar (c : Char) : List Char :=
  match c with
  | '\x00' => ['\\', '0']
  | '\t' => ['\\', 't']
  | '\n' => ['\\', 'n']
  | '\r' => ['\\', 'r']
  | '"' => ['\\', '"']
  | '\\' => ['\\', '\\']
  | c => if isPrintable c then [c] else ['\\', 'u', '\x7b'] ++ hexDigits c.toNat ++ ['\x7d']

/-- A text in its quoted form. -/
def quoteChars (cs : List Char) : List Char :=
  '"' :: cs.flatMap quoteChar ++ ['"']

/-- A text in its quoted form. -/
def quote (text : String) : String :=
  String.ofList (quoteChars text.toList)

end VersionedObjects.Text
