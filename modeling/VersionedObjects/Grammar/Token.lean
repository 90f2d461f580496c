import VersionedObjects.Grammar.Outcome
import VersionedObjects.Declaration.Expr

/-!
# Words and literals

The smallest parts of a declaration. Blanks are the four ASCII ones and comments, which run from
`//` to the end of the line. Identifiers are ASCII; a keyword is a word that no identifier
character follows.
-/

namespace VersionedObjects.Grammar

open Declaration (Literal)
open Number (Binary64)

/-- Blanks between words. -/
def isSpace (c : Char) : Bool :=
  c == ' ' || c == '\t' || c == '\r' || c == '\n'

/-- The text after blanks and comments. -/
def skipBlanks : List Char → List Char
  | '/' :: '/' :: rest => skipComment rest
  | c :: rest => if isSpace c then skipBlanks rest else c :: rest
  | [] => []
where
  /-- The text after the rest of a comment and what blanks follow it. -/
  skipComment : List Char → List Char
    | '\n' :: rest => skipBlanks rest
    | _ :: rest => skipComment rest
    | [] => []

/-- Skips blanks before a reader. -/
def spaced {α : Type} (p : Reader α) : Reader α := fun s =>
  p (skipBlanks s)

/-- Reads one given character. -/
def char (c : Char) : Reader Unit
  | d :: rest => if d = c then .done () rest else .miss (.missing c (d :: rest))
  | [] => .miss (.missing c [])

/-- Reads one given character after blanks. -/
def symbol (c : Char) : Reader Unit :=
  spaced (char c)

/-- A letter or underscore. -/
def isIdentStart (c : Char) : Bool :=
  c.isAlpha || c == '_'

/-- A letter, digit or underscore. -/
def isIdentChar (c : Char) : Bool :=
  c.isAlphanum || c == '_'

/-- The rest of a text that starts with a word. -/
def dropWord : List Char → List Char → Option (List Char)
  | [], rest => some rest
  | c :: word, d :: rest => if c = d then dropWord word rest else none
  | _ :: _, [] => none

/-- Reads a given word that does not go on. -/
def keyword (word : String) : Reader Unit := fun s =>
  match dropWord word.toList s with
  | some (c :: rest) =>
    if isIdentChar c then .miss (.here (c :: rest)) else .done () (c :: rest)
  | some [] => .done () []
  | none => .miss (.here s)

/-- Reads an identifier. -/
def identifier : Reader String
  | c :: rest =>
    if isIdentStart c then
      .done (String.ofList (c :: rest.takeWhile isIdentChar)) (rest.dropWhile isIdentChar)
    else .miss (.here (c :: rest))
  | [] => .miss (.here [])

/-- Reads one or more decimal digits. -/
def digits : Reader (List Char) := fun s =>
  match s.takeWhile Char.isDigit with
  | [] => .miss (.here s)
  | c :: more => .done (c :: more) (s.dropWhile Char.isDigit)

/-- Reads a minus sign if there is one. -/
def sign : Reader Bool := do
  return (← Reader.optional (char '-')).isSome

/-- The number that decimal digits denote. -/
def digitsValue (digits : List Char) : Nat :=
  digits.foldl (fun n c => 10 * n + (c.toNat - '0'.toNat)) 0

/-- Reads a number with digits on both sides of a point. -/
def float : Reader Literal := do
  let negative ← sign
  let whole ← digits
  char '.'
  let fraction ← digits
  return .float (Binary64.ofDecimal negative (digitsValue (whole ++ fraction)) (-fraction.length))

/-- The integer of a sign and digits, if it has 64 bits. -/
def int64? (negative : Bool) (digits : List Char) : Option Int64 :=
  let n := digitsValue digits
  if negative then if n ≤ Nat.pow 2 63 then some (Int64.ofInt (-n)) else none
  else if n < Nat.pow 2 63 then some (Int64.ofInt n) else none

/-- Reads an integer of 64 bits. -/
def int : Reader Literal :=
  Reader.filterMap (do return (← sign, ← digits)) fun (negative, digits) =>
    (int64? negative digits).map .int

/-- The character that a letter after a backslash stands for. -/
def unescape : Char → Option Char
  | '\\' => some '\\'
  | '"' => some '"'
  | 'n' => some '\n'
  | 't' => some '\t'
  | _ => none

/-- What stands before the next quote or the end, none if an escape is unknown or cut off. -/
def stringContent : List Char → Option (List Char × List Char)
  | [] => some ([], [])
  | '"' :: rest => some ([], '"' :: rest)
  | '\\' :: c :: rest => do
    let d ← unescape c
    let (content, rest) ← stringContent rest
    return (d :: content, rest)
  | ['\\'] => none
  | c :: rest => do
    let (content, rest) ← stringContent rest
    return (c :: content, rest)

/-- Reads text in double quotes. With an unknown escape the closing quote is missed right after
the opening one. -/
def string : Reader String := do
  char '"'
  let content ← fun s =>
    match stringContent s with
    | some (content, rest) => .done content rest
    | none => .done [] s
  Reader.commit (char '"')
  return String.ofList content

/-- Reads a literal. -/
def literal : Reader Literal :=
  Reader.orElse (do return .string (← string)) <|
  Reader.orElse float <|
  Reader.orElse int <|
  Reader.orElse (do keyword "true"; return .bool true) <|
  Reader.orElse (do keyword "false"; return .bool false)
    (do keyword "null"; return .null)

end VersionedObjects.Grammar
