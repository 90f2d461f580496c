import VersionedObjects.Grammar.Declaration
import VersionedObjects.Text.Quoted

/-!
# Syntax errors

A text that cannot be read gives the line and column of the fault, both counted from one, and a
message that quotes the text found there.
-/

namespace VersionedObjects.Grammar

open Declaration

/-- Where and why a text could not be read. -/
structure SyntaxError where
  line : Nat
  column : Nat
  message : String
  deriving DecidableEq, Inhabited, Repr

/-- The number of characters of the text that a message quotes. -/
def excerptLength : Nat := 12

/-- The line of the place after a text. -/
def lineAfter (before : List Char) : Nat :=
  before.count '\n' + 1

/-- The column of the place after a text, in characters. -/
def columnAfter (before : List Char) : Nat :=
  (before.reverse.takeWhile (· ≠ '\n')).length + 1

/-- What is wrong at the place of a fault, given the text from there on. -/
def Fault.message (fault : Fault) (rest : List Char) : String :=
  let found := Text.quote (String.ofList (rest.take excerptLength))
  match fault.expected?, fault.construct? with
  | some c, some construct =>
    "expected '" ++ String.singleton c ++ "' in " ++ construct ++ ", found " ++ found
  | some c, none => "expected '" ++ String.singleton c ++ "', found " ++ found
  | none, some construct => "invalid " ++ construct ++ " at " ++ found
  | none, none => "unexpected " ++ found

/-- The error of a fault in a text. A fault without a place is on no line. -/
def SyntaxError.ofFault (source : List Char) (fault : Fault) : SyntaxError :=
  match fault.trace with
  | [] => { line := 0, column := 0, message := "invalid declaration" }
  | (rest, _) :: _ =>
    let before := source.take (source.length - rest.length)
    { line := lineAfter before, column := columnAfter before, message := fault.message rest }

/-- The error as one line. -/
def SyntaxError.text (e : SyntaxError) : String :=
  s!"Syntax error at {e.line}:{e.column}: {e.message}"

/-- Applies a reader, which reads to the end, to a whole text. -/
def readWhole {α : Type} (p : Nat → Reader α) (source : String) : Except SyntaxError α :=
  let s := source.toList
  match p (s.length + 1) s with
  | .done value _ => .ok value
  | .miss fault | .halt fault => .error (SyntaxError.ofFault s fault)

/-- The module that a text declares. -/
def parseModule (source : String) : Except SyntaxError Module :=
  readWhole module source

/-- The expression that a text denotes. -/
def parseExpr (source : String) : Except SyntaxError Expr :=
  readWhole wholeExpr source

end VersionedObjects.Grammar
