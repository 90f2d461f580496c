import VersionedObjects.Files.Loading
import VersionedObjects.Shell.Session
import VersionedObjects.Text.Backspace
import VersionedObjects.Text.Lines

/-!
# The shell on a console

Results go to the standard output with the time they took, unless the session is quiet; problems
go to the error output. A script is echoed line by line.
-/

namespace VersionedObjects.Shell

open VersionedObjects.Dynamic (Failure)
open Files (Host Output)
open Grammar (LoadError)

variable {m : Type → Type} [Monad m] [Host m]

/-- Prints a line. -/
def printLine (output : Output) (text : String) : m Unit :=
  Host.print output (text ++ "\n")

/-- Runs a line of a session, reading the file that it may name. -/
def Session.runHere (s : Session) (line : String) : m (Except Problem String × Session) := do
  match parseCommand line with
  | .ok (.load path) =>
    let loaded ← Files.loadModule path
    return s.run (fun _ => loaded) line
  | _ => return s.run (fun path => .error (.unknownFormat path)) line

/-- What came of a line: nothing, a result or a problem; and the frame that was active after it. -/
structure Exchange where
  result : Option (Except Problem String)
  active : Option Store.Generation

/-- Answers a line that misused the store with a report of it. -/
def reportMisuse : Except Problem String → Except Problem String
  | .error (.broken (.violation v)) => .ok ("panic: " ++ v.text objectText)
  | result => result

/-- Runs lines until the session ends, without a console; gives what came of each line. A line that
misuses the store is the only one lost: those after it find what it had done before. -/
def transcript (s : Session) : List String → m (List Exchange × Session)
  | [] => return ([], s)
  | line :: rest => do
    if !s.running then return ([], s)
    let (result, s) ←
      if isEffective line then do
        let (result, s) ← s.runHere line
        pure (some (reportMisuse result), s)
      else pure (none, s)
    let (exchanges, last) ← transcript s rest
    return ({ result, active := s.active } :: exchanges, last)

/-- Runs a line of a session and prints what comes of it; fails if the session is broken. -/
def turn (s : Session) (line : String) : m (Except Failure Session) := do
  if !isEffective line then return .ok s
  let start ← Host.microseconds (m := m)
  let (result, s) ← s.runHere line
  match result with
  | .ok text =>
    let stop ← Host.microseconds (m := m)
    if text ≠ "" then
      printLine .standard (text ++ if s.quiet then "" else s!" ({stop - start}us)")
    return .ok s
  | .error problem =>
    printLine .errors ("Error: " ++ problem.text)
    match problem with
    | .broken failure => return .error failure
    | _ => return .ok s

/-- Prints the end of a session. -/
def sayFarewell (s : Session) : m Unit := do
  for text in s.farewell do
    printLine .standard text

/-- The exit code of a broken session. -/
def brokenCode : Nat := 101

/-- Runs lines until the session ends; the session, and whether it is broken. -/
def runLines (echo : Bool) (s : Session) : List String → m (Except Failure Session)
  | [] => return .ok s
  | line :: rest => do
    if !s.running then return .ok s
    if echo && !(Text.trim line.toList).isEmpty then printLine .standard ("> " ++ line)
    match ← turn s line with
    | .ok s => runLines echo s rest
    | .error failure => return .error failure

/-- Runs a script, and gives the exit code. -/
def runScript (s : Session) (text : String) : m Nat := do
  match ← runLines true s (Text.lines text) with
  | .ok s =>
    sayFarewell s
    return 0
  | .error _ => return brokenCode

/-- What is printed when the shell starts. -/
def greeting (version : String) : String :=
  "framec v" ++ version

/-- What is asked when a line is expected. -/
def Session.prompt (s : Session) : String :=
  match s.active with
  | some g => "frames[" ++ Store.generationText g ++ "]> "
  | none => "frames> "

/-- Ends a session whose input has ended, if it is still running. -/
def endOfInput (s : Session) : m Nat := do
  if s.running then printLine .standard "Goodbye!"
  sayFarewell s
  return 0

/-- Runs the shell on lines that were typed, and gives the exit code. -/
def converse (version : String) (s : Session) (lines : List String) : m Nat := do
  printLine .standard (greeting version)
  match ← runLines false s (lines.map Text.eraseBackspaced) with
  | .ok s => endOfInput s
  | .error _ => return brokenCode

end VersionedObjects.Shell
