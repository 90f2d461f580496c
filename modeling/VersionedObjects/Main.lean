import VersionedObjects.Shell.Program

/-!
# The program on the operating system

Files, the console and the clock are those of the operating system; all else is in
`VersionedObjects.Shell.Program`.
-/

namespace VersionedObjects

open Files (FileError Host)
open Shell (Session)

/-- The number of an error, which some operations give with the sign turned. -/
def errorNumber (code : UInt32) : UInt32 :=
  if code < 0x80000000 then code else 0 - code

/-- An error of the operating system. -/
def fileErrorOf (e : IO.Error) : FileError :=
  match e with
  | .noFileOrDirectory .. => .missing
  | .alreadyExists .. => .alreadyThere
  | .inappropriateType _ code _ | .invalidArgument _ code _ =>
    match errorNumber code with
    | 20 => .notDirectory
    | 21 => .isDirectory
    | 36 => .nameTooLong
    | _ => .other (toString e)
  | e => .other (toString e)

/-- What an action of the operating system on a path gives. -/
def attempt {α : Type} (path : String) (action : IO α) : IO (Except FileError α) := do
  if let some e := Files.pathFault? path then return .error e
  try return .ok (← action)
  catch e => return .error (fileErrorOf e)

/-- A path as an entry of no directory, which can be asked what it is. -/
def entryOf (path : String) : IO.FS.DirEntry :=
  { root := path, fileName := "" }

instance : Host IO where
  read path := attempt path (IO.FS.readFile path)
  list path := attempt path do return (← (entryOf path).root.readDir).toList.map (·.fileName)
  isDirectory path :=
    if (Files.pathFault? path).isSome then return false else (entryOf path).root.isDir
  isThere path :=
    if (Files.pathFault? path).isSome then return false else (entryOf path).root.pathExists
  makeDirectory path := attempt path (IO.FS.createDir path)
  write path text := attempt path (IO.FS.writeFile path text)
  print output text :=
    match output with
    | .standard => IO.print text
    | .errors => IO.eprint text
  microseconds := return (← IO.monoNanosNow) / 1000

/-- Runs a session on the lines of the standard input. -/
partial def runSession (input : IO.FS.Stream) (prompts : Bool) (s : Session) : IO Nat := do
  if !s.running then return ← Shell.endOfInput s
  if prompts then
    IO.print s.prompt
    (← IO.getStdout).flush
  let line ← input.getLine
  if line.isEmpty then return ← Shell.endOfInput s
  let line := if line.endsWith "\n" then Text.dropReturn (line.dropEnd 1).toString else line
  match ← Shell.turn s (Text.eraseBackspaced line) with
  | .ok s => runSession input prompts s
  | .error _ => return Shell.brokenCode

/-- Runs a session from its greeting to its end. -/
def startSession (s : Session) : IO Nat := do
  IO.println (Shell.greeting Shell.version)
  let input ← IO.getStdin
  let prompts ← input.isTty
  if prompts then IO.println "Type .help for help, .quit to exit\n"
  runSession input prompts s

end VersionedObjects

/-- Does what the command line asks for. -/
def main (args : List String) : IO UInt32 := do
  let code ←
    match ← VersionedObjects.Shell.runProgram args with
    | .exit code => pure code
    | .converse session => VersionedObjects.startSession session
  return code.toUInt32
