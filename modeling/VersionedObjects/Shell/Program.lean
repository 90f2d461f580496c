import VersionedObjects.Files.Generator
import VersionedObjects.Settings
import VersionedObjects.Shell.Console
import VersionedObjects.Shell.Usage

/-!
# The program

What the command line asks for is done on a host. Failures are printed with their causes.
-/

namespace VersionedObjects.Shell

open Emission (EmitConfig)
open Files (FileError Generator Host)
open Framing (Pipeline)

variable {m : Type → Type} [Monad m] [Host m]

/-! ## Failures -/

/-- A cause, whose further lines are indented. The number is that of the cause among several. -/
def causeText (number : Option Nat) (cause : String) : String :=
  let (first, further) :=
    match number with
    | some n =>
      let digits := toString n
      (String.ofList (List.replicate (5 - digits.length) ' ') ++ digits ++ ": ", "       ")
    | none => ("    ", "    ")
  first ++ String.intercalate ("\n" ++ further) (cause.splitOn "\n")

/-- An error with its causes, each on lines of its own. -/
def failureText : List String → String
  | [] => ""
  | [text] => text
  | [text, cause] => text ++ "\n\nCaused by:\n" ++ causeText none cause
  | text :: causes =>
    text ++ "\n\nCaused by:\n" ++
      String.intercalate "\n" (causes.zipIdx.map fun (cause, n) => causeText (some n) cause)

/-- Prints an error with its causes, and gives the exit code. -/
def failWith (messages : List String) : m Nat := do
  printLine .errors ("Error: " ++ failureText messages)
  return 1

/-! ## Settings -/

/-- The settings of a file, or why there are none. -/
def loadSettings (path : String) : m (Except (List String) Settings) := do
  match ← Host.read path with
  | .error e => return .error ["failed to read config " ++ path, e.text]
  | .ok text =>
    match Settings.ofText? text with
    | some settings => return .ok settings
    | none => return .error ["invalid config " ++ path, "the text is not the JSON of settings"]

/-- Why a file gives no settings of the store. -/
inductive StoreSettingsError where
  | unreadable (error : FileError)
  | invalid
  deriving DecidableEq, Inhabited, Repr

/-- The error as text. -/
def StoreSettingsError.text : StoreSettingsError → String
  | unreadable e => "IO error: " ++ e.text
  | invalid => "Configuration error: the text is not the JSON of settings"

/-- The settings of the store alone, from a file of their own. -/
def loadStoreSettings (path : String) : m (Except StoreSettingsError Store.Config) := do
  match ← Host.read path with
  | .error e => return .error (.unreadable e)
  | .ok text =>
    match (Json.parse? text).bind Store.Config.ofJson? with
    | some config => return .ok config
    | none => return .error .invalid

/-- The settings of a file, or those by default. -/
def settingsOf (config : Option String) : m (Except (List String) Settings) :=
  match config with
  | some path => loadSettings path
  | none => return .ok {}

/-! ## Generating and checking -/

/-- Generates the files of a directory. -/
def generateAll (emit : EmitConfig) (input output : String) : m Nat := do
  let (result, _) ← (Generator.ofConfig emit).generateDirectory input output
  match result with
  | .error e => failWith e.messages
  | .ok done =>
    printLine .standard <|
      s!"Wrote {done.written} of {done.processed} files to " ++ output ++
        s!" ({done.classes.transformed} classes framed, {done.classes.properties} properties)"
    for error in done.errors do
      printLine .errors error
    if done.success then return 0 else failWith [s!"{done.errors.length} files failed"]

/-- Generates one file. -/
def generateOne (emit : EmitConfig) (input output : String) : m Nat := do
  let (result, _) ← (Generator.ofConfig emit).generateFile input output
  match result with
  | .error e => failWith e.messages
  | .ok _ =>
    printLine .standard ("Wrote " ++ output)
    return 0

/-- Prints the code of a file; a file without an extension is in declaration syntax. -/
def printCode (emit : EmitConfig) (input : String) : m Nat := do
  match ← Host.read input with
  | .error e => failWith ["failed to read " ++ input, e.text]
  | .ok source =>
    let format := (Files.lowerExtension? input).getD Grammar.Format.frames.name
    let origin := (Files.fileName? input).getD ""
    match ((Generator.ofConfig emit).sourceCode source format origin).1 with
    | .error e => failWith e.messages
    | .ok (code, _) =>
      Host.print .standard code
      return 0

/-- Reports what framing would do with a file. -/
def check (emit : EmitConfig) (input : String) : m Nat := do
  match ← Files.loadModule input with
  | .error e => failWith e.messages
  | .ok module =>
    let pipeline := { Pipeline.standard with recordSuffix := emit.recordSuffix }
    let (outcome, _) := pipeline.transform module
    for c in outcome.transformed do
      printLine .standard <|
        c.host.name ++ ": framed into " ++ c.record.name ++ " (" ++
          String.intercalate ", " c.framed ++ ")"
    let s := outcome.summary
    printLine .standard <|
      s!"{s.seen} classes, {s.transformed} framed, {s.skipped} skipped, " ++
        s!"{s.properties} properties framed"
    for e in s.errors do
      printLine .errors ("error: " ++ e.text)
    if s.success then return 0 else failWith [input ++ s!": {s.errors.length} errors"]

/-! ## The command line -/

/-- What is left to do after a command line: nothing but to exit with a code, or to run a session
on the lines of the standard input. -/
inductive Conclusion where
  | exit (code : Nat)
  | converse (session : Session)

/-- The directory that code is generated into by default. -/
def defaultOutput : String := "generated"

/-- Does what is asked for. -/
def act (settings : Settings) : Action → m Conclusion
  | .generate input output => do
    if ← Host.isDirectory input then
      return .exit (← generateAll settings.emit input (output.getD defaultOutput))
    else
      match output with
      | some output => return .exit (← generateOne settings.emit input output)
      | none => return .exit (← printCode settings.emit input)
  | .check input => return .exit (← check settings.emit input)
  | .script path => do
    match ← Host.read path with
    | .error e => return .exit (← failWith ["failed to read " ++ path, e.text])
    | .ok text => return .exit (← runScript (.start settings.runtime) text)
  | .converse => return .converse (.start settings.runtime)

/-- The exit code for arguments that make no request. -/
def usageCode : Nat := 2

/-- Does what a command line asks for. -/
def runProgram (args : List String) : m Conclusion := do
  match parseArgs args with
  | .error e =>
    printLine .errors ("error: " ++ e.text ++ "\n\nFor more information, try '--help'.")
    return .exit usageCode
  | .ok (.help topic) =>
    Host.print .standard (usageText topic)
    return .exit 0
  | .ok .version =>
    printLine .standard ("framec " ++ version)
    return .exit 0
  | .ok (.run config action) =>
    match ← settingsOf config with
    | .error messages => return .exit (← failWith messages)
    | .ok settings => act settings action

end VersionedObjects.Shell
