import VersionedObjects.Emission.Class
import VersionedObjects.Files.Directories
import VersionedObjects.Files.Loading
import VersionedObjects.Framing.Pipeline

/-!
# Generating code for files

Declaration files are framed and their code is written to other files, one by one or for a whole
directory. A file that fails is reported and the others are generated all the same. One pipeline
serves all files, so its counts add up.
-/

namespace VersionedObjects.Files

open Declaration (Module)
open Emission (EmitConfig EmitError)
open Framing (FramingError Pipeline Summary)
open Grammar (Format LoadError)

/-- What code is generated from, and how. -/
structure Generator where
  pipeline : Pipeline
  emit : EmitConfig
  /-- The extensions of the files of a directory that are declarations. -/
  extensions : List String := [Format.frames.name, Format.json.name]
  /-- Files of subdirectories go to subdirectories of the same name. -/
  keepsStructure : Bool := true
  deriving Inhabited

/-- The extension of generated files. -/
def codeExtension : String := "rs"

/-- Why no code was generated. -/
inductive GenerateError where
  | load (error : LoadError)
  /-- The file that could not be loaded, and why. -/
  | loadFile (path : String) (error : LoadError)
  /-- Where the classes come from that cannot be framed, and why. -/
  | framing (origin : String) (errors : List FramingError)
  | emit (error : EmitError)
  | write (path : String) (error : FileError)
  | file (error : FileError)
  | missingDirectory (path : String)
  deriving Inhabited

namespace GenerateError

/-- The error and its causes, outermost first. -/
def messages : GenerateError → List String
  | load e => e.messages
  | loadFile path e => ("failed to load " ++ path) :: e.messages
  | framing origin errors =>
    [origin ++ ": " ++ String.intercalate "; " (errors.map (·.text))]
  | emit e => [e.text]
  | write path e => ["failed to write " ++ path, e.text]
  | file e => [e.text]
  | missingDirectory path => ["Source directory does not exist: " ++ path]

/-- The error and its causes on one line. -/
def text (e : GenerateError) : String :=
  String.intercalate ": " e.messages

end GenerateError

/-- What became of the files of a run. -/
structure Generated where
  processed : Nat := 0
  written : Nat := 0
  classes : Summary := {}
  errors : List String := []
  deriving Inhabited

/-- Every file was generated. -/
def Generated.success (g : Generated) : Bool :=
  g.errors.isEmpty

/-- What became of a run after one more file. -/
def Generated.add (done : Generated) (path : String) : Except GenerateError Summary → Generated
  | .ok summary =>
    { done with processed := done.processed + 1, written := done.written + 1
                classes := done.classes.merge summary }
  | .error e =>
    { done with processed := done.processed + 1
                errors := done.errors ++ ["Error processing " ++ path ++ ": " ++ e.text] }

namespace Generator

/-- The generator with given choices for code. -/
def ofConfig (emit : EmitConfig) : Generator :=
  { pipeline := { Pipeline.standard with recordSuffix := emit.recordSuffix }, emit }

/-- The code of a module. Errors name where the module comes from, and the code names its
origin. -/
def moduleCode (g : Generator) (m : Module) (source origin : String) :
    Except GenerateError (String × Summary) × Generator :=
  let (outcome, pipeline) := g.pipeline.transform m
  let g := { g with pipeline }
  if !outcome.summary.success then (.error (.framing source outcome.summary.errors), g)
  else
    match Emission.emit g.emit outcome.module origin with
    | .ok code => (.ok (code, outcome.summary), g)
    | .error e => (.error (.emit e), g)

/-- The code of declarations in a format of a name. -/
def sourceCode (g : Generator) (source format origin : String) :
    Except GenerateError (String × Summary) × Generator :=
  match (do (← Format.ofName format).parse source) with
  | .ok m => g.moduleCode m origin origin
  | .error e => (.error (.load e), g)

variable {m : Type → Type} [Monad m] [Host m]

/-- Writes code to a file, whose directory is made if it is missing. -/
def writeCode (path code : String) : m (Except GenerateError Unit) := do
  match ← makeDirectories (parent path) with
  | .error e => return .error (.file e)
  | .ok () => return (← Host.write path code).mapError (.write path)

/-- Generates one file from another. -/
def generateFile (g : Generator) (source target : String) :
    m (Except GenerateError Summary × Generator) := do
  match formatOf source with
  | .error e => return (.error (.load e), g)
  | .ok format =>
    match (← readSource source) >>= format.parse with
    | .error e => return (.error (.loadFile source e), g)
    | .ok module =>
      let (result, g) := g.moduleCode module source ((fileName? source).getD "")
      match result with
      | .error e => return (.error e, g)
      | .ok (code, summary) => return ((← writeCode target code).map fun _ => summary, g)

/-- A file of the name is generated. -/
def isSource (g : Generator) (name : String) : Bool :=
  match lowerExtension? name with
  | some extension => g.extensions.any fun e => Text.lowerText e == extension
  | none => false

/-- The file that the code for a file goes to, given the directories on the way to it. -/
def targetOf (g : Generator) (directory : String) (way : List String) (name : String) : String :=
  let name := withExtension name codeExtension
  join directory (String.intercalate "/" (if g.keepsStructure then way ++ [name] else [name]))

/-- How deep directories nest at most: a path has no more than 4095 bytes. -/
def directoryDepth : Nat := maxPathSize

/-- Generates files of a directory in order, and what is below its subdirectories in the given
way. -/
def generateEach (source target : String) (way : List String)
    (below : Generator → Generated → List String → m (Except GenerateError Generated × Generator))
    (g : Generator) (done : Generated) :
    List String → m (Except GenerateError Generated × Generator)
  | [] => return (.ok done, g)
  | name :: rest => do
    let path := (way ++ [name]).foldl join source
    if ← Host.isDirectory path then
      match ← below g done (way ++ [name]) with
      | (.ok done, g) => generateEach source target way below g done rest
      | (.error e, g) => return (.error e, g)
    else if g.isSource name then
      let (result, g) ← g.generateFile path (g.targetOf target way name)
      generateEach source target way below g (done.add path result) rest
    else generateEach source target way below g done rest

/-- Generates the files below a directory, in the order of their names. -/
def generateBelow (source target : String) :
    Nat → Generator → Generated → List String → m (Except GenerateError Generated × Generator)
  | 0, g, done, _ => return (.ok done, g)
  | depth + 1, g, done, way => do
    match ← Host.list (way.foldl join source) with
    | .error e => return (.error (.file e), g)
    | .ok names =>
      generateEach source target way (generateBelow source target depth) g done
        (names.mergeSort (· ≤ ·))

/-- Generates the declaration files of a directory into another one. -/
def generateDirectory (g : Generator) (source target : String) :
    m (Except GenerateError Generated × Generator) := do
  if !(← Host.isThere source) then return (.error (.missingDirectory source), g)
  match ← makeDirectories target with
  | .error e => return (.error (.file e), g)
  | .ok () => generateBelow source target directoryDepth g {} []

end Generator

end VersionedObjects.Files
