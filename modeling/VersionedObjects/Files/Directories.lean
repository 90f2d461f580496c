import VersionedObjects.Files.Host
import VersionedObjects.Files.Path

/-!
# Making directories

A directory is made together with the directories above it that are missing. One that is already
there is left as it is.
-/

namespace VersionedObjects.Files

variable {m : Type → Type} [Monad m] [Host m]

/-- Forgives that a directory could not be made if it is there. -/
def settleDirectory (path : String) (made : Except FileError Unit) :
    m (Except FileError Unit) := do
  match made with
  | .error .alreadyThere => if ← Host.isDirectory path then return .ok () else return made
  | _ => return made

/-- Makes the first of some directories, each of which lies in the next one. Those further on are
made where they are missing. -/
def makeNested : List String → m (Except FileError Unit)
  | [] => return .ok ()
  | path :: above => do
    match ← Host.makeDirectory path with
    | .error .missing =>
      match ← makeNested above with
      | .ok () => settleDirectory path (← Host.makeDirectory path)
      | .error e => return .error e
    | made => settleDirectory path made

/-- Makes a directory and those above it, where they are missing. A path without steps is the
working directory or the root, which are there. -/
def makeDirectories (path : String) : m (Except FileError Unit) :=
  makeNested (if (stepPaths path).isEmpty then [] else path :: directoriesAbove path)

end VersionedObjects.Files
