import VersionedObjects.Files.Host
import VersionedObjects.Files.Path
import VersionedObjects.Grammar.Format

/-!
# Loading declarations from files

The extension of a file, in whatever case, names the format of its declarations.
-/

namespace VersionedObjects.Files

open Declaration (Module)
open Grammar (Format LoadError)

/-- The format of a file. -/
def formatOf (path : String) : Except LoadError Format :=
  Format.ofName ((lowerExtension? path).getD "")

/-- The text of a declaration file. -/
def readSource {m : Type → Type} [Monad m] [Host m] (path : String) :
    m (Except LoadError String) := do
  return (← Host.read path).mapError fun e => .unreadable path e.text

/-- The module that a file declares. -/
def loadModule {m : Type → Type} [Monad m] [Host m] (path : String) :
    m (Except LoadError Module) := do
  match formatOf path with
  | .error e => return .error e
  | .ok format => return (← readSource path) >>= format.parse

end VersionedObjects.Files
