import VersionedObjects.Files.FileError

/-!
# Hosts

What a program that works on files asks of its surroundings: files and directories, two outputs
and a clock.
-/

namespace VersionedObjects.Files

/-- Where output goes. -/
inductive Output where
  | standard
  | errors
  deriving DecidableEq, Inhabited, Repr

/-- The surroundings of a program. -/
class Host (m : Type → Type) where
  /-- The text of a file. -/
  read : String → m (Except FileError String)
  /-- The names in a directory, in any order. -/
  list : String → m (Except FileError (List String))
  isDirectory : String → m Bool
  /-- There is a file or directory at the path. -/
  isThere : String → m Bool
  /-- Makes a directory. -/
  makeDirectory : String → m (Except FileError Unit)
  /-- Makes a file or replaces its text. -/
  write : String → String → m (Except FileError Unit)
  print : Output → String → m Unit
  /-- The time in microseconds. -/
  microseconds : m Nat

end VersionedObjects.Files
