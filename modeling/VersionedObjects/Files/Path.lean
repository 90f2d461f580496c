import VersionedObjects.Files.FileError
import VersionedObjects.Text.LetterCase

/-!
# Paths

A path is a text of parts between slashes. Empty parts and single dots name nothing; two dots name
the directory above. The steps of a path are its parts that are not empty, with a single dot only
where it comes first: each step but the last leads to a directory above the path.
-/

namespace VersionedObjects.Files

/-- What stands between the slashes of a path. -/
def parts (path : String) : List String :=
  (path.toList.splitOn '/').map String.ofList

/-- The path starts at the root. -/
def isAbsolute (path : String) : Bool :=
  path.toList.head? == some '/'

/-- The path can only be a directory. -/
def endsInSlash (path : String) : Bool :=
  path.toList.getLast? == some '/'

/-- The parts of a path that name something. -/
def namingParts (path : String) : List String :=
  (parts path).filter fun part => part ≠ "" ∧ part ≠ "."

/-- The last part of a path, if it is a name. -/
def fileName? (path : String) : Option String :=
  (namingParts path).getLast?.filter (· ≠ "..")

/-- A file name cut at its last dot, if there is one that is not its first character: what stands
before it and what follows it. -/
def splitExtension? (name : String) : Option (String × String) :=
  let reversed := name.toList.reverse
  let after := reversed.takeWhile (· ≠ '.')
  match reversed.drop after.length with
  | '.' :: stem@(_ :: _) => some (String.ofList stem.reverse, String.ofList after.reverse)
  | _ => none

/-- The extension of a path's file name. -/
def extension? (path : String) : Option String :=
  ((fileName? path).bind splitExtension?).map (·.2)

/-- The extension of a path in lower case. -/
def lowerExtension? (path : String) : Option String :=
  (extension? path).map Text.lowerText

/-- A file name with its extension, if any, replaced. A stem that is a single dot would name the
directory itself, so nothing is added to it: what is left is the name of the directory above. -/
def withExtension (name extension : String) : String :=
  match splitExtension? name with
  | some (".", _) => ".."
  | some (stem, _) => stem ++ "." ++ extension
  | none => name ++ "." ++ extension

/-- A path below a directory. -/
def join (directory path : String) : String :=
  if isAbsolute path ∨ directory = "" then path
  else if endsInSlash directory then directory ++ path
  else directory ++ "/" ++ path

/-- A text without the slashes at its end, unless it is nothing but slashes. -/
def dropSlashes (path : String) : String :=
  match path.toList.reverse.dropWhile (· = '/') with
  | [] => if isAbsolute path then "/" else ""
  | reversed => String.ofList reversed.reverse

/-- The path up to each of its steps, from the first step on. -/
def stepPaths (path : String) : List String :=
  let parts := parts path
  let steps := parts.zipIdx.filter fun (part, n) => part ≠ "" ∧ (part ≠ "." ∨ n = 0)
  steps.map fun (_, n) => String.intercalate "/" (parts.take (n + 1))

/-- The directories above a path that are steps of it, from the nearest on. -/
def directoriesAbove (path : String) : List String :=
  (stepPaths path).dropLast.reverse

/-- The directory of a path: the nearest one above it, or where the path starts. -/
def parent (path : String) : String :=
  (directoriesAbove path).headD (if isAbsolute path then "/" else "")

/-- How many bytes a path has at most. -/
def maxPathSize : Nat := 4095

/-- How many bytes a name in a path has at most. -/
def maxNameSize : Nat := 255

/-- Why a text is no path to anything. -/
def pathFault? (path : String) : Option FileError :=
  if path.toList.contains '\x00' then some .nulInPath
  else if path = "" then some .missing
  else if maxPathSize < path.utf8ByteSize then some .nameTooLong
  else none

end VersionedObjects.Files
