/-!
# Errors of files

Why a file or directory could not be read or written, in the words of the operating system.
-/

namespace VersionedObjects.Files

/-- Why an operation on a file or directory failed. -/
inductive FileError where
  | missing
  | alreadyThere
  | notDirectory
  | isDirectory
  | nameTooLong
  /-- The path has a character that no path may have. -/
  | nulInPath
  | other (text : String)
  deriving DecidableEq, Inhabited, Repr

/-- The error as text. -/
def FileError.text : FileError → String
  | missing => "No such file or directory (os error 2)"
  | alreadyThere => "File exists (os error 17)"
  | notDirectory => "Not a directory (os error 20)"
  | isDirectory => "Is a directory (os error 21)"
  | nameTooLong => "File name too long (os error 36)"
  | nulInPath => "file name contained an unexpected NUL byte"
  | other text => text

end VersionedObjects.Files
