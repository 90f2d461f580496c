import VersionedObjects.Files.Directories

/-!
# A closed host

A tree of files with everything that was printed. Time stands still. The working directory lies
right below the root, under the empty name: no path spells it, so a path that leaves the working
directory does not come back to it.
-/

namespace VersionedObjects.Files

/-- What is at a place in a tree. -/
inductive Node where
  | directory
  | file (text : String)
  deriving DecidableEq, Inhabited, Repr

/-- A place: the names on the way to it from the root. -/
abbrev Place := List String

namespace Place

/-- The root. -/
def root : Place := []

/-- The working directory. -/
def workingDirectory : Place := [""]

/-- Where a path starts. -/
def start (path : String) : Place :=
  if isAbsolute path then root else workingDirectory

end Place

/-- Files and directories by place. The root and the working directory are always there. -/
structure Tree where
  entries : List (Place × Node) := []
  deriving DecidableEq, Inhabited, Repr

namespace Tree

/-- What is at a place. -/
def node? (t : Tree) (place : Place) : Option Node :=
  if place = Place.root ∨ place = Place.workingDirectory then some .directory
  else t.entries.lookup place

/-- Puts something at a place. -/
def put (t : Tree) (place : Place) (node : Node) : Tree :=
  ⟨t.entries.filter (·.1 ≠ place) ++ [(place, node)]⟩

/-- Follows the parts of a path. Every part is looked up in a directory; what the last one leads
to need not be there. -/
def follow (t : Tree) (place : Place) : List String → Except FileError Place
  | [] => .ok place
  | part :: rest =>
    match t.node? place with
    | none => .error .missing
    | some (.file _) => .error .notDirectory
    | some .directory =>
      if part = "" ∨ part = "." then t.follow place rest
      else if part = ".." then t.follow place.dropLast rest
      else if maxNameSize < part.utf8ByteSize then .error .nameTooLong
      else t.follow (place ++ [part]) rest

/-- The place of a path. -/
def place (t : Tree) (path : String) : Except FileError Place :=
  match pathFault? path with
  | some e => .error e
  | none => t.follow (Place.start path) (parts path)

/-- The place of the directory in which the last part of a path is looked up. -/
def folder (t : Tree) (path : String) : Except FileError Place :=
  match pathFault? path with
  | some e => .error e
  | none => t.follow (Place.start path) ((parts (dropSlashes path)).dropLast ++ ["."])

/-- What is at a path. -/
def find (t : Tree) (path : String) : Except FileError Node := do
  match t.node? (← t.place path) with
  | some node => return node
  | none => throw .missing

/-- The text of a file. -/
def read (t : Tree) (path : String) : Except FileError String := do
  match ← t.find path with
  | .file text => return text
  | .directory => throw .isDirectory

/-- The names in a directory. -/
def list (t : Tree) (path : String) : Except FileError (List String) := do
  let place ← t.place path
  match ← t.find path with
  | .file _ => throw .notDirectory
  | .directory =>
    return t.entries.filterMap fun (child, _) =>
      if child.length = place.length + 1 ∧ child.dropLast = place then child.getLast? else none

/-- There is a directory at the path. -/
def isDirectory (t : Tree) (path : String) : Bool :=
  match t.find path with
  | .ok .directory => true
  | _ => false

/-- Makes a directory. The path may end in slashes. -/
def makeDirectory (t : Tree) (path : String) : Except FileError Tree := do
  let _ ← t.folder path
  let place ← t.place (dropSlashes path)
  match t.node? place with
  | some _ => throw .alreadyThere
  | none => return t.put place .directory

/-- Makes a file or replaces its text. A path that ends in a slash can only be a directory. -/
def write (t : Tree) (path text : String) : Except FileError Tree := do
  let _ ← t.folder path
  if endsInSlash path then throw .isDirectory
  let place ← t.place path
  match t.node? place with
  | some .directory => throw .isDirectory
  | _ => return t.put place (.file text)

/-- The files below the working directory by their paths. -/
def files (t : Tree) : List (String × String) :=
  t.entries.filterMap fun (place, node) =>
    match node with
    | .file text =>
      if Place.workingDirectory <+: place then
        some (String.intercalate "/" (place.drop Place.workingDirectory.length), text)
      else none
    | .directory => none

end Tree

/-- A closed host. -/
structure Machine where
  tree : Tree := {}
  /-- What was printed, in order. -/
  printed : List (Output × String) := []
  deriving Inhabited

namespace Machine

/-- What was printed to one output. -/
def printedTo (m : Machine) (output : Output) : String :=
  String.join ((m.printed.filter (·.1 = output)).map (·.2))

/-- Changes the tree, unless that fails. -/
def attempt (f : Tree → Except FileError Tree) : StateM Machine (Except FileError Unit) := do
  let machine ← get
  match f machine.tree with
  | .ok tree =>
    set { machine with tree }
    return .ok ()
  | .error e => return .error e

end Machine

instance : Host (StateM Machine) where
  read path := return (← get).tree.read path
  list path := return (← get).tree.list path
  isDirectory path := return (← get).tree.isDirectory path
  isThere path := return (((← get).tree.find path).toOption).isSome
  makeDirectory path := Machine.attempt (·.makeDirectory path)
  write path text := Machine.attempt (·.write path text)
  print output text := modify fun machine =>
    { machine with printed := machine.printed ++ [(output, text)] }
  microseconds := return 0

/-- The host with the files given by their paths; a file that cannot be made is left out. -/
def Machine.ofFiles (files : List (String × String)) : Machine :=
  let place : StateM Machine Unit := files.forM fun (path, text) => do
    if let .ok () ← makeDirectories (m := StateM Machine) (parent path) then
      let _ ← Host.write (m := StateM Machine) path text
  (place.run {}).2

end VersionedObjects.Files
