import VersionedObjects.Store.Generation
import VersionedObjects.Text.Blank

/-!
# Commands of the shell

A line that starts with a dot is a command: a name and words after it. Any other line is
declarations. The arguments of `.new` and the value of `.set` are taken from the text as it stands,
since they may contain blanks.
-/

namespace VersionedObjects.Shell

open Store (Generation)

/-- A command of the shell. -/
inductive Command where
  | help
  | quit
  | quiet
  | load (path : String)
  /-- Declarations typed in. -/
  | declare (source : String)
  | new (var className : String) (args : List String)
  | open (generation : Option Generation)
  | commit (generation : Option Generation)
  | discard (generation : Option Generation)
  | get (var : String) (property : Option String)
  | set (var property value : String)
  | frames
  | chain (var : String)
  | gc
  | classes
  deriving DecidableEq, Inhabited, Repr

/-- Why a line is no command. -/
inductive CommandError where
  | empty
  | unknown (name : String)
  /-- The words do not fit the command, which is used as given. -/
  | misused (usage : String)
  | notGeneration (word : String)
  deriving DecidableEq, Inhabited, Repr

/-- The error as text. -/
def CommandError.text : CommandError → String
  | empty => "Empty command"
  | unknown name => "Unknown command: ." ++ name
  | misused usage => "Usage: " ++ usage
  | notGeneration word => "Not a generation: " ++ word

/-- The text after a number of words. -/
def afterWords : Nat → List Char → List Char
  | 0, cs => Text.trim cs
  | n + 1, cs => afterWords n ((Text.trimStart cs).dropWhile fun c => !Text.isBlank c)

/-- The value of decimal digits, of which there is at least one. -/
def digitsValue? (cs : List Char) : Option Nat :=
  if cs.isEmpty ∨ !cs.all Char.isDigit then none
  else some (cs.foldl (fun n c => 10 * n + (c.toNat - '0'.toNat)) 0)

/-- A generation as it is typed: a number of 64 bits, with or without the letter before it. -/
def parseGeneration (word : String) : Except CommandError Generation :=
  let digits :=
    match word.toList.dropWhile (· = 'g') with
    | '+' :: rest => rest
    | cs => cs
  match (digitsValue? digits).filter (· < Nat.pow 2 64) with
  | some g => .ok g
  | none => .error (.notGeneration word)

/-- The generation that a command may name. -/
def generationArg (usage : String) : List String → Except CommandError (Option Generation)
  | [] => .ok none
  | [word] => (parseGeneration word).map some
  | _ => .error (.misused usage)

/-! ## Splitting values -/

/-- Where a scan for values stands. -/
structure ValueScan where
  /-- The values so far. -/
  done : List (List Char) := []
  /-- The characters of the value at hand. -/
  current : List Char := []
  /-- How many lists are open. -/
  depth : Nat := 0
  /-- Inside quotes. -/
  quoted : Bool := false
  /-- After a backslash inside quotes. -/
  escaped : Bool := false

/-- The character ends a value that no list is open in. -/
def isSeparator (c : Char) : Bool :=
  c == ',' || c == ' ' || c == '\t'

/-- The scan after the value at hand, if there is one, has ended. -/
def ValueScan.endValue (s : ValueScan) : ValueScan :=
  if s.current.isEmpty then s else { s with done := s.done ++ [s.current], current := [] }

/-- The scan after one more character. -/
def ValueScan.step (s : ValueScan) (c : Char) : ValueScan :=
  let taken := { s with current := s.current ++ [c] }
  if s.quoted then
    { taken with escaped := !s.escaped && c == '\\', quoted := s.escaped || c != '"' }
  else if c = '"' then { taken with quoted := true }
  else if c = '[' then { taken with depth := s.depth + 1 }
  else if c = ']' then { taken with depth := s.depth - 1 }
  else if isSeparator c && s.depth == 0 then s.endValue
  else taken

/-- The values in a text: separated by commas, blanks and tabs outside quotes and lists. -/
def splitValues (cs : List Char) : List String :=
  (cs.foldl ValueScan.step {}).endValue.done.map String.ofList

/-! ## Commands -/

/-- The command of a name with its words, given the text that both come from. -/
def commandOf (text : List Char) (name : String) (args : List String) :
    Except CommandError Command :=
  match name with
  | "help" | "h" => .ok .help
  | "quit" | "q" | "exit" => .ok .quit
  | "quiet" => .ok .quiet
  | "load" =>
    match args with
    | [path] => .ok (.load path)
    | _ => .error (.misused ".load <file>")
  | "new" =>
    match args with
    | var :: className :: _ => .ok (.new var className (splitValues (afterWords 3 text)))
    | _ => .error (.misused ".new <var> <Class> [args...]")
  | "open" => (generationArg ".open [generation]" args).map .open
  | "commit" => (generationArg ".commit [generation]" args).map .commit
  | "discard" => (generationArg ".discard [generation]" args).map .discard
  | "get" =>
    match args with
    | [var] => .ok (.get var none)
    | [var, property] => .ok (.get var (some property))
    | _ => .error (.misused ".get <var> [property]")
  | "set" =>
    match args with
    | var :: property :: _ :: _ => .ok (.set var property (String.ofList (afterWords 3 text)))
    | _ => .error (.misused ".set <var> <property> <value>")
  | "frames" => .ok .frames
  | "chain" =>
    match args with
    | [var] => .ok (.chain var)
    | _ => .error (.misused ".chain <var>")
  | "gc" => .ok .gc
  | "classes" | "ls" => .ok .classes
  | _ => .error (.unknown name)

/-- The command that a line gives. -/
def parseCommand (line : String) : Except CommandError Command :=
  match Text.trim line.toList with
  | '.' :: text =>
    match (Text.words text).map String.ofList with
    | name :: args => commandOf text name args
    | [] => .error .empty
  | source => .ok (.declare (String.ofList source))

end VersionedObjects.Shell
