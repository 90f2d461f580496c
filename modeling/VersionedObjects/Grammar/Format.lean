import VersionedObjects.Declaration.Structured.Reader
import VersionedObjects.Grammar.SyntaxError

/-!
# Formats of declarations

Declarations are written in declaration syntax or as JSON.
-/

namespace VersionedObjects.Grammar

open Declaration

/-- A format of declarations. -/
inductive Format where
  | frames
  | json
  deriving DecidableEq, Inhabited, Repr

/-- The name of a format, which is also the extension of its files. -/
def Format.name : Format → String
  | frames => "frames"
  | json => "json"

/-- Why declarations could not be loaded. -/
inductive LoadError where
  | malformed (error : SyntaxError)
  /-- The text is not the JSON of a module. -/
  | invalidJson
  | unreadable (path reason : String)
  | unknownFormat (name : String)
  deriving DecidableEq, Inhabited, Repr

/-- The error as text. -/
def LoadError.text : LoadError → String
  | malformed error => error.text
  | invalidJson => "Invalid JSON module"
  | unreadable path reason => "Failed to read " ++ path ++ ": " ++ reason
  | unknownFormat name => "Unknown declaration format: " ++ name

/-- The error and its causes, outermost first. -/
def LoadError.messages (e : LoadError) : List String :=
  e.text ::
    match e with
    | invalidJson => ["the text is not the JSON of a module"]
    | unreadable _ reason => [reason]
    | malformed _ | unknownFormat _ => []

/-- The format of a name. -/
def Format.ofName (name : String) : Except LoadError Format :=
  if name = frames.name then .ok frames
  else if name = json.name then .ok json
  else .error (.unknownFormat name)

/-- The module that a text in a format declares. -/
def Format.parse (format : Format) (source : String) : Except LoadError Module :=
  match format with
  | frames => (parseModule source).mapError .malformed
  | json =>
    match Module.ofJsonText? source with
    | some m => .ok m
    | none => .error .invalidJson

end VersionedObjects.Grammar
